import GofroRouter.Agent.Dataplane.Render

/-!
# The interval budget

What `append_networks` prints for the networks of a tag, and how many intervals the sets of a policy
have in comparison with the count of `GeoData::select`.

* `append_networks_eq`: the printing loop merges intervals.
* `append_networks_longest`: it prints the longest intervals, in order.
* `Counted`: what the loop of `select` has counted so far.
* `interval_budget`: what is rendered is what was counted, within the limit.
* **`intervals_agree`**: both results.
-/

namespace Gofro.Agent

open Geodata Intervals
open Ipv4 (Net)

/-! ## Printed intervals -/

/-- How an interval of numbers is printed. -/
def element (p : ℕ × ℕ) : Nft.Elem := interval (BitVec.ofNat 32 p.1) (BitVec.ofNat 32 p.2)

theorem element_toNat (start end_ : Ipv4Addr) :
    element (start.toNat, end_.toNat) = interval start end_ := by
  rw [element, BitVec.ofNat_toNat, BitVec.ofNat_toNat, BitVec.setWidth_eq, BitVec.setWidth_eq]

theorem bounds_eq (n : Net) : bounds n = (n.network.toNat, n.broadcast.toNat) := by
  rw [bounds, Net.network_toNat, Net.broadcast_toNat]

/-- The increment saturates at the last address, where no network starts later. -/
theorem successor_lt_iff (end_ : Ipv4Addr) (n : Net) :
    successor end_.toNat < n.network.toNat ↔ end_.toNat + 1 < n.network.toNat := by
  have he := end_.isLt
  have hn := n.network.isLt
  rw [successor]
  omega

theorem append_from_eq {start end_ : Ipv4Addr} {networks : List Net}
    (h : Ordered ((start.toNat, end_.toNat) :: networks.map bounds)) :
    append_from start end_ networks =
      (mergeFrom (start.toNat, end_.toNat) (networks.map bounds)).map element := by
  induction networks generalizing start end_ with
  | nil => rw [append_from, List.map_nil, mergeFrom, List.map_singleton, element_toNat]
  | cons n networks ih =>
    rw [List.map_cons, bounds_eq] at h ⊢
    obtain ⟨hle, hlt, hrest⟩ := ordered_cons.mp h
    obtain ⟨hn, hnext, htail⟩ := ordered_cons.mp hrest
    have hend : end_.toNat < n.network.toNat := hlt _ List.mem_cons_self
    have hbroad : end_ ≤ n.broadcast := by
      rw [BitVec.le_def]
      exact (hend.trans_le hn).le
    have hgrown : Ordered ((start.toNat, n.broadcast.toNat) :: networks.map bounds) :=
      ordered_cons.mpr ⟨hle.trans (hend.trans_le hn).le, hnext, htail⟩
    rw [append_from, mergeFrom, if_pos hbroad]
    by_cases hgap : end_.toNat + 1 < n.network.toNat
    · rw [if_pos ((successor_lt_iff end_ n).mpr hgap), if_pos hgap, List.map_cons, element_toNat,
        ih hrest]
    · rw [if_neg (mt (successor_lt_iff end_ n).mp hgap), if_neg hgap, ih hgrown]

/-- **The printing loop merges** the intervals of the networks. -/
theorem append_networks_eq {networks : List Net} (h : Net.Separated networks) :
    append_networks networks = (merge (networks.map bounds)).map element := by
  have hordered := ordered_bounds h
  cases networks with
  | nil => rfl
  | cons n networks =>
    rw [List.map_cons, bounds_eq] at hordered
    rw [append_networks, append_from_eq hordered, List.map_cons, merge, bounds_eq]

/-- The addresses of the networks, as numbers. -/
def Union (networks : List Net) (x : ℕ) : Prop :=
  x < 2 ^ 32 ∧ ∃ n ∈ networks, n.contains (BitVec.ofNat 32 x) = true

theorem separated_of_sorted {networks : List Net}
    (hsort : networks.Pairwise fun m n => net_le m n = true)
    (hdisjoint : networks.Pairwise fun m n =>
      ∀ ip, ¬ (m.contains ip = true ∧ n.contains ip = true)) : Net.Separated networks := by
  refine (hsort.and hdisjoint).imp fun {m n} ⟨hle, hdis⟩ => ?_
  by_contra hlt
  have hm := Net.contains_iff_bounds.mp m.contains_addr
  have hn := Net.contains_iff_bounds.mp n.contains_addr
  have haddr : m.addr.toNat ≤ n.addr.toNat := by
    simp only [net_le, Bool.or_eq_true, Bool.and_eq_true, decide_eq_true_eq, BitVec.lt_def] at hle
    rcases hle with hle | ⟨hle, -⟩
    · exact hle.le
    · rw [hle]
  -- one of the two starts inside the other
  rcases le_total m.first n.first with hf | hf
  · refine hdis n.network ⟨Net.contains_iff_bounds.mpr ?_, n.contains_network⟩
    rw [Net.network_toNat]
    omega
  · refine hdis m.network ⟨m.contains_network, Net.contains_iff_bounds.mpr ?_⟩
    rw [Net.network_toNat]
    omega

theorem apart_intervals {networks : List Net} (h : Net.Separated networks) :
    Apart (merge (networks.map bounds)) := apart_merge (ordered_bounds h)

theorem covers_intervals {networks : List Net} (h : Net.Separated networks) :
    Covers (merge (networks.map bounds)) = Union networks := by
  funext x
  rw [covers_merge (ordered_bounds h), covers_bounds]
  rfl

theorem intervals_lt {networks : List Net} (h : Net.Separated networks) :
    ∀ p ∈ merge (networks.map bounds), p.2 < 2 ^ 32 := by
  intro p hp
  have hin := ((apart_intervals h).longest hp).inside p.2 ((apart_intervals h).1 p hp) le_rfl
  rw [covers_intervals h] at hin
  exact hin.1

/-- Printed are the longest intervals of the networks, in order and inside the address space. -/
theorem append_networks_longest {networks : List Net}
    (hsort : networks.Pairwise fun m n => net_le m n = true)
    (hdisjoint : networks.Pairwise fun m n =>
      ∀ ip, ¬ (m.contains ip = true ∧ n.contains ip = true)) :
    ∃ l : List (ℕ × ℕ), append_networks networks = l.map element ∧
      (l.Pairwise fun p q => p.2 < q.1) ∧ (∀ p ∈ l, p.2 < 2 ^ 32) ∧
      ∀ p, p ∈ l ↔ Longest (Union networks) p := by
  have hsep := separated_of_sorted hsort hdisjoint
  refine ⟨_, append_networks_eq hsep, ?_, intervals_lt hsep, fun p => ?_⟩
  · exact (apart_intervals hsep).2.imp fun hgap => (Nat.lt_succ_self _).trans hgap
  · rw [(apart_intervals hsep).mem_iff, covers_intervals hsep]

theorem length_append_networks {networks : List Net} (h : Net.Separated networks) :
    (append_networks networks).length = intervals networks := by
  rw [append_networks_eq h, List.length_map, intervals_eq]

theorem intervals_le {networks : List Net} (h : Net.Separated networks) :
    intervals networks ≤ 2 ^ 32 := by
  rw [intervals_eq]
  exact (apart_intervals h).length_le (intervals_lt h)

/-! ## The count of a selection -/

/-- The intervals that a rule counts. -/
def rule_intervals (ips : List (String × List Net)) (rule : IpRule) : ℕ :=
  match rule.enabled, rule.matcher with
  | true, .geoIp tag => intervals ((ips.lookup tag).getD [])
  | _, _ => 0

/-- The loops of `select`. -/
def select_loops [RegexEngine] (source : Catalog) (alive : Liveness) (config : RoutingConfig) :
    Select Selection := do
  let st ← config.domain_rules.foldlM (select_site source alive) .empty
  config.ip_rules.foldlM (select_ip source alive) st

/-- What the loop has counted after the rules `rules`. -/
structure Counted (source : Catalog) (rules : List IpRule) (st : Selection) : Prop where
  count : st.ip_intervals = min (rules.map (rule_intervals st.ips)).sum U64_MAX
  limit : st.ip_intervals ≤ source.limits.geoip_intervals

theorem rule_intervals_cons {ips : List (String × List Net)} {tag : String} {networks : List Net}
    {rules : List IpRule} (hnew : ips.lookup tag = none) (hrules : IpRules ips rules) :
    rules.map (rule_intervals ((tag, networks) :: ips)) = rules.map (rule_intervals ips) := by
  apply List.map_congr_left
  intro rule hr
  unfold rule_intervals
  split
  · rename_i t hen hm
    have hsome := hrules rule hr t hen hm
    have hne : (t == tag) = false := by
      rw [beq_eq_false_iff_ne]
      rintro rfl
      rw [hnew] at hsome
      cases hsome
    rw [List.lookup_cons, hne]
  · rfl

theorem Counted.charge {source : Catalog} {st st' : Selection} {rules : List IpRule}
    {rule : IpRule} {tag : String}
    (h : Counted source rules st) (hen : rule.enabled = true) (hm : rule.matcher = .geoIp tag)
    (hc : charge_ip source st tag = .ok st') : Counted source (rules ++ [rule]) st' := by
  unfold charge_ip at hc
  dsimp only at hc
  split_ifs at hc with hle
  cases hc
  refine ⟨?_, hle⟩
  have hone : rule_intervals st.ips rule = intervals ((st.ips.lookup tag).getD []) := by
    rw [rule_intervals, hen, hm]
  dsimp only
  rw [List.map_append, List.sum_append, List.map_singleton, List.sum_singleton, hone, h.count,
    saturating_add]
  omega

section

variable [RegexEngine] {source : Catalog} {alive alive' : Liveness} {st : Selection}

theorem Geodata.Same.and {α : Type} {P Q : α → Prop} {m m' : Select α} (h : Same source P m m')
    (h' : Same source Q m m') : Same source (fun a => P a ∧ Q a) m m' := by
  intro c c' hc hc'
  obtain ⟨he, h₁, h₂, hp⟩ := h c c' hc hc'
  exact ⟨he, h₁, h₂, fun a ha => ⟨hp a ha, (h' c c' hc hc').2.2.2 a ha⟩⟩

theorem same_select_site_count (rule : DomainRule) :
    Same source (fun st' => st'.ip_intervals = st.ip_intervals) (select_site source alive st rule)
      (select_site source alive' st rule) := by
  unfold select_site
  split
  · split
    · exact .pure rfl
    · refine Same.bind (P := fun st' => ∃ n, st' = { st with site_bytes := n })
        (.lift fun _ => charge_site_ok) ?_
      rintro _ ⟨n, rfl⟩
      refine (same_get_site alive alive' _).bind fun o _ => .lift fun st' hst => ?_
      obtain ⟨s, n, -, rfl⟩ := add_site_ok hst
      rfl
  · exact .pure rfl

theorem same_select_ip_count {sites : List DomainRule} {rules : List IpRule} (rule : IpRule)
    (h : IpState source sites rules st) (hc : Counted source rules st) :
    Same source (Counted source (rules ++ [rule])) (select_ip source alive st rule)
      (select_ip source alive' st rule) := by
  unfold select_ip
  split
  · rename_i tag hen hm
    refine Same.bind (P := fun st' => Counted source rules st') ?_
      fun st' hst => .lift fun _ he => hst.charge hen hm he
    unfold ensure_ip
    split_ifs with hs
    · exact .pure hc
    · refine (same_get_ip alive alive' tag).bind fun o _ => .lift fun st' hst => ?_
      obtain ⟨networks, -, rfl⟩ := add_ip_ok hst
      have hnew := Option.not_isSome_iff_eq_none.mp hs
      refine ⟨?_, hc.limit⟩
      dsimp only
      rw [rule_intervals_cons hnew h.2.2, hc.count]
  · rename_i hno
    refine .pure ⟨?_, hc.limit⟩
    have hzero : rule_intervals st.ips rule = 0 := by
      unfold rule_intervals
      split
      · rename_i t hen hm
        exact absurd hm (hno t hen)
      · rfl
    rw [List.map_append, List.sum_append, List.map_singleton, List.sum_singleton, hzero, hc.count,
      Nat.add_zero]

/-- **What the loops of a selection hold and count.** -/
theorem same_select_loops (config : RoutingConfig) :
    Same source (fun st => IpState source config.domain_rules config.ip_rules st ∧
      Counted source config.ip_rules st) (select_loops source alive config)
      (select_loops source alive' config) := by
  refine (Same.foldlM (P := fun rules st => SiteState source rules st ∧ st.ip_intervals = 0)
    (fun rules rule st h => (same_select_site alive alive' rule h.1).and
      ((same_select_site_count rule).mono fun _ he => he.trans h.2))
    ⟨⟨⟨.nil _ _, .nil _ _⟩, fun _ hr => nomatch hr⟩, rfl⟩).bind fun st hst => ?_
  refine Same.foldlM (P := fun rules st => IpState source config.domain_rules rules st ∧
    Counted source rules st) (fun rules rule st h => (same_select_ip alive alive' rule h.1).and
      (same_select_ip_count rule h.1 h.2)) ⟨⟨hst.1.1, hst.1.2, fun _ hr => nomatch hr⟩, ?_⟩
  refine ⟨?_, ?_⟩
  · rw [hst.2, List.map_nil, List.sum_nil, Nat.zero_min]
  · rw [hst.2]
    exact Nat.zero_le _

end

/-! ## Rendered intervals -/

/-- The elements that a statement adds to a set. -/
def added_elements : Nft.Edit → ℕ
  | ⟨.set _, action⟩ =>
    match (action : Nft.SetAction) with
    | .add_elements es => es.length
    | _ => 0
  | _ => 0

/-- The intervals in the sets of a policy. -/
def rendered_intervals (p : RoutingPolicy) : ℕ :=
  (((enabled_ip_rules p).flatMap (render_ip_rule_set p)).map added_elements).sum

/-- The intervals that are printed for a rule. -/
def printed_intervals (g : GeoData) (rule : IpRule) : ℕ :=
  match rule.enabled, rule.matcher with
  | true, .geoIp tag => (append_networks (g.ip_networks tag)).length
  | _, _ => 0

theorem range_map_getElem? {α : Type} (l : List α) (f : α → ℕ) :
    (List.range l.length).map (fun i => (l[i]?).elim 0 f) = l.map f := by
  refine List.ext_getElem (by simp) fun i h₁ h₂ => ?_
  have hi : i < l.length := by simpa using h₁
  simp [List.getElem?_eq_getElem hi]

theorem sum_filterMap {α β : Type} (l : List α) (f : α → Option β) (g : β → ℕ) :
    ((l.filterMap f).map g).sum = (l.map fun a => (f a).elim 0 g).sum := by
  induction l with
  | nil => rfl
  | cons a l ih =>
    rw [List.filterMap_cons, List.map_cons, List.sum_cons, ← ih]
    cases f a with
    | none => exact (Nat.zero_add _).symm
    | some b => rfl

namespace RoutingPolicy

variable {p : RoutingPolicy}

theorem rule_refs_perm (h : p.config.Ordered) :
    p.rule_refs.Perm ((List.range p.config.domain_rules.length).map .domain ++
      (List.range p.config.ip_rules.length).map .ip) := by
  have hnd := rule_refs_nodup h
  unfold rule_refs at hnd ⊢
  cases ho : p.config.rule_order with
  | none => exact .refl _
  | some order =>
    rw [ho] at hnd
    obtain ⟨hlen, -, hall⟩ := h order ho
    refine (hnd.subperm fun r hr => ?_).perm_of_length_le ?_
    · have hr' := hall r hr
      cases r with
      | domain index =>
        exact List.mem_append_left _ (List.mem_map.mpr ⟨index, List.mem_range.mpr hr', rfl⟩)
      | ip index =>
        exact List.mem_append_right _ (List.mem_map.mpr ⟨index, List.mem_range.mpr hr', rfl⟩)
    · simp only [List.length_append, List.length_map, List.length_range]
      exact hlen.ge

theorem ip_rule_indices_perm (h : p.config.Ordered) (hm : p.config.mode = .rules) :
    p.ip_rule_indices.Perm (List.range p.config.ip_rules.length) := by
  unfold ip_rule_indices
  rw [hm, if_neg (by decide)]
  refine ((rule_refs_perm h).filterMap _).trans (.of_eq ?_)
  simp [List.filterMap_append, List.filterMap_map]

end RoutingPolicy

/-- **What is rendered** is what is printed for each rule of the configuration. -/
theorem rendered_intervals_eq {p : RoutingPolicy} (h : p.config.Ordered)
    (hm : p.config.mode = .rules) :
    rendered_intervals p = (p.config.ip_rules.map (printed_intervals p.geodata)).sum := by
  have hentry : ∀ entry ∈ enabled_ip_rules p,
      ((render_ip_rule_set p entry).map added_elements).sum =
        printed_intervals p.geodata entry.2 := by
    intro entry hmem
    obtain ⟨index, -, he⟩ := List.mem_filterMap.mp hmem
    obtain ⟨rule, hr, rfl⟩ := Option.map_eq_some_iff.mp he
    have hen := (Option.filter_eq_some_iff.mp hr).2
    unfold render_ip_rule_set printed_intervals
    rw [hen]
    cases rule.matcher with
    | cidr value => rfl
    | geoIp value =>
      dsimp only
      cases p.geodata.ip_networks value with
      | nil => rfl
      | cons n ns => exact Nat.zero_add _
  have hindex : ∀ index : ℕ, (((p.config.ip_rules[index]?).filter IpRule.enabled).map
      fun rule => (index, rule)).elim 0 (fun entry => printed_intervals p.geodata entry.2) =
        (p.config.ip_rules[index]?).elim 0 (printed_intervals p.geodata) := by
    intro index
    cases p.config.ip_rules[index]? with
    | none => rfl
    | some rule =>
      cases hen : rule.enabled with
      | true => simp [Option.filter, hen]
      | false => simp [Option.filter, hen, printed_intervals]
  rw [rendered_intervals, List.map_flatMap, List.flatMap_def, List.sum_flatten, List.map_map]
  have hmap : (enabled_ip_rules p).map
      (List.sum ∘ fun entry => (render_ip_rule_set p entry).map added_elements) =
        (enabled_ip_rules p).map fun entry => printed_intervals p.geodata entry.2 :=
    List.map_congr_left hentry
  rw [hmap, enabled_ip_rules, sum_filterMap]
  rw [((RoutingPolicy.ip_rule_indices_perm h hm).map _).sum_eq]
  simp only [hindex]
  rw [range_map_getElem?]

theorem rendered_intervals_all {p : RoutingPolicy} (hm : p.config.mode = .all) :
    rendered_intervals p = 0 := by
  have hnil : enabled_ip_rules p = [] := by
    rw [enabled_ip_rules, RoutingPolicy.ip_rule_indices, if_pos hm, List.filterMap_nil]
  rw [rendered_intervals, hnil]
  rfl

theorem select_eq [RegexEngine] {source : Catalog} {alive : Liveness} {config : RoutingConfig}
    {g : GeoData} (hg : g.source = some source) (hm : config.mode = .rules) :
    g.select alive config = (do
      let st ← select_loops source alive config
      return { source := some source, sites := st.sites, ips := st.ips }) := by
  unfold GeoData.select select_loops
  rw [hg]
  dsimp only
  rw [hm]
  dsimp only
  rw [bind_assoc]

theorem rule_intervals_le {ips : List (String × List Net)}
    (hips : ∀ tag, Net.Separated ((ips.lookup tag).getD [])) (rule : IpRule) :
    rule_intervals ips rule ≤ 2 ^ 32 := by
  unfold rule_intervals
  split
  · exact intervals_le (hips _)
  · exact Nat.zero_le _

theorem sum_rule_intervals_le {ips : List (String × List Net)}
    (hips : ∀ tag, Net.Separated ((ips.lookup tag).getD [])) {rules : List IpRule}
    (hlen : rules.length ≤ MAX_RULES) : (rules.map (rule_intervals ips)).sum ≤ U64_MAX := by
  have hle : ∀ n ∈ rules.map (rule_intervals ips), n ≤ 2 ^ 32 := by
    intro n hn
    obtain ⟨rule, -, rfl⟩ := List.mem_map.mp hn
    exact rule_intervals_le hips rule
  have hsum := List.sum_le_card_nsmul _ _ hle
  rw [List.length_map, smul_eq_mul] at hsum
  refine hsum.trans ((Nat.mul_le_mul_right _ hlen).trans ?_)
  decide

/-- After any history of selections, the sets of a compiled policy have as
many intervals as its selection has counted, and no more than the limit. -/
theorem interval_budget [RegexEngine] [Idna] {geosite geoip : File} {limits : ResourceLimits}
    {g : GeoData} (hload : GeoData.load_with_limits geosite geoip limits = .ok g)
    (history : List (Liveness × RoutingConfig)) (alive : Liveness) {config : RoutingConfig}
    (hconfig : Normalized config) {p : RoutingPolicy}
    (h : (RoutingPolicy.compile g alive config (run_selects g history)).1 = .ok p) :
    rendered_intervals p ≤ limits.geoip_intervals ∧
      (config.mode = .rules → ∃ source st, g.source = some source ∧
        (select_loops source alive config (run_selects g history)).1 = .ok st ∧
        st.ip_intervals = (config.ip_rules.map (printed_intervals p.geodata)).sum ∧
        rendered_intervals p = (config.ip_rules.map (printed_intervals p.geodata)).sum) := by
  obtain ⟨hsel, hc, -⟩ := RoutingPolicy.compile_spec h
  obtain ⟨source, rfl, rfl, -, hips⟩ := load_spec hload
  have hok := cachesOk_run_selects (g := { GeoData.empty with source := some source }) rfl history
  cases hm : config.mode with
  | all =>
    rw [rendered_intervals_all (hc ▸ hm)]
    exact ⟨Nat.zero_le _, fun hno => nomatch hno⟩
  | rules =>
    generalize run_selects _ history = caches at *
    have hspec := (@same_select_loops _ _ alive alive config _ _ hok hok).2.2.2
    rw [select_eq rfl hm, run_bind] at hsel
    rcases hrun : select_loops source alive config caches with ⟨e | st, caches'⟩
    · rw [hrun] at hsel
      cases hsel
    · rw [hrun] at hsel hspec
      obtain ⟨hstate, hcount⟩ := hspec st rfl
      have hgeo : p.geodata = ⟨some source, st.sites, st.ips⟩ := (Except.ok.inj hsel).symm
      have hsep : ∀ tag, Net.Separated (p.geodata.ip_networks tag) := by
        intro tag
        rw [hgeo]
        exact RoutingPolicy.separated_of_sound hips hstate.1 tag
      have hprinted : config.ip_rules.map (printed_intervals p.geodata) =
          config.ip_rules.map (rule_intervals st.ips) := by
        apply List.map_congr_left
        intro rule _
        unfold printed_intervals rule_intervals
        split
        · rename_i tag _ _
          rw [length_append_networks (hsep tag), hgeo]
          rfl
        · rfl
      have hsmall : (config.ip_rules.map (rule_intervals st.ips)).sum ≤ U64_MAX :=
        sum_rule_intervals_le (fun tag => by have hs := hsep tag; rwa [hgeo] at hs) hconfig.length_le
      have hsum : st.ip_intervals = (config.ip_rules.map (printed_intervals p.geodata)).sum := by
        rw [hcount.count, hprinted, Nat.min_eq_left hsmall]
      have hrendered : rendered_intervals p =
          (config.ip_rules.map (printed_intervals p.geodata)).sum := by
        rw [rendered_intervals_eq (hc ▸ hconfig.ordered) (hc ▸ hm), hc]
      refine ⟨?_, fun _ => ⟨source, st, rfl, by rw [hrun], hsum, hrendered⟩⟩
      rw [hrendered, ← hsum]
      exact hcount.limit

/-- **Printed intervals and the budget agree**: sorted and disjoint networks are printed as their
longest intervals, in order and inside the address space; a compiled policy renders as many
intervals as its selection has counted, never more than the limit. -/
theorem intervals_agree [RegexEngine] [Idna] :
    (∀ networks : List Net, (networks.Pairwise fun m n => net_le m n = true) →
      (networks.Pairwise fun m n => ∀ ip, ¬ (m.contains ip = true ∧ n.contains ip = true)) →
      ∃ l : List (ℕ × ℕ), append_networks networks = l.map element ∧
        (l.Pairwise fun p q => p.2 < q.1) ∧ (∀ p ∈ l, p.2 < 2 ^ 32) ∧
        ∀ p, p ∈ l ↔ Longest (Union networks) p) ∧
    ∀ (geosite geoip : File) (limits : ResourceLimits) (g : GeoData)
      (history : List (Liveness × RoutingConfig)) (alive : Liveness) (config : RoutingConfig)
      (p : RoutingPolicy), GeoData.load_with_limits geosite geoip limits = .ok g →
      Normalized config →
      (RoutingPolicy.compile g alive config (run_selects g history)).1 = .ok p →
      rendered_intervals p ≤ limits.geoip_intervals ∧
        (config.mode = .rules → ∃ source st, g.source = some source ∧
          (select_loops source alive config (run_selects g history)).1 = .ok st ∧
          st.ip_intervals = (config.ip_rules.map (printed_intervals p.geodata)).sum ∧
          rendered_intervals p = (config.ip_rules.map (printed_intervals p.geodata)).sum) :=
  ⟨fun _ hsort hdisjoint => append_networks_longest hsort hdisjoint,
    fun _ _ _ _ history alive _ _ hload hconfig h => interval_budget hload history alive hconfig h⟩

def sample_ip_config : RoutingConfig :=
  ⟨[], [⟨"ip", true, .geoIp "r", .vpn⟩], .direct, .rules, none⟩

/-- Neighbours are printed as one interval; one tag within the budget. -/
theorem intervals_agree_sample :
    letI : RegexEngine := ⟨fun _ => true, fun _ _ => false⟩
    letI : Idna := ⟨id, some⟩
    (∃ l : List (ℕ × ℕ), append_networks [⟨Ipv4.addr 10 0 1 0, 24, by decide⟩,
        ⟨Ipv4.addr 10 0 2 0, 24, by decide⟩, ⟨Ipv4.addr 255 255 255 0, 24, by decide⟩] =
          l.map element ∧
        (l.Pairwise fun p q => p.2 < q.1) ∧ (∀ p ∈ l, p.2 < 2 ^ 32) ∧
        ∀ p, p ∈ l ↔ Longest (Union [⟨Ipv4.addr 10 0 1 0, 24, by decide⟩,
          ⟨Ipv4.addr 10 0 2 0, 24, by decide⟩, ⟨Ipv4.addr 255 255 255 0, 24, by decide⟩]) p) ∧
      rendered_intervals ⟨sample_ip_config, ⟨some sampleCatalog, [],
        [("r", [⟨Ipv4.addr 1 2 3 0, 24, by decide⟩])]⟩, [none]⟩ ≤ 16384 :=
  letI : RegexEngine := ⟨fun _ => true, fun _ _ => false⟩
  letI : Idna := ⟨id, some⟩
  ⟨intervals_agree.1 _ (by decide) (Net.Separated.disjoint (by unfold Net.Separated; decide)),
    (intervals_agree.2 sampleSites sampleIps sampleCatalog.limits
      { GeoData.empty with source := some sampleCatalog } [] ⟨fun _ => true, fun _ => false⟩
      sample_ip_config _ (by decide +kernel) ⟨sample_ip_config, by decide +kernel⟩
      (by decide +kernel)).1⟩

end Gofro.Agent
