import GofroRouter.Agent.Geodata.Index
import GofroRouter.Agent.Model
import GofroRouter.Lib.Intervals

/-!
# Selecting the tags of a configuration

`GeoData::select` of `geodata.rs`: decode the entries that the enabled rules name, within the
budget of the memory profile. Decoded entries stay in a cache of weak references that all
selections share; whether a reference is still alive is decided outside.

* `CachesOk`: every cached value is the decoded entry of its tag.
* `same_select`: the result does not depend on the caches nor on which references are alive.
* **`aggregate_ipv4_exact`**: what merging leaves, and what a lookup finds in it.
* **`select_faithful`**: after any history, the selected tags match what the catalogs say.
-/

namespace Gofro.Agent.Geodata

/-! ## Matching a decoded site -/

theorem mem_afterDots {s cs : List Char} : s ∈ afterDots cs ↔ ∃ pre, cs = pre ++ '.' :: s := by
  induction cs with
  | nil => simp [afterDots]
  | cons c cs ih =>
    have hcons : (∃ pre, c :: cs = pre ++ '.' :: s) ↔
        (c = '.' ∧ cs = s) ∨ ∃ pre, cs = pre ++ '.' :: s := by
      constructor
      · rintro ⟨_ | ⟨d, pre⟩, h⟩
        · exact .inl (List.cons.inj h)
        · exact .inr ⟨pre, (List.cons.inj h).2⟩
      · rintro (⟨rfl, rfl⟩ | ⟨pre, rfl⟩)
        · exact ⟨[], rfl⟩
        · exact ⟨c :: pre, rfl⟩
    rw [hcons, afterDots]
    split_ifs with hc
    · rw [List.mem_cons, ih]
      exact or_congr_left ⟨fun h => ⟨hc, h.symm⟩, fun h => h.2.symm⟩
    · rw [ih]
      exact ⟨Or.inr, fun h => h.resolve_left fun h => hc h.1⟩

/-- **A decoded site matches what its domains match.** -/
theorem Site.matches_iff [RegexEngine] {limits : ResourceLimits} {site : Site}
    {ds : List Domain} (h : SiteOf limits site ds) (domain : String) :
    site.matches domain = true ↔ ∃ d ∈ ds, d.matches limits domain = true := by
  have hroots : (site.roots.contains domain = true ∨ (afterDots domain.toList).any
      (fun s => site.roots.contains (String.ofList s)) = true) ↔
      ∃ d ∈ ds, d.kind = 2 ∧
        Text.dottedSuffix domain (Text.to_ascii_lowercase d.value) = true := by
    simp only [List.any_eq_true, List.contains_iff_mem, h.roots, Text.dottedSuffix_iff,
      mem_afterDots]
    constructor
    · rintro (⟨d, hd, hk, he⟩ | ⟨s, ⟨pre, hp⟩, d, hd, hk, he⟩)
      · exact ⟨d, hd, hk, .inl he.symm⟩
      · exact ⟨d, hd, hk, .inr ⟨pre, by rw [he, String.toList_ofList]; exact hp⟩⟩
    · rintro ⟨d, hd, hk, he | ⟨pre, hp⟩⟩
      · exact .inl ⟨d, hd, hk, he.symm⟩
      · exact .inr ⟨_, ⟨pre, hp⟩, d, hd, hk, String.ofList_toList.symm⟩
  have hkind : ∀ d : Domain, d.matches limits domain = true ↔
      (d.kind = 3 ∧ Text.to_ascii_lowercase d.value = domain) ∨
      (d.kind = 2 ∧ Text.dottedSuffix domain (Text.to_ascii_lowercase d.value) = true) ∨
      (d.kind = 0 ∧ Text.contains domain (Text.to_ascii_lowercase d.value) = true) ∨
      (d.kind = 1 ∧ RegexEngine.is_match
        ⟨d.value, limits.regex_size_bytes, limits.regex_cache_bytes⟩ domain = true) := by
    intro d
    unfold Domain.matches
    split
    · rename_i hk; simp [hk]
    · rename_i hk; simp [hk]
    · rename_i hk; simp [hk]
    · rename_i hk; simp [hk, eq_comm (a := domain)]
    · simp
      tauto
  unfold Site.matches
  simp only [hkind, and_or_left, exists_or, Bool.or_eq_true, or_assoc]
  rw [← hroots]
  simp only [List.any_eq_true, List.contains_iff_mem, h.full, h.keywords, h.regexes]
  constructor
  · rintro (h | h | h | ⟨_, ⟨d, hd, hk, rfl⟩, h⟩ | ⟨_, ⟨d, hd, hk, rfl⟩, h⟩)
    · exact .inl h
    · exact .inr (.inl (.inl h))
    · exact .inr (.inl (.inr h))
    · exact .inr (.inr (.inl ⟨d, hd, hk, h⟩))
    · exact .inr (.inr (.inr ⟨d, hd, hk, h⟩))
  · rintro (h | (h | h) | ⟨d, hd, hk, h⟩ | ⟨d, hd, hk, h⟩)
    · exact .inl h
    · exact .inr (.inl h)
    · exact .inr (.inr (.inl h))
    · exact .inr (.inr (.inr (.inl ⟨_, ⟨d, hd, hk, rfl⟩, h⟩)))
    · exact .inr (.inr (.inr (.inr ⟨_, ⟨d, hd, hk, rfl⟩, h⟩)))

/-! ## The cache -/

/-- Decoded entries by tag, as weak references. -/
abbrev Cache (T : Type) := List (String × T)

/-- The decoded entry of a tag, read from the file. -/
def decoded {T : Type} (f : IndexedFile) (decode : Read T) (tag : String) :
    Except String (Option T) :=
  match f.entries.lookup tag with
  | none => .ok none
  | some range => (decode_entry f.file range decode).map some

/-- `IndexedFile::get`; `alive` says whether a cached entry is still held by someone. -/
def get {T : Type} (f : IndexedFile) (cache : Cache T) (alive : Bool) (tag : String)
    (decode : Read T) : Except String (Option T) × Cache T :=
  match (cache.lookup tag).filter fun _ => alive with
  | some value => (.ok (some value), cache)
  | none =>
    match decoded f decode tag with
    | .error e => (.error e, cache)
    | .ok none => (.ok none, cache)
    | .ok (some value) => (.ok (some value), (tag, value) :: cache)

/-- Every cached value is the decoded entry of its tag. -/
def CacheOk {T : Type} (f : IndexedFile) (decode : Read T) (cache : Cache T) : Prop :=
  ∀ tag value, cache.lookup tag = some value → decoded f decode tag = .ok (some value)

theorem CacheOk.nil {T : Type} (f : IndexedFile) (decode : Read T) : CacheOk f decode [] := by
  intro tag value h
  cases h

theorem CacheOk.cons {T : Type} {f : IndexedFile} {decode : Read T} {cache : Cache T}
    (h : CacheOk f decode cache) {tag : String} {value : T}
    (hd : decoded f decode tag = .ok (some value)) : CacheOk f decode ((tag, value) :: cache) := by
  intro t v hv
  rw [List.lookup_cons] at hv
  cases ht : t == tag with
  | true =>
    rw [ht] at hv
    cases hv
    rw [beq_iff_eq.mp ht, hd]
  | false =>
    rw [ht] at hv
    exact h t v hv

/-- **`get` on a good cache**: the result depends on the file alone. -/
theorem get_spec {T : Type} {f : IndexedFile} {decode : Read T} {cache : Cache T}
    (h : CacheOk f decode cache) (alive : Bool) (tag : String) :
    (get f cache alive tag decode).1 = decoded f decode tag ∧
      CacheOk f decode (get f cache alive tag decode).2 := by
  unfold get
  split
  · rename_i value hc
    exact ⟨(h tag value (Option.filter_eq_some_iff.mp hc).1).symm, h⟩
  · split
    · rename_i hd
      exact ⟨hd.symm, h⟩
    · rename_i hd
      exact ⟨hd.symm, h⟩
    · rename_i hd
      exact ⟨hd.symm, h.cons hd⟩

/-! ## Selection -/

/-- The open catalogs of a release. -/
structure Catalog where
  sites : IndexedFile
  ips : IndexedFile
  limits : ResourceLimits
deriving DecidableEq

/-- The caches of the two catalogs. -/
structure Caches where
  sites : Cache Site
  ips : Cache (List Ipv4.Net)

def Caches.empty : Caches := ⟨[], []⟩

/-- Which cached entries can still be upgraded during a selection. -/
structure Liveness where
  sites : String → Bool
  ips : String → Bool

/-- The two files, and what has been selected from them. -/
structure GeoData where
  source : Option Catalog
  sites : List (String × Site)
  ips : List (String × List Ipv4.Net)
deriving DecidableEq

/-- What there is before the files have been downloaded. -/
def GeoData.empty : GeoData := ⟨none, [], []⟩

/-- The files are indexed; nothing is selected yet. -/
def GeoData.load_with_limits (geosite geoip : File) (limits : ResourceLimits) :
    Except String GeoData := do
  let sites ← IndexedFile.open geosite false
  let ips ← IndexedFile.open geoip true
  return { GeoData.empty with source := some ⟨sites, ips, limits⟩ }

/-- The tag has been selected, or could be. -/
def GeoData.has_site (g : GeoData) (tag : String) : Bool :=
  (g.sites.lookup tag).isSome || g.source.any fun source =>
    (source.sites.entries.lookup tag).isSome

def GeoData.has_ip (g : GeoData) (tag : String) : Bool :=
  (g.ips.lookup tag).isSome || g.source.any fun source => (source.ips.entries.lookup tag).isSome

/-- The networks of a tag that has been selected. -/
def GeoData.ip_networks (g : GeoData) (tag : String) : List Ipv4.Net := (g.ips.lookup tag).getD []

/-- A tag that has not been selected matches nothing. -/
def GeoData.matches_site [RegexEngine] (g : GeoData) (tag domain : String) : Bool :=
  (g.sites.lookup tag).any (·.matches domain)

/-- The last network that starts at or before the address decides. -/
def GeoData.matches_ip (g : GeoData) (tag : String) (ip : Ipv4.Addr) : Bool :=
  let networks := g.ip_networks tag
  let index := (networks.takeWhile fun n => decide (n.network ≤ ip)).length
  decide (0 < index) && (networks[index - 1]?).any (·.contains ip)

/-- The largest value of a 64-bit counter. -/
def U64_MAX : ℕ := 2 ^ 64 - 1

def saturating_add (a b : ℕ) : ℕ := min (a + b) U64_MAX

/-- `u32::saturating_add(1)` -/
def successor (a : ℕ) : ℕ := min (a + 1) (2 ^ 32 - 1)

/-- The number of intervals that merged networks make up. -/
def intervals (networks : List Ipv4.Net) : ℕ :=
  (if networks.isEmpty then 0 else 1) +
    ((networks.zip networks.tail).filter fun pair =>
      decide (successor pair.1.last < pair.2.first)).length

/-- The state of the loops in `select`. -/
structure Selection where
  sites : List (String × Site)
  ips : List (String × List Ipv4.Net)
  site_bytes : ℕ
  regex_count : ℕ
  ip_intervals : ℕ

/-- Nothing is selected at the start. -/
def Selection.empty : Selection := ⟨[], [], 0, 0, 0⟩

/-- The caches change whether or not the selection succeeds. -/
abbrev Select := ExceptT String (StateM Caches)

/-- The error of a tag that is in no file. -/
def missing_site (tag : String) : String := "GeoSite-тег " ++ tag ++ " отсутствует в geosite.dat"
def missing_ip (tag : String) : String := "GeoIP-тег " ++ tag ++ " отсутствует в geoip.dat"

/-- The entry from the cache, or decoded anew. -/
def get_site [RegexEngine] (source : Catalog) (alive : Liveness) (tag : String) :
    Select (Option Site) := fun caches =>
  let (result, sites) :=
    get source.sites caches.sites (alive.sites tag) tag (decode_site source.sites.file source.limits)
  (result, { caches with sites })

def get_ip (source : Catalog) (alive : Liveness) (tag : String) :
    Select (Option (List Ipv4.Net)) := fun caches =>
  let (result, ips) :=
    get source.ips caches.ips (alive.ips tag) tag (decode_ip source.ips.file)
  (result, { caches with ips })

/-- The byte budget, before a GeoSite entry is decoded. -/
def charge_site (source : Catalog) (st : Selection) (tag : String) : Except String Selection :=
  match source.sites.entries.lookup tag with
  | none => .error (missing_site tag)
  | some range =>
    let site_bytes := saturating_add st.site_bytes range.len
    if site_bytes ≤ source.limits.geosite_bytes then .ok { st with site_bytes }
    else .error ("GeoSite-правила превышают бюджет compact-профиля; " ++
      "уменьшите список тегов или используйте устройство с большей RAM")

/-- The regex budget, after a GeoSite entry was decoded. -/
def add_site (source : Catalog) (st : Selection) (tag : String) (site : Option Site) :
    Except String Selection :=
  match site with
  | none => .error (missing_site tag)
  | some site =>
    let regex_count := saturating_add st.regex_count site.regexes.length
    if regex_count ≤ source.limits.regex_count then
      .ok { st with regex_count, sites := (tag, site) :: st.sites }
    else .error ("слишком много GeoSite regex для compact-профиля (максимум " ++
      toString source.limits.regex_count ++ ")")

/-- One round of the loop over the domain rules. -/
def select_site [RegexEngine] (source : Catalog) (alive : Liveness) (st : Selection)
    (rule : DomainRule) : Select Selection :=
  match rule.enabled, rule.matcher with
  | true, .geoSite tag =>
    if (st.sites.lookup tag).isSome then return st
    else do
      let st ← ExceptT.mk (pure (charge_site source st tag))
      let site ← get_site source alive tag
      ExceptT.mk (pure (add_site source st tag site))
  | _, _ => return st

/-- A GeoIP entry that was not selected before. -/
def add_ip (st : Selection) (tag : String) (networks : Option (List Ipv4.Net)) :
    Except String Selection :=
  match networks with
  | none => .error (missing_ip tag)
  | some networks => .ok { st with ips := (tag, networks) :: st.ips }

/-- The interval budget; every rule counts the intervals of its tag. -/
def charge_ip (source : Catalog) (st : Selection) (tag : String) : Except String Selection :=
  let ip_intervals := saturating_add st.ip_intervals (intervals ((st.ips.lookup tag).getD []))
  if ip_intervals ≤ source.limits.geoip_intervals then .ok { st with ip_intervals }
  else .error ("GeoIP-правила превышают бюджет compact-профиля: " ++ toString ip_intervals ++
    " интервалов при лимите " ++ toString source.limits.geoip_intervals)

/-- The networks of a tag, decoded unless they were selected before. -/
def ensure_ip (source : Catalog) (alive : Liveness) (st : Selection) (tag : String) :
    Select Selection :=
  if (st.ips.lookup tag).isSome then return st
  else do
    let networks ← get_ip source alive tag
    ExceptT.mk (pure (add_ip st tag networks))

/-- One round of the loop over the IP rules. -/
def select_ip (source : Catalog) (alive : Liveness) (st : Selection) (rule : IpRule) :
    Select Selection :=
  match rule.enabled, rule.matcher with
  | true, .geoIp tag => do
    let st ← ensure_ip source alive st tag
    ExceptT.mk (pure (charge_ip source st tag))
  | _, _ => return st

/-- What a configuration needs of the files, within the limits. -/
def GeoData.select [RegexEngine] (g : GeoData) (alive : Liveness) (config : RoutingConfig) :
    Select GeoData :=
  match g.source with
  | none => return g
  | some source =>
    match config.mode with
    | .all => return { GeoData.empty with source := some source }
    | .rules => do
      let st ← config.domain_rules.foldlM (select_site source alive) .empty
      let st ← config.ip_rules.foldlM (select_ip source alive) st
      return { source := some source, sites := st.sites, ips := st.ips }

/-! ## Intervals -/

/-- The ends of a network. -/
def bounds (n : Ipv4.Net) : ℕ × ℕ := (n.first, n.last)

theorem ordered_bounds {ns : List Ipv4.Net} (h : Ipv4.Net.Separated ns) :
    Intervals.Ordered (ns.map bounds) := by
  refine ⟨fun p hp => ?_, List.pairwise_map.mpr h⟩
  obtain ⟨n, -, rfl⟩ := List.mem_map.mp hp
  exact n.first_le_last

theorem covers_bounds {ns : List Ipv4.Net} {x : ℕ} :
    Intervals.Covers (ns.map bounds) x ↔
      x < 2 ^ 32 ∧ ∃ n ∈ ns, n.contains (BitVec.ofNat 32 x) = true := by
  simp only [Intervals.Covers, List.mem_map, exists_exists_and_eq_and, bounds,
    Ipv4.Net.contains_iff_bounds]
  constructor
  · rintro ⟨n, hn, h⟩
    have hlt := n.last_lt
    refine ⟨by omega, n, hn, ?_⟩
    rwa [BitVec.toNat_ofNat, Nat.mod_eq_of_lt (by omega)]
  · rintro ⟨hlt, n, hn, h⟩
    rw [BitVec.toNat_ofNat, Nat.mod_eq_of_lt hlt] at h
    exact ⟨n, hn, h⟩

/-- The budget counts the merged intervals; the increment does not saturate below an address. -/
theorem intervals_eq (ns : List Ipv4.Net) :
    intervals ns = (Intervals.merge (ns.map bounds)).length := by
  have hgap : (fun pair : Ipv4.Net × Ipv4.Net => decide (successor pair.1.last < pair.2.first)) =
      fun pair => decide (pair.1.last + 1 < pair.2.first) := by
    funext ⟨m, n⟩
    have hm := m.last_lt
    have hn := n.first_lt
    rw [decide_eq_decide, successor]
    dsimp only
    omega
  rw [Intervals.length_merge, intervals, Intervals.gaps, List.isEmpty_map, ← List.map_tail,
    List.zip_map, List.filter_map, List.length_map, hgap]
  rfl

/-- **The count depends on the addresses alone.** -/
theorem intervals_congr {ns ms : List Ipv4.Net} (hn : Ipv4.Net.Separated ns)
    (hm : Ipv4.Net.Separated ms)
    (h : ∀ ip, (∃ n ∈ ns, n.contains ip = true) ↔ ∃ m ∈ ms, m.contains ip = true) :
    intervals ns = intervals ms := by
  have hns := ordered_bounds hn
  have hms := ordered_bounds hm
  have hmerge : Intervals.merge (ns.map bounds) = Intervals.merge (ms.map bounds) :=
    (Intervals.apart_merge hns).ext (Intervals.apart_merge hms) fun x => by
      rw [Intervals.covers_merge hns, Intervals.covers_merge hms, covers_bounds, covers_bounds, h]
  rw [intervals_eq, intervals_eq, hmerge]

/-! ## Independence of the caches -/

/-- Both caches hold what the files say. -/
def CachesOk [RegexEngine] (source : Catalog) (caches : Caches) : Prop :=
  CacheOk source.sites (decode_site source.sites.file source.limits) caches.sites ∧
    CacheOk source.ips (decode_ip source.ips.file) caches.ips

theorem CachesOk.empty [RegexEngine] (source : Catalog) : CachesOk source .empty :=
  ⟨.nil _ _, .nil _ _⟩

/-- Two runs from good caches: same result, which satisfies `P`, and good caches again. -/
def Same [RegexEngine] (source : Catalog) {α : Type} (P : α → Prop) (m m' : Select α) : Prop :=
  ∀ c c', CachesOk source c → CachesOk source c' →
    (m c).1 = (m' c').1 ∧ CachesOk source (m c).2 ∧ CachesOk source (m' c').2 ∧
      ∀ a, (m c).1 = .ok a → P a

section

variable {source : Catalog} {st st' : Selection} {tag : String}

theorem charge_site_ok (h : charge_site source st tag = .ok st') :
    ∃ n, st' = { st with site_bytes := n } := by
  simp only [charge_site] at h
  split at h
  · cases h
  · split at h
    · cases h; exact ⟨_, rfl⟩
    · cases h

theorem add_site_ok {site : Option Site} (h : add_site source st tag site = .ok st') :
    ∃ s n, site = some s ∧ st' = { st with regex_count := n, sites := (tag, s) :: st.sites } := by
  simp only [add_site] at h
  split at h
  · cases h
  · split at h
    · cases h; exact ⟨_, _, rfl, rfl⟩
    · cases h

theorem add_ip_ok {networks : Option (List Ipv4.Net)} (h : add_ip st tag networks = .ok st') :
    ∃ ns, networks = some ns ∧ st' = { st with ips := (tag, ns) :: st.ips } := by
  simp only [add_ip] at h
  split at h
  · cases h
  · cases h; exact ⟨_, rfl, rfl⟩

theorem charge_ip_ok (h : charge_ip source st tag = .ok st') :
    ∃ n, st' = { st with ip_intervals := n } := by
  simp only [charge_ip] at h
  split at h
  · cases h; exact ⟨_, rfl⟩
  · cases h

theorem lookup_cons_isSome {γ : Type} {l : List (String × γ)} {t : String} {v : γ}
    (h : (l.lookup t).isSome = true ∨ t = tag) : (((tag, v) :: l).lookup t).isSome = true := by
  rw [List.lookup_cons]
  cases ht : t == tag with
  | true => rfl
  | false =>
    refine h.resolve_right fun he => ?_
    rw [he] at ht
    simp at ht

/-- Every enabled rule with a tag finds it selected. -/
def SiteRules (sites : List (String × Site)) (rules : List DomainRule) : Prop :=
  ∀ rule ∈ rules, ∀ tag, rule.enabled = true → rule.matcher = .geoSite tag →
    (sites.lookup tag).isSome = true

def IpRules (ips : List (String × List Ipv4.Net)) (rules : List IpRule) : Prop :=
  ∀ rule ∈ rules, ∀ tag, rule.enabled = true → rule.matcher = .geoIp tag →
    (ips.lookup tag).isSome = true

theorem SiteRules.concat {sites sites' : List (String × Site)} {rules : List DomainRule}
    {rule : DomainRule} (h : SiteRules sites rules)
    (hs : ∀ t, (sites.lookup t).isSome = true → (sites'.lookup t).isSome = true)
    (hr : ∀ tag, rule.enabled = true → rule.matcher = .geoSite tag →
      (sites'.lookup tag).isSome = true) : SiteRules sites' (rules ++ [rule]) := by
  intro r hmem tag he hm
  rcases List.mem_append.mp hmem with hmem | hmem
  · exact hs _ (h r hmem tag he hm)
  · rw [List.mem_singleton.mp hmem] at he hm
    exact hr tag he hm

theorem IpRules.concat {ips ips' : List (String × List Ipv4.Net)} {rules : List IpRule}
    {rule : IpRule} (h : IpRules ips rules)
    (hs : ∀ t, (ips.lookup t).isSome = true → (ips'.lookup t).isSome = true)
    (hr : ∀ tag, rule.enabled = true → rule.matcher = .geoIp tag →
      (ips'.lookup tag).isSome = true) : IpRules ips' (rules ++ [rule]) := by
  intro r hmem tag he hm
  rcases List.mem_append.mp hmem with hmem | hmem
  · exact hs _ (h r hmem tag he hm)
  · rw [List.mem_singleton.mp hmem] at he hm
    exact hr tag he hm

end

theorem run_bind {α β : Type} (m : Select α) (k : α → Select β) (c : Caches) :
    (m >>= k) c = match m c with
      | (.ok a, c) => k a c
      | (.error e, c) => (.error e, c) := by
  simp only [Bind.bind, ExceptT.bind, ExceptT.mk, StateT.bind, ExceptT.bindCont]
  rcases m c with ⟨_ | _, _⟩ <;> rfl

section

variable [RegexEngine] {source : Catalog} {α β : Type}

theorem Same.pure {P : α → Prop} {a : α} (h : P a) : Same source P (Pure.pure a) (Pure.pure a) :=
  fun _ _ hc hc' => ⟨rfl, hc, hc', fun _ he => Except.ok.inj he ▸ h⟩

theorem Same.lift {P : α → Prop} {x : Except String α} (h : ∀ a, x = .ok a → P a) :
    Same source P (ExceptT.mk (Pure.pure x)) (ExceptT.mk (Pure.pure x)) :=
  fun _ _ hc hc' => ⟨rfl, hc, hc', h⟩

theorem Same.bind {P : α → Prop} {Q : β → Prop} {m m' : Select α} {k k' : α → Select β}
    (h : Same source P m m') (hk : ∀ a, P a → Same source Q (k a) (k' a)) :
    Same source Q (m >>= k) (m' >>= k') := by
  intro c c' hc hc'
  obtain ⟨he, h₁, h₂, hp⟩ := h c c' hc hc'
  rw [run_bind, run_bind]
  rcases hm : m c with ⟨x, d⟩
  rcases hm' : m' c' with ⟨x', d'⟩
  rw [hm] at he h₁ hp
  rw [hm'] at he h₂
  subst he
  cases x with
  | error e => exact ⟨rfl, h₁, h₂, fun a ha => by cases ha⟩
  | ok a => exact hk a (hp a rfl) d d' h₁ h₂

theorem Same.mono {P Q : α → Prop} {m m' : Select α} (h : Same source P m m')
    (hi : ∀ a, P a → Q a) : Same source Q m m' := by
  intro c c' hc hc'
  obtain ⟨he, h₁, h₂, hp⟩ := h c c' hc hc'
  exact ⟨he, h₁, h₂, fun a ha => hi a (hp a ha)⟩

theorem Same.foldlM_append {P : List β → α → Prop} {f f' : α → β → Select α}
    (hf : ∀ bs b a, P bs a → Same source (P (bs ++ [b])) (f a b) (f' a b)) {pre l : List β} {a : α}
    (h : P pre a) : Same source (P (pre ++ l)) (l.foldlM f a) (l.foldlM f' a) := by
  induction l generalizing pre a with
  | nil => rw [List.append_nil]; exact .pure h
  | cons b l ih =>
    rw [List.foldlM_cons, List.foldlM_cons]
    refine (hf pre b a h).bind fun a ha => ?_
    have := ih ha
    rwa [List.append_assoc] at this

theorem Same.foldlM {P : List β → α → Prop} {f f' : α → β → Select α}
    (hf : ∀ bs b a, P bs a → Same source (P (bs ++ [b])) (f a b) (f' a b)) {l : List β} {a : α}
    (h : P [] a) : Same source (P l) (l.foldlM f a) (l.foldlM f' a) :=
  foldlM_append hf h

theorem same_get_site (alive alive' : Liveness) (tag : String) :
    Same source (fun o => decoded source.sites
      (decode_site source.sites.file source.limits) tag = .ok o)
      (get_site source alive tag) (get_site source alive' tag) := by
  intro c c' hc hc'
  have h := get_spec hc.1 (alive.sites tag) tag
  have h' := get_spec hc'.1 (alive'.sites tag) tag
  exact ⟨h.1.trans h'.1.symm, ⟨h.2, hc.2⟩, ⟨h'.2, hc'.2⟩, fun a ha => h.1.symm.trans ha⟩

theorem same_get_ip (alive alive' : Liveness) (tag : String) :
    Same source (fun o => decoded source.ips (decode_ip source.ips.file) tag = .ok o)
      (get_ip source alive tag) (get_ip source alive' tag) := by
  intro c c' hc hc'
  have h := get_spec hc.2 (alive.ips tag) tag
  have h' := get_spec hc'.2 (alive'.ips tag) tag
  exact ⟨h.1.trans h'.1.symm, ⟨hc.1, h.2⟩, ⟨hc'.1, h'.2⟩, fun a ha => h.1.symm.trans ha⟩

/-! ## What is selected -/

/-- Selected sites and networks are the decoded entries of their tags. -/
def Sound (source : Catalog) (sites : List (String × Site))
    (ips : List (String × List Ipv4.Net)) : Prop :=
  CacheOk source.sites (decode_site source.sites.file source.limits) sites ∧
    CacheOk source.ips (decode_ip source.ips.file) ips

/-- After the domain rules `rules`. -/
def SiteState (source : Catalog) (rules : List DomainRule) (st : Selection) : Prop :=
  Sound source st.sites st.ips ∧ SiteRules st.sites rules

/-- After the domain rules `sites` and the IP rules `rules`. -/
def IpState (source : Catalog) (sites : List DomainRule) (rules : List IpRule) (st : Selection) :
    Prop :=
  Sound source st.sites st.ips ∧ SiteRules st.sites sites ∧ IpRules st.ips rules

theorem same_select_site (alive alive' : Liveness) {rules : List DomainRule} {st : Selection}
    (rule : DomainRule) (h : SiteState source rules st) :
    Same source (SiteState source (rules ++ [rule])) (select_site source alive st rule)
      (select_site source alive' st rule) := by
  unfold select_site
  split
  · rename_i tag hen hm
    split
    · rename_i hs
      refine .pure ⟨h.1, h.2.concat (fun _ => id) fun t _ ht => ?_⟩
      rw [hm] at ht
      cases ht
      exact hs
    · refine Same.bind (P := fun st' => ∃ n, st' = { st with site_bytes := n })
        (.lift fun _ => charge_site_ok) ?_
      rintro _ ⟨n, rfl⟩
      refine (same_get_site alive alive' tag).bind fun o ho => .lift fun st' hst => ?_
      obtain ⟨s, n, rfl, rfl⟩ := add_site_ok hst
      refine ⟨⟨h.1.1.cons ho, h.1.2⟩, h.2.concat (fun t ht => lookup_cons_isSome (.inl ht)) ?_⟩
      intro t _ ht
      rw [hm] at ht
      cases ht
      exact lookup_cons_isSome (.inr rfl)
  · rename_i hno
    refine .pure ⟨h.1, h.2.concat (fun _ => id) fun t hen ht => ?_⟩
    exact absurd ht (hno t hen)

theorem same_select_ip (alive alive' : Liveness) {sites : List DomainRule} {rules : List IpRule}
    {st : Selection} (rule : IpRule) (h : IpState source sites rules st) :
    Same source (IpState source sites (rules ++ [rule])) (select_ip source alive st rule)
      (select_ip source alive' st rule) := by
  unfold select_ip
  split
  · rename_i tag hen hm
    have hcharge : ∀ st', IpState source sites (rules ++ [rule]) st' →
        Same source (IpState source sites (rules ++ [rule]))
          (ExceptT.mk (Pure.pure (charge_ip source st' tag)))
          (ExceptT.mk (Pure.pure (charge_ip source st' tag))) := fun st' hst =>
      .lift fun st'' h => by obtain ⟨n, rfl⟩ := charge_ip_ok h; exact hst
    refine Same.bind ?_ hcharge
    unfold ensure_ip
    split
    · rename_i hs
      refine .pure ⟨h.1, h.2.1, h.2.2.concat (fun _ => id) fun t _ ht => ?_⟩
      rw [hm] at ht
      cases ht
      exact hs
    · refine (same_get_ip alive alive' tag).bind fun o ho => .lift fun st' hst => ?_
      obtain ⟨ns, rfl, rfl⟩ := add_ip_ok hst
      refine ⟨⟨h.1.1, h.1.2.cons ho⟩, h.2.1,
        h.2.2.concat (fun t ht => lookup_cons_isSome (.inl ht)) ?_⟩
      intro t _ ht
      rw [hm] at ht
      cases ht
      exact lookup_cons_isSome (.inr rfl)
  · rename_i hno
    refine .pure ⟨h.1, h.2.1, h.2.2.concat (fun _ => id) fun t hen ht => ?_⟩
    exact absurd ht (hno t hen)

/-- What a successful selection holds. -/
structure Selected (source : Catalog) (config : RoutingConfig) (g : GeoData) : Prop where
  source_eq : g.source = some source
  sound : Sound source g.sites g.ips
  site_rules : config.mode = .rules → SiteRules g.sites config.domain_rules
  ip_rules : config.mode = .rules → IpRules g.ips config.ip_rules

/-- **A selection does not depend on the caches**, and holds the decoded entries of all tags that
enabled rules use. -/
theorem same_select {g : GeoData} (hg : g.source = some source) (alive alive' : Liveness)
    (config : RoutingConfig) :
    Same source (Selected source config) (g.select alive config) (g.select alive' config) := by
  have hnil : Sound source [] [] := ⟨.nil _ _, .nil _ _⟩
  unfold GeoData.select
  rw [hg]
  simp only
  cases hm : config.mode with
  | all => exact .pure ⟨rfl, hnil, fun h => by simp [hm] at h, fun h => by simp [hm] at h⟩
  | rules =>
    simp only
    refine (Same.foldlM (P := SiteState source)
      (fun rules rule st h => same_select_site alive alive' rule h)
      ⟨hnil, fun _ h => by cases h⟩).bind fun st hst => ?_
    refine (Same.foldlM (P := IpState source config.domain_rules)
      (fun rules rule st h => same_select_ip alive alive' rule h)
      ⟨hst.1, hst.2, fun _ h => by cases h⟩).bind fun st hst => ?_
    exact .pure ⟨rfl, hst.1, fun _ => hst.2.1, fun _ => hst.2.2⟩

end

/-! ## Matching -/

theorem getLast?_of_isPrefix {α : Type} {w l : List α} (h : w <+: l) (hpos : 0 < w.length) :
    w.getLast? = l[w.length - 1]? := by
  obtain ⟨t, rfl⟩ := h
  rw [List.getLast?_eq_getElem?, List.getElem?_append_left (by omega)]

/-- The index below the partition point is the last network that starts at or before `ip`. -/
theorem GeoData.matches_ip_iff {g : GeoData} {tag : String}
    (h : Ipv4.Net.Separated (g.ip_networks tag)) (ip : Ipv4.Addr) :
    g.matches_ip tag ip = true ↔ ∃ n ∈ g.ip_networks tag, n.contains ip = true := by
  rw [Ipv4.Net.mem_lookup h, matches_ip]
  simp only [Bool.and_eq_true, decide_eq_true_eq, Option.any_eq_true]
  by_cases hpos : 0 < ((g.ip_networks tag).takeWhile fun n => decide (n.network ≤ ip)).length
  · rw [getLast?_of_isPrefix (List.takeWhile_prefix _) hpos]
    exact and_iff_right hpos
  · have hnil := List.length_eq_zero_iff.mp (Nat.le_zero.mp (not_lt.mp hpos))
    rw [hnil]
    simp

/-- **Aggregation is exact and canonical**: the networks that are left are sorted, disjoint, without
siblings and cover the same addresses; a lookup finds an address that was covered. -/
theorem aggregate_ipv4_exact (networks : List Ipv4.Net) (h : ∀ n ∈ networks, n.trunc = n) :
    let result := aggregate_ipv4 networks
    (result.Pairwise fun m n => net_le m n = true) ∧
      (result.Pairwise fun m n => ∀ ip, ¬ (m.contains ip = true ∧ n.contains ip = true)) ∧
      (∀ m ∈ result, ∀ n ∈ result, ¬ Ipv4.Net.Siblings m n) ∧
      (∀ ip, (∃ n ∈ result, n.contains ip = true) ↔ ∃ n ∈ networks, n.contains ip = true) ∧
      ∀ (g : GeoData) (tag : String) (ip : Ipv4.Addr), g.ips.lookup tag = some result →
        (g.matches_ip tag ip = true ↔ ∃ n ∈ networks, n.contains ip = true) := by
  have hsep := aggregate_ipv4_separated h
  refine ⟨aggregate_ipv4_sorted h, hsep.disjoint, aggregate_ipv4_not_siblings h,
    contains_aggregate_ipv4 h, fun g tag ip hg => ?_⟩
  have hnets : g.ip_networks tag = aggregate_ipv4 networks := by
    rw [GeoData.ip_networks, hg, Option.getD_some]
  rw [GeoData.matches_ip_iff (hnets ▸ hsep), hnets, contains_aggregate_ipv4 h]

/-- Siblings that merge twice, and a network inside another. -/
theorem aggregate_ipv4_exact_sample :
    let networks : List Ipv4.Net := [⟨Ipv4.addr 10 0 3 0, 24, by decide⟩,
      ⟨Ipv4.addr 10 0 0 0, 23, by decide⟩, ⟨Ipv4.addr 10 0 2 0, 24, by decide⟩,
      ⟨Ipv4.addr 10 0 1 128, 25, by decide⟩]
    (GeoData.mk none [] [("ru", aggregate_ipv4 networks)]).matches_ip "ru" (Ipv4.addr 10 0 1 7) =
      true ↔ ∃ n ∈ networks, n.contains (Ipv4.addr 10 0 1 7) = true :=
  (aggregate_ipv4_exact _ (by decide)).2.2.2.2 _ _ _ (by simp)

theorem decoded_eq_some {T : Type} {f : IndexedFile} {decode : Read T} {tag : String} {value : T}
    (h : decoded f decode tag = .ok (some value)) :
    ∃ range, f.entries.lookup tag = some range ∧ decode_entry f.file range decode = .ok value := by
  unfold decoded at h
  split at h
  · cases h
  · rename_i range hr
    refine ⟨range, hr, ?_⟩
    cases hd : decode_entry f.file range decode with
    | error e => rw [hd] at h; cases h
    | ok v => rw [hd] at h; cases h; rfl

section

variable {source : Catalog} {geosite geoip : File} {g : GeoData} {tag : String}

theorem matches_site_spec [RegexEngine] (hopen : IndexedFile.open geosite false = .ok source.sites)
    (hg : CacheOk source.sites (decode_site source.sites.file source.limits) g.sites)
    (htag : (g.sites.lookup tag).isSome = true) (domain : String) :
    g.matches_site tag domain = true ↔ ∃ e, lastEntry false geosite.bytes tag = some e ∧
      e.matchesSite source.limits domain = true := by
  obtain ⟨site, hs⟩ := Option.isSome_iff_exists.mp htag
  obtain ⟨range, hr, hd⟩ := decoded_eq_some (hg tag site hs)
  obtain ⟨hfile, hsome, -⟩ := open_spec hopen tag
  obtain ⟨hv, hlast⟩ := hsome range hr
  rw [hfile] at hd
  rw [GeoData.matches_site, hs, Option.any_some, Site.matches_iff (decode_site_spec hv hd), hlast]
  simp [Entry.matchesSite]

theorem ip_networks_spec (hopen : IndexedFile.open geoip true = .ok source.ips)
    (hg : CacheOk source.ips (decode_ip source.ips.file) g.ips)
    (htag : (g.ips.lookup tag).isSome = true) :
    ∃ e, lastEntry true geoip.bytes tag = some e ∧
      g.ip_networks tag = aggregate_ipv4 (e.networks.map Ipv4.Net.trunc) := by
  obtain ⟨networks, hs⟩ := Option.isSome_iff_exists.mp htag
  obtain ⟨range, hr, hd⟩ := decoded_eq_some (hg tag networks hs)
  obtain ⟨hfile, hsome, -⟩ := open_spec hopen tag
  obtain ⟨hv, hlast⟩ := hsome range hr
  rw [hfile] at hd
  refine ⟨_, hlast, ?_⟩
  rw [GeoData.ip_networks, hs, Option.getD_some, decode_ip_spec hv hd]

theorem trunc_of_mem_map {ns : List Ipv4.Net} : ∀ n ∈ ns.map Ipv4.Net.trunc, n.trunc = n := by
  intro n hn
  obtain ⟨m, -, rfl⟩ := List.mem_map.mp hn
  exact Ipv4.Net.trunc_trunc m

/-- The networks of an entry, merged, contain the addresses that the entry matches. -/
theorem contains_aggregate_entry (e : Entry) (ip : Ipv4.Addr) :
    (∃ n ∈ aggregate_ipv4 (e.networks.map Ipv4.Net.trunc), n.contains ip = true) ↔
      e.matchesIp ip = true := by
  rw [contains_aggregate_ipv4 trunc_of_mem_map]
  simp [Entry.matchesIp]

theorem matches_ip_spec (hopen : IndexedFile.open geoip true = .ok source.ips)
    (hg : CacheOk source.ips (decode_ip source.ips.file) g.ips)
    (htag : (g.ips.lookup tag).isSome = true) (ip : Ipv4.Addr) :
    g.matches_ip tag ip = true ↔ ∃ e, lastEntry true geoip.bytes tag = some e ∧
      e.matchesIp ip = true := by
  obtain ⟨e, hlast, hnet⟩ := ip_networks_spec hopen hg htag
  have hsep : Ipv4.Net.Separated (g.ip_networks tag) :=
    hnet ▸ aggregate_ipv4_separated trunc_of_mem_map
  rw [GeoData.matches_ip_iff hsep, hnet, contains_aggregate_entry, hlast]
  simp

theorem ip_networks_of_lookup_eq_none (h : g.ips.lookup tag = none) : g.ip_networks tag = [] := by
  rw [GeoData.ip_networks, h, Option.getD_none]

theorem load_spec {limits : ResourceLimits}
    (h : GeoData.load_with_limits geosite geoip limits = .ok g) :
    ∃ source, g = { GeoData.empty with source := some source } ∧ source.limits = limits ∧
      IndexedFile.open geosite false = .ok source.sites ∧
      IndexedFile.open geoip true = .ok source.ips := by
  unfold GeoData.load_with_limits at h
  cases hs : IndexedFile.open geosite false with
  | error e => rw [hs] at h; cases h
  | ok sites =>
    cases hi : IndexedFile.open geoip true with
    | error e => rw [hs, hi] at h; cases h
    | ok ips =>
      rw [hs, hi] at h
      cases h
      exact ⟨_, rfl, rfl, rfl, rfl⟩

variable [RegexEngine]

/-- The caches after a history of selections. -/
def run_selects (g : GeoData) (history : List (Liveness × RoutingConfig)) : Caches :=
  history.foldl (fun caches h => (g.select h.1 h.2 caches).2) .empty

/-- **Every history of selections leaves good caches.** -/
theorem cachesOk_run_selects (hg : g.source = some source)
    (history : List (Liveness × RoutingConfig)) : CachesOk source (run_selects g history) := by
  unfold run_selects
  generalize hc : Caches.empty = caches
  have hok : CachesOk source caches := hc ▸ .empty source
  clear hc
  induction history generalizing caches with
  | nil => exact hok
  | cons h history ih => exact ih _ (same_select hg h.1 h.1 h.2 _ _ hok hok).2.1

/-- **Geodata decoding is faithful**: for every opened pair of catalogs, every history of selections
and every successful selection in rules mode, the tags of enabled rules match exactly what the last
entry with that tag says. -/
theorem select_faithful {limits : ResourceLimits}
    (hload : GeoData.load_with_limits geosite geoip limits = .ok g)
    (history : List (Liveness × RoutingConfig)) (alive : Liveness) {config : RoutingConfig}
    (hmode : config.mode = .rules) {s : GeoData}
    (hsel : (g.select alive config (run_selects g history)).1 = .ok s) :
    (∀ rule ∈ config.domain_rules, ∀ tag, rule.enabled = true → rule.matcher = .geoSite tag →
      ∀ domain, s.matches_site tag domain = true ↔
        ∃ e, lastEntry false geosite.bytes tag = some e ∧ e.matchesSite limits domain = true) ∧
    (∀ rule ∈ config.ip_rules, ∀ tag, rule.enabled = true → rule.matcher = .geoIp tag →
      ∀ ip, s.matches_ip tag ip = true ↔
        ∃ e, lastEntry true geoip.bytes tag = some e ∧ e.matchesIp ip = true) := by
  obtain ⟨source, rfl, rfl, hsites, hips⟩ := load_spec hload
  have hok := cachesOk_run_selects (g := { GeoData.empty with source := some source }) rfl history
  have hs := (same_select rfl alive alive config _ _ hok hok).2.2.2 s hsel
  exact ⟨fun rule hr tag he hm domain =>
      matches_site_spec hsites hs.sound.1 (hs.site_rules hmode rule hr tag he hm) domain,
    fun rule hr tag he hm ip =>
      matches_ip_spec hips hs.sound.2 (hs.ip_rules hmode rule hr tag he hm) ip⟩

end

/-! ### A catalog with one site -/

/-- Tag `a` with the full domain `b`. -/
def sampleSites : File := ⟨[0x0a, 10, 0x0a, 1, 0x61, 0x12, 5, 8, 3, 0x12, 1, 0x62], by decide⟩

/-- Tag `r` with the network `1.2.3.0/24`. -/
def sampleIps : File :=
  ⟨[0x0a, 13, 0x0a, 1, 0x72, 0x12, 8, 0x0a, 4, 1, 2, 3, 0, 0x10, 24], by decide⟩

def sampleCatalog : Catalog where
  sites := ⟨sampleSites, [("a", ⟨2, 10⟩)]⟩
  ips := ⟨sampleIps, [("r", ⟨2, 13⟩)]⟩
  limits := ⟨8192, 524288, 8, 131072, 16384, 16384⟩

def sampleConfig : RoutingConfig :=
  ⟨[⟨"site", true, .geoSite "a", .vpn⟩], [], .direct, .rules, none⟩

/-- `select_faithful` on these files, after an earlier selection with the same rules. -/
theorem select_faithful_sample :
    letI : RegexEngine := ⟨fun _ => true, fun _ _ => false⟩
    (GeoData.matches_site ⟨some sampleCatalog, [("a", ⟨["b"], [], [], []⟩)], []⟩ "a" "b" = true ↔
      ∃ e, lastEntry false sampleSites.bytes "a" = some e ∧
        e.matchesSite sampleCatalog.limits "b" = true) :=
  letI : RegexEngine := ⟨fun _ => true, fun _ _ => false⟩
  (@select_faithful sampleSites sampleIps { GeoData.empty with source := some sampleCatalog } _
    sampleCatalog.limits (by decide +kernel) [(⟨fun _ => true, fun _ => true⟩, sampleConfig)]
    ⟨fun _ => true, fun _ => false⟩ sampleConfig rfl
    ⟨some sampleCatalog, [("a", ⟨["b"], [], [], []⟩)], []⟩ (by decide +kernel)).1
    ⟨"site", true, .geoSite "a", .vpn⟩ (List.mem_singleton.mpr rfl) "a" rfl rfl "b"

end Gofro.Agent.Geodata
