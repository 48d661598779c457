import GofroRouter.Agent.Routing

/-!
# The normal form of a routing configuration

What `normalize_routing` returns, it accepts again and leaves as it is.

* `normalize_rule_name_fixed`, `normalize_tag_fixed`, `normalize_cidr_fixed`,
  `normalize_domain_fixed`: the four kinds of text; **`normalize_routing_fixed`**.
* `mem_rule_refs`: an order that names as many rules as there are, none twice and none missing,
  names each.
* **`normalize_routing_normal`**: with the networks of the CIDR rules, none of which has a fake
  address. The networks of a GeoIP tag can have one (`geo_ip_matches_fake`).
-/

namespace Gofro.Agent

open Text
open Geodata (RegexEngine)

/-! ## Texts -/

theorem normalize_server_name_fixed {name name' : String}
    (h : normalize_server_name name = .ok name') : normalize_server_name name' = .ok name' := by
  simp only [normalize_server_name, bind_eq_ok] at h ⊢
  obtain ⟨u, hv, he⟩ := h
  cases he
  rw [trim_trim]
  exact ⟨u, hv, rfl⟩

theorem normalize_rule_name_fixed {name name' : String}
    (h : normalize_rule_name name = .ok name') : normalize_rule_name name' = .ok name' := by
  simp only [normalize_rule_name, bind_eq_ok] at h ⊢
  obtain ⟨u, hv, he⟩ := h
  cases he
  rw [trim_trim]
  exact ⟨u, hv, rfl⟩

theorem normalize_tag_eq_ok {value value' : String} (h : normalize_tag value = .ok value') :
    value' = to_ascii_lowercase (trim value) ∧ value'.toList ≠ [] ∧ len value' ≤ 64 ∧
      ∀ c ∈ value'.toList, is_ascii_alphanumeric c = true ∨ c = '!' ∨ c = '-' ∨ c = '_' := by
  simp only [normalize_tag, bind_eq_ok, bail_if_eq_ok, Bool.or_eq_false_iff,
    decide_eq_false_iff_not, Bool.not_eq_false', List.all_eq_true, Bool.or_eq_true,
    decide_eq_true_eq, not_lt] at h
  obtain ⟨-, ⟨⟨hne, hlen⟩, hall⟩, he⟩ := h
  obtain rfl : to_ascii_lowercase (trim value) = value' := Except.ok.inj he
  exact ⟨rfl, hne, hlen, fun c hc => by simpa only [or_assoc] using hall c hc⟩

theorem normalize_tag_fixed {value value' : String} (h : normalize_tag value = .ok value') :
    normalize_tag value' = .ok value' := by
  obtain ⟨he, -, -, hall⟩ := normalize_tag_eq_ok h
  have htrim : trim value' = value' := trim_of_not_whitespace fun c hc => by
    rcases hall c hc with hc | rfl | rfl | rfl
    · exact not_whitespace_of_alphanumeric hc
    all_goals decide
  have hlower : to_ascii_lowercase value' = to_ascii_lowercase (trim value) := by
    rw [he, to_ascii_lowercase_idem]
  unfold normalize_tag at h ⊢
  rw [htrim, hlower]
  exact h

theorem normalize_cidr_fixed {value value' : String} (h : normalize_cidr value = .ok value') :
    normalize_cidr value' = .ok value' := by
  unfold normalize_cidr at h
  split at h
  · rename_i network hn
    simp only [bind_eq_ok, bail_if_eq_ok] at h
    obtain ⟨u, hb, he⟩ := h
    cases he
    simp only [normalize_cidr, Ipv4.Net.ofString?_toString, Ipv4.Net.trunc_contains,
      Ipv4.Net.trunc_network, Ipv4.Net.trunc_trunc, hb]
    rfl
  · cases h

/-! ## Domains -/

/-- What `normalize_domain` accepts of the ASCII form. -/
def AcceptedDomain (ascii : String) : Prop :=
  ascii.toList ≠ [] ∧ len ascii ≤ 253 ∧ ∀ label ∈ split '.' ascii, bad_label label = false

/-- The documented behaviour of the domain functions. -/
structure Idna.Standard [Idna] : Prop where
  /-- Of ASCII characters, lower case changes the capital letters only. -/
  to_lowercase_ascii : ∀ s : String, (∀ c ∈ s.toList, c.toNat < 128) →
    Idna.to_lowercase s = to_ascii_lowercase s
  /-- Capital letters are mapped. -/
  lowercase : ∀ s ascii, Idna.domain_to_ascii s = some ascii → AcceptedDomain ascii →
    to_ascii_lowercase ascii = ascii
  /-- The ASCII form of an accepted domain is its own. -/
  idempotent : ∀ s ascii, Idna.domain_to_ascii s = some ascii → AcceptedDomain ascii →
    Idna.domain_to_ascii ascii = some ascii

theorem normalize_domain_eq_ok [Idna] {value ascii : String} :
    normalize_domain value = .ok ascii ↔
      Idna.domain_to_ascii (Idna.to_lowercase (trim_end_matches '.' (trim value))) = some ascii ∧
        AcceptedDomain ascii := by
  unfold normalize_domain
  dsimp only
  cases Idna.domain_to_ascii (Idna.to_lowercase (trim_end_matches '.' (trim value))) with
  | none => simp
  | some a =>
    simp only [Option.some.injEq, bind_eq_ok, bail_if_eq_ok, Bool.or_eq_false_iff,
      decide_eq_false_iff_not, List.any_eq_false, not_lt, Bool.not_eq_true, AcceptedDomain]
    constructor
    · rintro ⟨-, ⟨⟨hne, hlen⟩, hall⟩, he⟩
      obtain rfl : a = ascii := Except.ok.inj he
      exact ⟨rfl, hne, hlen, hall⟩
    · rintro ⟨rfl, hne, hlen, hall⟩
      exact ⟨(), ⟨⟨hne, hlen⟩, hall⟩, rfl⟩

theorem AcceptedDomain.char {ascii : String} (h : AcceptedDomain ascii) {c : Char}
    (hc : c ∈ ascii.toList) : is_ascii_alphanumeric c = true ∨ c = '-' ∨ c = '.' := by
  rcases mem_splitOn '.' hc with rfl | ⟨label, hl, hm⟩
  · exact .inr (.inr rfl)
  · have hb := h.2.2 label hl
    simp only [bad_label, Bool.or_eq_false_iff, Bool.not_eq_false', List.all_eq_true,
      Bool.or_eq_true, decide_eq_true_eq] at hb
    exact (hb.2 c hm).imp_right .inl

theorem AcceptedDomain.trim_end_matches {ascii : String} (h : AcceptedDomain ascii) :
    trim_end_matches '.' ascii = ascii := by
  have hlast : ∀ c ∈ ascii.toList.getLast?, (c == '.') = false := by
    intro c hc
    rw [beq_eq_false_iff_ne]
    rintro rfl
    obtain ⟨cs, hcs⟩ := List.getLast?_eq_some_iff.mp hc
    have hnil : [] ∈ split '.' ascii := by
      rw [split, hcs, List.splitOn_append_cons_self, List.splitOn_nil]
      simp
    simpa [bad_label] using h.2.2 [] hnil
  rw [Text.trim_end_matches, trimEnd_eq_self.mpr hlast, String.ofList_toList]

theorem normalize_domain_fixed [Idna] (hidna : Idna.Standard) {value ascii : String}
    (h : normalize_domain value = .ok ascii) : normalize_domain ascii = .ok ascii := by
  obtain ⟨hd, ha⟩ := normalize_domain_eq_ok.mp h
  have htrim : trim ascii = ascii := trim_of_not_whitespace fun c hc => by
    rcases ha.char hc with hc | rfl | rfl
    · exact not_whitespace_of_alphanumeric hc
    all_goals decide
  have hlower : Idna.to_lowercase ascii = ascii := by
    rw [hidna.to_lowercase_ascii ascii fun c hc => ?_, hidna.lowercase _ _ hd ha]
    rcases ha.char hc with hc | rfl | rfl
    · exact ascii_of_alphanumeric hc
    all_goals decide
  rw [normalize_domain_eq_ok, htrim, ha.trim_end_matches, hlower]
  exact ⟨hidna.idempotent _ _ hd ha, ha⟩

/-! ## Rules -/

theorem normalize_domain_rule_fixed [Idna] (hidna : Idna.Standard) {rule rule' : DomainRule}
    (h : normalize_domain_rule rule = .ok rule') : normalize_domain_rule rule' = .ok rule' := by
  simp only [normalize_domain_rule, bind_eq_ok] at h ⊢
  obtain ⟨name, hn, matcher, hm, he⟩ := h
  cases he
  refine ⟨name, normalize_rule_name_fixed hn, matcher, ?_, rfl⟩
  revert hm
  cases rule.matcher <;> simp only [normalize_domain_match, bind_eq_ok] <;>
    rintro ⟨value, hv, he⟩ <;> cases he <;> simp only
  · rw [normalize_domain_fixed hidna hv]; rfl
  · rw [normalize_domain_fixed hidna hv]; rfl
  · rw [normalize_tag_fixed hv]; rfl

theorem normalize_ip_rule_fixed {rule rule' : IpRule} (h : normalize_ip_rule rule = .ok rule') :
    normalize_ip_rule rule' = .ok rule' := by
  simp only [normalize_ip_rule, bind_eq_ok] at h ⊢
  obtain ⟨name, hn, matcher, hm, he⟩ := h
  cases he
  refine ⟨name, normalize_rule_name_fixed hn, matcher, ?_, rfl⟩
  revert hm
  cases rule.matcher <;> simp only [normalize_ip_match, bind_eq_ok] <;>
    rintro ⟨value, hv, he⟩ <;> cases he <;> simp only
  · rw [normalize_cidr_fixed hv]; rfl
  · rw [normalize_tag_fixed hv]; rfl

theorem mapM_self {α : Type} {f : α → Except String α} {l l' : List α}
    (h : List.Forall₂ (fun a b => f a = .ok b) l l') (hf : ∀ a b, f a = .ok b → f b = .ok b) :
    l'.mapM f = .ok l' := by
  rw [mapM_eq_ok, List.forall₂_same]
  intro b hb
  induction h with
  | nil => nomatch hb
  | cons hab _ ih =>
    rcases List.mem_cons.mp hb with rfl | hb
    · exact hf _ _ hab
    · exact ih hb

theorem normalize_routing_self [Idna] {routing : RoutingConfig}
    (hd : routing.domain_rules.length ≤ MAX_RULES) (hi : routing.ip_rules.length ≤ MAX_RULES)
    (ho : routing.Ordered)
    (hdom : routing.domain_rules.mapM normalize_domain_rule = .ok routing.domain_rules)
    (hip : routing.ip_rules.mapM normalize_ip_rule = .ok routing.ip_rules) :
    normalize_routing routing = .ok routing := by
  have hlen : (decide (MAX_RULES < routing.domain_rules.length) ||
      decide (MAX_RULES < routing.ip_rules.length)) = false := by
    simp [hd, hi]
  simp only [normalize_routing, hlen, validate_order_eq_ok.mpr ho, hdom, hip]
  rfl

theorem normalize_routing_length [Idna] {input routing : RoutingConfig}
    (h : normalize_routing input = .ok routing) :
    routing.domain_rules.length ≤ MAX_RULES ∧ routing.ip_rules.length ≤ MAX_RULES := by
  obtain ⟨-, -, hd, hi⟩ := normalize_routing_eq_ok h
  simp only [normalize_routing, bind_eq_ok, bail_if_eq_ok, Bool.or_eq_false_iff,
    decide_eq_false_iff_not, not_lt] at h
  obtain ⟨_, ⟨hdl, hil⟩, -⟩ := h
  rw [← hd.length_eq, ← hi.length_eq]
  exact ⟨hdl, hil⟩

/-- **Normalizing twice is normalizing once.** -/
theorem normalize_routing_fixed [Idna] (hidna : Idna.Standard) {input routing : RoutingConfig}
    (h : normalize_routing input = .ok routing) : normalize_routing routing = .ok routing := by
  obtain ⟨-, -, hd, hi⟩ := normalize_routing_eq_ok h
  obtain ⟨hdl, hil⟩ := normalize_routing_length h
  apply normalize_routing_self hdl hil (Normalized.ordered ⟨input, h⟩)
  · exact mapM_self hd fun _ _ => normalize_domain_rule_fixed hidna
  · exact mapM_self hi fun _ _ => normalize_ip_rule_fixed

/-! ## The order of evaluation -/

/-- A reference to a rule that there is. -/
def RoutingConfig.Names (config : RoutingConfig) : RuleRef → Prop
  | .domain index => index < config.domain_rules.length
  | .ip index => index < config.ip_rules.length

/-- Every reference, the domain rules first. -/
def RoutingConfig.all_refs (config : RoutingConfig) : List RuleRef :=
  (List.range config.domain_rules.length).map .domain ++
    (List.range config.ip_rules.length).map .ip

theorem RoutingConfig.mem_all_refs {config : RoutingConfig} {r : RuleRef} :
    r ∈ config.all_refs ↔ config.Names r := by
  cases r <;> simp [all_refs, Names]

/-- As many references as there are rules, none of them twice: a permutation of all. -/
theorem RoutingConfig.Ordered.perm {config : RoutingConfig} (h : config.Ordered)
    {order : List RuleRef} (ho : config.rule_order = some order) :
    order.Perm config.all_refs := by
  obtain ⟨hlen, hnodup, hmem⟩ := h order ho
  have hsub : order ⊆ config.all_refs := by
    intro r hr
    rw [mem_all_refs]
    have := hmem r hr
    cases r <;> exact this
  apply (List.subperm_of_subset hnodup hsub).perm_of_length_le
  simp [all_refs, hlen]

/-- **Every rule has its place in the order.** -/
theorem RoutingPolicy.mem_rule_refs {p : RoutingPolicy} (h : p.config.Ordered) {r : RuleRef} :
    r ∈ p.rule_refs ↔ p.config.Names r := by
  rw [← RoutingConfig.mem_all_refs, rule_refs]
  cases ho : p.config.rule_order with
  | some order => exact (h.perm ho).mem_iff
  | none => rfl

/-! ## Fake addresses -/

theorem Normalized.cidr_not_fake [Idna] {routing : RoutingConfig} (h : Normalized routing)
    {rule : IpRule} (hr : rule ∈ routing.ip_rules) {value : String}
    (hm : rule.matcher = .cidr value) :
    ∃ n : Ipv4Net, Ipv4.Net.ofString? value = some n ∧
      ∀ ip, FAKE_DNS.contains ip = true → n.contains ip = false := by
  obtain ⟨n, hn, -, h₁, h₂⟩ := h.cidr hr hm
  refine ⟨n, hn, fun ip hip => ?_⟩
  rw [← Bool.not_eq_true]
  exact fun hc => Ipv4.Net.disjoint_of_not_contains h₁ h₂ ip ⟨hc, hip⟩

/-- **Normal form.** What `normalize_routing` returns it accepts again, unchanged; the order of
evaluation has every rule of either kind once and nothing else; and under no policy compiled from
it does a CIDR rule match a fake address. -/
theorem normalize_routing_normal [RegexEngine] [Idna] (hidna : Idna.Standard)
    {input routing : RoutingConfig} (h : normalize_routing input = .ok routing) :
    normalize_routing routing = .ok routing ∧
      (∀ p : RoutingPolicy, p.config = routing →
        p.rule_refs.Nodup ∧ ∀ r, r ∈ p.rule_refs ↔ routing.Names r) ∧
      (∀ rule ∈ routing.ip_rules, ∀ value, rule.matcher = .cidr value →
        ∃ n : Ipv4Net, Ipv4.Net.ofString? value = some n ∧
          ∀ ip, FAKE_DNS.contains ip = true → n.contains ip = false) ∧
      ∀ g alive caches p, (RoutingPolicy.compile g alive routing caches).1 = .ok p →
        ∀ index rule value, routing.ip_rules[index]? = some rule → rule.matcher = .cidr value →
          ∀ ip, FAKE_DNS.contains ip = true → p.matches_ip index ip = false := by
  have hn : Normalized routing := ⟨input, h⟩
  refine ⟨normalize_routing_fixed hidna h, ?_, fun _ hr _ hm => hn.cidr_not_fake hr hm, ?_⟩
  · rintro p rfl
    exact ⟨RoutingPolicy.rule_refs_nodup hn.ordered,
      fun _ => RoutingPolicy.mem_rule_refs hn.ordered⟩
  · intro g alive caches p hp index rule value hr hm ip hip
    obtain ⟨-, hc, hi⟩ := RoutingPolicy.compile_spec hp
    obtain ⟨n, hv, hfake⟩ := hn.cidr_not_fake (List.mem_of_getElem? hr) hm
    have hnet : p.ip_rules[index]? = some (some n) := by
      rw [hi, List.getElem?_map, hr, Option.map_some]
      simp only [RoutingPolicy.network, hm, hv]
    simp [RoutingPolicy.matches_ip, hc, hr, hm, hnet, hfake ip hip]

/-! ### A configuration with one rule of each kind -/

/-- Domain functions for ASCII. -/
@[reducible] def asciiIdna : Idna := ⟨to_ascii_lowercase, fun s => some (to_ascii_lowercase s)⟩

theorem asciiIdna_standard : @Idna.Standard asciiIdna := by
  let := asciiIdna
  refine ⟨fun _ _ => rfl, ?_, ?_⟩
  · rintro s ascii hs -
    cases hs
    exact to_ascii_lowercase_idem s
  · rintro s ascii hs -
    cases hs
    exact congrArg some (to_ascii_lowercase_idem s)

/-- A configuration as the user may write it. -/
def sampleDraft : RoutingConfig :=
  ⟨[⟨" site ", true, .suffix " Example.ORG. ", .vpn⟩], [⟨"net", false, .cidr "10.1.2.3/8", .block⟩],
    .direct, .rules, some [.ip 0, .domain 0]⟩

/-- The same one as it is saved. -/
def sampleSaved : RoutingConfig :=
  ⟨[⟨"site", true, .suffix "example.org", .vpn⟩], [⟨"net", false, .cidr "10.0.0.0/8", .block⟩],
    .direct, .rules, some [.ip 0, .domain 0]⟩

/-- `normalize_routing_normal` on it. -/
theorem normalize_routing_normal_sample :
    letI := asciiIdna
    normalize_routing sampleSaved = .ok sampleSaved :=
  (@normalize_routing_normal ⟨fun _ => true, fun _ _ => false⟩ asciiIdna asciiIdna_standard
    sampleDraft sampleSaved (by decide +kernel)).1

/-! ### A catalog with a fake address -/

/-- Tag `p` with the network `198.18.0.0/15`. -/
def fakeIps : Geodata.File :=
  ⟨[0x0a, 13, 0x0a, 1, 0x70, 0x12, 8, 0x0a, 4, 198, 18, 0, 0, 0x10, 15], by decide⟩

/-- A catalog with a fake address in a list of networks. -/
def fakeCatalog : Geodata.Catalog :=
  { Geodata.sampleCatalog with ips := ⟨fakeIps, [("p", ⟨2, 13⟩)]⟩ }

def fakeConfig : RoutingConfig :=
  ⟨[], [⟨"net", true, .geoIp "p", .block⟩], .direct, .rules, none⟩

def fakePolicy : RoutingPolicy :=
  ⟨fakeConfig, ⟨some fakeCatalog, [], [("p", [FAKE_DNS])]⟩, [none]⟩

/-- An IP rule that matches a fake address. -/
theorem geo_ip_matches_fake :
    letI : RegexEngine := ⟨fun _ => true, fun _ _ => false⟩
    letI := asciiIdna
    ¬ ∀ p : RoutingPolicy, p.Compiled →
      ∀ index ip, FAKE_DNS.contains ip = true → p.matches_ip index ip = false := by
  intro h
  let : RegexEngine := ⟨fun _ => true, fun _ _ => false⟩
  let : Idna := asciiIdna
  have hcompiled : fakePolicy.Compiled :=
    ⟨{ Geodata.GeoData.empty with source := some fakeCatalog },
      ⟨fun _ => true, fun _ => true⟩, fakeConfig, .empty,
      @RoutingPolicy.Loaded.load Geodata.sampleSites fakeIps fakeCatalog.limits _ (by decide +kernel), .empty _, ⟨fakeConfig, by decide +kernel⟩, by decide +kernel⟩
  have hmatch : fakePolicy.matches_ip 0 FIRST_FAKE = true := by decide +kernel
  rw [h fakePolicy hcompiled 0 FIRST_FAKE (by decide +kernel)] at hmatch
  cases hmatch

end Gofro.Agent
