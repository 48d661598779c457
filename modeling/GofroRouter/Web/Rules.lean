import GofroRouter.Agent.NormalForm
import GofroRouter.Lib.Utf8

/-!
# The rule editor of the web panel

`routing-rules.ts`: one flat list of drafts is made from a routing configuration, reordered, and
packed into one again. The saved configuration is the agent's `RoutingConfig`.

* `Rule`: a rule of either kind; `RoutingConfig.evaluated`: the rules in the order of evaluation.
* `cloneRules_rules`, `packRules_evaluated`: the two directions, each as a map of the rules.
* `packRules_fixed`: what is packed from the rules of a saved configuration is a saved one, if
  trimming changes no name.
* **`rules_preserved`**: it does not, unless a name begins or ends with a byte-order mark.
-/

namespace Gofro.Web

open Text
open Agent
open Utf8 (BOM)

/-! ## Drafts -/

/-- The white space and line ends of ECMAScript. -/
def js_space (n : ℕ) : Bool :=
  (9 ≤ n && n ≤ 13) || n = 0x20 || n = 0xa0 || n = 0x1680 || (0x2000 ≤ n && n ≤ 0x200a) ||
    n = 0x2028 || n = 0x2029 || n = 0x202f || n = 0x205f || n = 0x3000 || n = 0xfeff

def js_whitespace (c : Char) : Bool := js_space c.toNat

/-- `String.prototype.trim` -/
def js_trim (s : String) : String := String.ofList (trim_matches js_whitespace s.toList)

/-- The kinds of domain rules in the editor. -/
inductive DomainType | exact | suffix | geo_site
deriving DecidableEq

inductive IpType | cidr | geo_ip
deriving DecidableEq

/-- The kind of a rule, with the type of its matcher. -/
inductive Kind
  | domain (matcher : DomainType)
  | ip (matcher : IpType)
deriving DecidableEq

/-- A rule as it is edited. -/
structure DraftRule where
  key : String
  kind : Kind
  name : String
  value : String
  target : RouteTarget
  enabled : Bool
deriving DecidableEq

/-- The type and the value of a matcher. -/
def domain_type : DomainMatch → DomainType × String
  | .exact value => (.exact, value)
  | .suffix value => (.suffix, value)
  | .geoSite value => (.geo_site, value)

/-- The matcher that a draft stands for. -/
def domain_matcher : DomainType → String → DomainMatch
  | .exact, value => .exact value
  | .suffix, value => .suffix value
  | .geo_site, value => .geoSite value

/-- A matcher as it is edited. -/
def ip_type : IpMatch → IpType × String
  | .cidr value => (.cidr, value)
  | .geoIp value => (.geo_ip, value)

def ip_matcher : IpType → String → IpMatch
  | .cidr, value => .cidr value
  | .geo_ip, value => .geoIp value

/-- A domain rule as a draft. -/
def cloneDomain (key : String) (rule : DomainRule) : DraftRule :=
  ⟨key, .domain (domain_type rule.matcher).1, rule.name, (domain_type rule.matcher).2, rule.target,
    rule.enabled⟩

def cloneIp (key : String) (rule : IpRule) : DraftRule :=
  ⟨key, .ip (ip_type rule.matcher).1, rule.name, (ip_type rule.matcher).2, rule.target,
    rule.enabled⟩

/-- `createKey i` is the key of call `i`. -/
def cloneRules (config : RoutingConfig) (createKey : ℕ → String) : List DraftRule :=
  let domains := config.domain_rules.zipIdx.map fun (rule, index) =>
    cloneDomain (createKey index) rule
  let ips := config.ip_rules.zipIdx.map fun (rule, index) =>
    cloneIp (createKey (config.domain_rules.length + index)) rule
  let order := config.rule_order.getD
    ((List.range domains.length).map .domain ++ (List.range ips.length).map .ip)
  order.filterMap fun
    | .domain index => domains[index]?
    | .ip index => ips[index]?

/-- The arrays that `packRules` fills. -/
structure Packed where
  domain_rules : List DomainRule
  ip_rules : List IpRule
  rule_order : List RuleRef

/-- One round of the loop over the drafts. -/
def Packed.push (packed : Packed) (rule : DraftRule) : Packed :=
  match rule.kind with
  | .domain matcher =>
    { packed with
      rule_order := packed.rule_order ++ [.domain packed.domain_rules.length]
      domain_rules := packed.domain_rules ++ [⟨js_trim rule.name, rule.enabled,
        domain_matcher matcher (js_trim rule.value), rule.target⟩] }
  | .ip matcher =>
    { packed with
      rule_order := packed.rule_order ++ [.ip packed.ip_rules.length]
      ip_rules := packed.ip_rules ++ [⟨js_trim rule.name, rule.enabled,
        ip_matcher matcher (js_trim rule.value), rule.target⟩] }

/-- What is saved of the drafts, in their order. -/
def packRules (mode : RoutingMode) (defaultTarget : RouteTarget) (draft : List DraftRule) :
    RoutingConfig :=
  let packed := draft.foldl Packed.push ⟨[], [], []⟩
  ⟨packed.domain_rules, packed.ip_rules, defaultTarget, mode, some packed.rule_order⟩

/-- One draft gets the place of another. -/
def reorderRules (rules : List DraftRule) (source target : ℤ) : List DraftRule :=
  if source = target ∨ source < 0 ∨ target < 0 ∨ rules.length ≤ source ∨ rules.length ≤ target then
    rules
  else match rules[source.toNat]? with
    | none => rules
    | some rule => (rules.eraseIdx source.toNat).insertIdx target.toNat rule

/-! ## Rules in the order of evaluation -/

/-- A rule of either kind. -/
inductive Rule
  | domain (rule : DomainRule)
  | ip (rule : IpRule)
deriving DecidableEq

def Rule.name : Rule → String
  | .domain rule => rule.name
  | .ip rule => rule.name

/-- With name and value as `packRules` saves them. -/
def Rule.trimmed : Rule → Rule
  | .domain rule => .domain { rule with
      name := js_trim rule.name
      matcher := domain_matcher (domain_type rule.matcher).1 (js_trim (domain_type rule.matcher).2) }
  | .ip rule => .ip { rule with
      name := js_trim rule.name
      matcher := ip_matcher (ip_type rule.matcher).1 (js_trim (ip_type rule.matcher).2) }

/-- The rule of a draft, without its key. -/
def DraftRule.rule (draft : DraftRule) : Rule :=
  match draft.kind with
  | .domain matcher =>
    .domain ⟨draft.name, draft.enabled, domain_matcher matcher draft.value, draft.target⟩
  | .ip matcher => .ip ⟨draft.name, draft.enabled, ip_matcher matcher draft.value, draft.target⟩

/-- The rule under a reference. -/
def rule_at (domain_rules : List DomainRule) (ip_rules : List IpRule) : RuleRef → Option Rule
  | .domain index => domain_rules[index]?.map .domain
  | .ip index => ip_rules[index]?.map .ip

/-- The rules in the order in which the agent evaluates them. -/
def evaluated (config : RoutingConfig) : List Rule :=
  (config.rule_order.getD config.all_refs).filterMap (rule_at config.domain_rules config.ip_rules)

/-- The order is the one of the agent's policy. -/
theorem rule_refs_eq (p : RoutingPolicy) :
    p.rule_refs = p.config.rule_order.getD p.config.all_refs := by
  rw [RoutingPolicy.rule_refs]
  cases p.config.rule_order <;> rfl

theorem domain_matcher_type (matcher : DomainMatch) :
    domain_matcher (domain_type matcher).1 (domain_type matcher).2 = matcher := by
  cases matcher <;> rfl

theorem ip_matcher_type (matcher : IpMatch) :
    ip_matcher (ip_type matcher).1 (ip_type matcher).2 = matcher := by
  cases matcher <;> rfl

@[simp] theorem domain_type_matcher (type : DomainType) (value : String) :
    domain_type (domain_matcher type value) = (type, value) := by
  cases type <;> rfl

@[simp] theorem ip_type_matcher (type : IpType) (value : String) :
    ip_type (ip_matcher type value) = (type, value) := by
  cases type <;> rfl

@[simp] theorem cloneDomain_rule (key : String) (rule : DomainRule) :
    (cloneDomain key rule).rule = .domain rule := by
  simp only [cloneDomain, DraftRule.rule, domain_matcher_type]

@[simp] theorem cloneIp_rule (key : String) (rule : IpRule) :
    (cloneIp key rule).rule = .ip rule := by
  simp only [cloneIp, DraftRule.rule, ip_matcher_type]

/-- **Cloning** keeps the rules and their order. -/
theorem cloneRules_rules (config : RoutingConfig) (createKey : ℕ → String) :
    (cloneRules config createKey).map DraftRule.rule = evaluated config := by
  rw [cloneRules, evaluated, List.map_filterMap]
  simp only [List.length_map, List.length_zipIdx]
  apply congrArg₂ _ _ rfl
  funext r
  cases r <;> simp [rule_at, List.getElem?_zipIdx, Function.comp_def]

/-! ## Packing -/

/-- What the loop of `packRules` has made of the drafts so far. -/
structure Packed.Of (packed : Packed) (draft : List DraftRule) : Prop where
  rules : packed.rule_order.map (rule_at packed.domain_rules packed.ip_rules) =
    draft.map fun rule => some rule.rule.trimmed
  nodup : packed.rule_order.Nodup
  length : packed.rule_order.length = packed.domain_rules.length + packed.ip_rules.length
  range : ∀ r ∈ packed.rule_order, match r with
    | .domain index => index < packed.domain_rules.length
    | .ip index => index < packed.ip_rules.length

theorem Packed.Of.push {packed : Packed} {draft : List DraftRule} (h : packed.Of draft)
    (rule : DraftRule) : (packed.push rule).Of (draft ++ [rule]) := by
  -- what is pushed comes after what the old references mean
  have hfresh : ∀ r ∈ packed.rule_order, r ≠ .domain packed.domain_rules.length ∧
      r ≠ .ip packed.ip_rules.length := by
    intro r hr
    have := h.range r hr
    cases r <;> simp <;> omega
  have hold : ∀ domain_rules ip_rules, packed.rule_order.map
      (rule_at (packed.domain_rules ++ domain_rules) (packed.ip_rules ++ ip_rules)) =
        packed.rule_order.map (rule_at packed.domain_rules packed.ip_rules) := by
    intro domain_rules ip_rules
    refine List.map_congr_left fun r hr => ?_
    have := h.range r hr
    cases r with
    | domain index => rw [rule_at, rule_at, List.getElem?_append_left this]
    | ip index => rw [rule_at, rule_at, List.getElem?_append_left this]
  have hlen := h.length
  unfold Packed.push
  cases hk : rule.kind with
  | domain matcher =>
    refine ⟨?_, ?_, by simp; omega, ?_⟩
    · have := hold [⟨js_trim rule.name, rule.enabled, domain_matcher matcher (js_trim rule.value),
        rule.target⟩] []
      rw [List.append_nil] at this
      simp [this, h.rules, rule_at, DraftRule.rule, hk, Rule.trimmed]
    · exact List.nodup_append.mpr ⟨h.nodup, List.nodup_singleton _, fun r hr r' hr' =>
        List.mem_singleton.mp hr' ▸ (hfresh r hr).1⟩
    · intro r hr
      rcases List.mem_append.mp hr with hr | hr
      · have := h.range r hr
        cases r <;> simp <;> omega
      · cases List.mem_singleton.mp hr
        simp
  | ip matcher =>
    refine ⟨?_, ?_, by simp; omega, ?_⟩
    · have := hold [] [⟨js_trim rule.name, rule.enabled, ip_matcher matcher (js_trim rule.value),
        rule.target⟩]
      rw [List.append_nil] at this
      simp [this, h.rules, rule_at, DraftRule.rule, hk, Rule.trimmed]
    · exact List.nodup_append.mpr ⟨h.nodup, List.nodup_singleton _, fun r hr r' hr' =>
        List.mem_singleton.mp hr' ▸ (hfresh r hr).2⟩
    · intro r hr
      rcases List.mem_append.mp hr with hr | hr
      · have := h.range r hr
        cases r <;> simp <;> omega
      · cases List.mem_singleton.mp hr
        simp

theorem Packed.of_foldl (draft : List DraftRule) :
    (draft.foldl Packed.push ⟨[], [], []⟩).Of draft := by
  induction draft using List.reverseRecOn with
  | nil => exact ⟨rfl, List.nodup_nil, rfl, fun r hr => nomatch hr⟩
  | append_singleton draft rule ih =>
    rw [List.foldl_append]
    exact ih.push rule

section

variable (mode : RoutingMode) (defaultTarget : RouteTarget)

theorem packRules_ordered (draft : List DraftRule) :
    (packRules mode defaultTarget draft).Ordered := by
  intro order ho
  cases ho
  have h := Packed.of_foldl draft
  exact ⟨h.length, h.nodup, h.range⟩

/-- **Packing** trims the rules and keeps their order. -/
theorem packRules_evaluated (draft : List DraftRule) :
    evaluated (packRules mode defaultTarget draft) = draft.map fun rule => rule.rule.trimmed := by
  have h := congrArg (List.filterMap id) (Packed.of_foldl draft).rules
  simpa [evaluated, packRules, List.filterMap_map, Function.comp_def] using h

/-- A draft of the rule. -/
def Rule.draft : Rule → DraftRule
  | .domain rule => cloneDomain "" rule
  | .ip rule => cloneIp "" rule

theorem DraftRule.rule_draft (draft : DraftRule) :
    draft.rule.draft = { draft with key := "" } := by
  cases draft with
  | mk key kind name value target enabled =>
    cases kind <;> simp [DraftRule.rule, Rule.draft, cloneDomain, cloneIp]

theorem DraftRule.trimmed_draft (draft : DraftRule) : draft.rule.trimmed.draft =
    { draft with key := "", name := js_trim draft.name, value := js_trim draft.value } := by
  cases draft with
  | mk key kind name value target enabled =>
    cases kind <;> simp [DraftRule.rule, Rule.trimmed, Rule.draft, cloneDomain, cloneIp]

/-- **Drafts are what they were**, but for white space and keys. -/
theorem cloneRules_packRules (draft : List DraftRule) (createKey : ℕ → String) :
    (cloneRules (packRules mode defaultTarget draft) createKey).map (fun rule =>
        { rule with key := "" }) =
      draft.map fun rule =>
        { rule with key := "", name := js_trim rule.name, value := js_trim rule.value } := by
  have h := cloneRules_rules (packRules mode defaultTarget draft) createKey
  rw [packRules_evaluated] at h
  simpa [Function.comp_def, DraftRule.rule_draft, DraftRule.trimmed_draft] using
    congrArg (List.map Rule.draft) h

end

/-! ## Saved configurations -/

/-- The rules of a configuration, the domain rules first. -/
def rules (config : RoutingConfig) : List Rule :=
  config.domain_rules.map .domain ++ config.ip_rules.map .ip

theorem filterMap_getElem?_range {α β : Type} (l : List α) (f : α → β) :
    (List.range l.length).filterMap (fun index => l[index]?.map f) = l.map f := by
  have hsome : (List.range l.length).map (fun index => l[index]?.map f) = l.map (some ∘ f) :=
    List.ext_getElem (by simp) fun index _ h => by
      have hi : index < l.length := by simpa using h
      simp [hi]
  have h := congrArg (List.filterMap id) hsome
  simpa [List.filterMap_map, Function.comp_def] using h

theorem filterMap_all_refs (config : RoutingConfig) :
    config.all_refs.filterMap (rule_at config.domain_rules config.ip_rules) = rules config := by
  rw [RoutingConfig.all_refs, List.filterMap_append, List.filterMap_map, List.filterMap_map]
  exact congrArg₂ _ (filterMap_getElem?_range _ _) (filterMap_getElem?_range _ _)

theorem evaluated_perm {config : RoutingConfig} (h : config.Ordered) :
    (evaluated config).Perm (rules config) := by
  rw [← filterMap_all_refs, evaluated]
  cases ho : config.rule_order with
  | none => exact .refl _
  | some order => exact (h.perm ho).filterMap _

/-- The domain rules among rules. -/
def Rule.domain? : Rule → Option DomainRule
  | .domain rule => some rule
  | .ip _ => none

/-- An IP rule, if it is one. -/
def Rule.ip? : Rule → Option IpRule
  | .domain _ => none
  | .ip rule => some rule

theorem filterMap_rules (config : RoutingConfig) :
    (rules config).filterMap Rule.domain? = config.domain_rules ∧
      (rules config).filterMap Rule.ip? = config.ip_rules := by
  simp [rules, List.filterMap_map, Function.comp_def, Rule.domain?, Rule.ip?]

theorem normalize_routing_perm [Idna] {config packed : RoutingConfig}
    (h : normalize_routing config = .ok config) (ho : packed.Ordered)
    (hp : (rules packed).Perm (rules config)) : normalize_routing packed = .ok packed := by
  obtain ⟨-, -, hd, hi⟩ := normalize_routing_eq_ok h
  obtain ⟨hdl, hil⟩ := normalize_routing_length h
  have hpd : packed.domain_rules.Perm config.domain_rules := by
    simpa only [filterMap_rules] using hp.filterMap Rule.domain?
  have hpi : packed.ip_rules.Perm config.ip_rules := by
    simpa only [filterMap_rules] using hp.filterMap Rule.ip?
  rw [List.forall₂_same] at hd hi
  apply normalize_routing_self (hpd.length_eq ▸ hdl) (hpi.length_eq ▸ hil) ho
  · exact mapM_eq_ok.mpr (List.forall₂_same.mpr fun rule hr => hd rule (hpd.mem_iff.mp hr))
  · exact mapM_eq_ok.mpr (List.forall₂_same.mpr fun rule hr => hi rule (hpi.mem_iff.mp hr))

/-! ## Names and values -/

theorem js_trim_eq_self {s : String} : js_trim s = s ↔
    (∀ c ∈ s.toList.head?, js_whitespace c = false) ∧
      ∀ c ∈ s.toList.getLast?, js_whitespace c = false := by
  rw [← trim_matches_eq_self, js_trim]
  exact ⟨fun h => by simpa using congrArg String.toList h, fun h => by rw [h, String.ofList_toList]⟩

theorem js_trim_of_not {s : String} (h : ∀ c ∈ s.toList, js_whitespace c = false) :
    js_trim s = s := by
  rw [js_trim, trim_matches_of_not h, String.ofList_toList]

/-- A text that begins or ends with a byte-order mark, which is white space for ECMAScript but not
for Unicode. -/
def Marked (s : String) : Prop := s.toList.head? = some BOM ∨ s.toList.getLast? = some BOM

instance (s : String) : Decidable (Marked s) := inferInstanceAs (Decidable (_ ∨ _))

theorem js_whitespace_iff {c : Char} (h : is_whitespace c = false) :
    js_whitespace c = false ↔ c ≠ BOM := by
  have hbom : c = BOM ↔ c.toNat = 0xfeff :=
    ⟨fun h => h ▸ rfl, fun h => Char.ext (UInt32.toNat_inj.mp h)⟩
  rw [ne_eq, hbom]
  simp only [is_whitespace, js_whitespace, js_space, Bool.or_eq_false_iff, Bool.and_eq_false_iff,
    decide_eq_false_iff_not] at h ⊢
  omega

theorem js_trim_trimmed {name : String} (h : trim name = name) :
    js_trim name = name ↔ ¬ Marked name := by
  obtain ⟨hhead, hlast⟩ := trim_eq_self.mp h
  rw [js_trim_eq_self, Marked, not_or]
  apply and_congr
  · cases hc : name.toList.head? with
    | none => simp
    | some c => simpa using js_whitespace_iff (hhead c hc)
  · cases hc : name.toList.getLast? with
    | none => simp
    | some c => simpa using js_whitespace_iff (hlast c hc)

theorem js_trim_name {name : String} (h : normalize_rule_name name = .ok name) :
    js_trim name = name ↔ ¬ Marked name := by
  simp only [normalize_rule_name, bind_eq_ok] at h
  obtain ⟨-, -, h⟩ := h
  exact js_trim_trimmed (Except.ok.inj h)

theorem js_whitespace_of_alphanumeric {c : Char} (h : is_ascii_alphanumeric c = true) :
    js_whitespace c = false := by
  rw [is_ascii_alphanumeric_iff] at h
  simp only [js_whitespace, js_space, Bool.or_eq_false_iff, Bool.and_eq_false_iff,
    decide_eq_false_iff_not]
  omega

theorem js_trim_domain [Idna] {value : String} (h : normalize_domain value = .ok value) :
    js_trim value = value := by
  refine js_trim_of_not fun c hc => ?_
  rcases (normalize_domain_eq_ok.mp h).2.char hc with hc | rfl | rfl
  · exact js_whitespace_of_alphanumeric hc
  all_goals decide

theorem js_trim_tag {value : String} (h : normalize_tag value = .ok value) :
    js_trim value = value := by
  refine js_trim_of_not fun c hc => ?_
  rcases (normalize_tag_eq_ok h).2.2.2 c hc with hc | rfl | rfl | rfl
  · exact js_whitespace_of_alphanumeric hc
  all_goals decide

theorem js_trim_cidr {value : String} (h : normalize_cidr value = .ok value) :
    js_trim value = value := by
  unfold normalize_cidr at h
  split at h
  · rename_i network hn
    simp only [bind_eq_ok] at h
    obtain ⟨-, -, h⟩ := h
    obtain rfl : network.trunc.toString = value := Except.ok.inj h
    refine js_trim_of_not fun c hc => ?_
    rcases Ipv4.Net.toString_char _ hc with hc | rfl | rfl
    · exact js_whitespace_of_alphanumeric (by simp [is_ascii_alphanumeric, Char.isAlphanum, hc])
    all_goals decide
  · cases h

theorem trimmed_domain [Idna] {rule : DomainRule} (h : normalize_domain_rule rule = .ok rule) :
    (Rule.domain rule).trimmed = .domain rule ↔ ¬ Marked rule.name := by
  simp only [normalize_domain_rule, bind_eq_ok] at h
  obtain ⟨name, hn, matcher, hm, he⟩ := h
  obtain ⟨rfl, rfl⟩ : name = rule.name ∧ matcher = rule.matcher := by
    have he := Except.ok.inj he
    exact ⟨congrArg DomainRule.name he, congrArg DomainRule.matcher he⟩
  have hvalue : js_trim (domain_type rule.matcher).2 = (domain_type rule.matcher).2 := by
    revert hm
    cases rule.matcher <;> simp only [normalize_domain_match, bind_eq_ok] <;>
      rintro ⟨value, hv, he⟩ <;> cases he
    · exact js_trim_domain hv
    · exact js_trim_domain hv
    · exact js_trim_tag hv
  rw [← js_trim_name hn, Rule.trimmed, hvalue, domain_matcher_type]
  constructor
  · exact fun h => congrArg Rule.name h
  · exact fun h => by rw [h]

theorem trimmed_ip {rule : IpRule} (h : normalize_ip_rule rule = .ok rule) :
    (Rule.ip rule).trimmed = .ip rule ↔ ¬ Marked rule.name := by
  simp only [normalize_ip_rule, bind_eq_ok] at h
  obtain ⟨name, hn, matcher, hm, he⟩ := h
  obtain ⟨rfl, rfl⟩ : name = rule.name ∧ matcher = rule.matcher := by
    have he := Except.ok.inj he
    exact ⟨congrArg IpRule.name he, congrArg IpRule.matcher he⟩
  have hvalue : js_trim (ip_type rule.matcher).2 = (ip_type rule.matcher).2 := by
    revert hm
    cases rule.matcher <;> simp only [normalize_ip_match, bind_eq_ok] <;>
      rintro ⟨value, hv, he⟩ <;> cases he
    · exact js_trim_cidr hv
    · exact js_trim_tag hv
  rw [← js_trim_name hn, Rule.trimmed, hvalue, ip_matcher_type]
  constructor
  · exact fun h => congrArg Rule.name h
  · exact fun h => by rw [h]

theorem trimmed_eq_self [Idna] {config : RoutingConfig} (h : normalize_routing config = .ok config)
    {rule : Rule} (hr : rule ∈ rules config) : rule.trimmed = rule ↔ ¬ Marked rule.name := by
  obtain ⟨-, -, hd, hi⟩ := normalize_routing_eq_ok h
  rw [List.forall₂_same] at hd hi
  rcases List.mem_append.mp hr with hr | hr
  · obtain ⟨domain, hm, rfl⟩ := List.mem_map.mp hr
    exact trimmed_domain (hd domain hm)
  · obtain ⟨ip, hm, rfl⟩ := List.mem_map.mp hr
    exact trimmed_ip (hi ip hm)

/-- **A saved configuration is packed as it was** exactly when trimming changes no name. -/
theorem packRules_cloneRules [Idna] {config : RoutingConfig}
    (h : normalize_routing config = .ok config) (mode : RoutingMode) (defaultTarget : RouteTarget)
    (createKey : ℕ → String) :
    (evaluated (packRules mode defaultTarget (cloneRules config createKey)) = evaluated config ∧
      normalize_routing (packRules mode defaultTarget (cloneRules config createKey)) =
        .ok (packRules mode defaultTarget (cloneRules config createKey))) ↔
      ∀ rule ∈ rules config, ¬ Marked rule.name := by
  have hordered := (normalize_routing_eq_ok h).1
  have hperm := evaluated_perm hordered
  have hpacked : evaluated (packRules mode defaultTarget (cloneRules config createKey)) =
      (evaluated config).map Rule.trimmed := by
    rw [packRules_evaluated, ← cloneRules_rules config createKey, List.map_map]
    rfl
  have hself : (evaluated config).map Rule.trimmed = evaluated config ↔
      ∀ rule ∈ rules config, ¬ Marked rule.name := by
    conv_lhs => rhs; rw [← List.map_id (evaluated config)]
    rw [List.map_inj_left]
    exact ⟨fun he rule hr => (trimmed_eq_self h hr).mp (he rule (hperm.mem_iff.mpr hr)),
      fun hn rule hr =>
        (trimmed_eq_self h (hperm.mem_iff.mp hr)).mpr (hn rule (hperm.mem_iff.mp hr))⟩
  rw [hpacked, hself]
  constructor
  · exact fun hn => hn.1
  · intro hn
    have ho := packRules_ordered mode defaultTarget (cloneRules config createKey)
    refine ⟨hn, normalize_routing_perm h ho ?_⟩
    exact (evaluated_perm ho).symm.trans ((hpacked.trans (hself.mpr hn)) ▸ hperm)

/-! ## Moving a rule -/

/-- **One rule moves**, and the others keep their order. -/
theorem reorderRules_spec (rules : List DraftRule) (source target : ℤ) :
    (reorderRules rules source target).Perm rules ∧
      ((0 ≤ source ∧ source < rules.length ∧ 0 ≤ target ∧ target < rules.length) →
        (reorderRules rules source target)[target.toNat]? = rules[source.toNat]? ∧
          (reorderRules rules source target).eraseIdx target.toNat =
            rules.eraseIdx source.toNat) ∧
      (¬ (0 ≤ source ∧ source < rules.length ∧ 0 ≤ target ∧ target < rules.length) →
        reorderRules rules source target = rules) := by
  unfold reorderRules
  split_ifs with h
  · refine ⟨.refl _, fun hr => ?_, fun _ => rfl⟩
    obtain rfl : source = target := by omega
    exact ⟨rfl, rfl⟩
  · have hs : source.toNat < rules.length := by omega
    have ht : target.toNat ≤ (rules.eraseIdx source.toNat).length := by
      rw [List.length_eraseIdx_of_lt hs]; omega
    rw [List.getElem?_eq_getElem hs]
    refine ⟨?_, fun _ => ⟨?_, ?_⟩, fun hr => absurd hr (by omega)⟩
    · exact (List.perm_insertIdx _ _ ht).trans (List.getElem_cons_eraseIdx_perm hs)
    · rw [List.getElem?_insertIdx_self, if_pos ht]
    · exact List.eraseIdx_insertIdx_self _

/-- **The editor keeps the policy** unless a name begins or ends with a byte-order mark. Drafts
come back trimmed, and a move changes the place of one rule. -/
theorem rules_preserved [Idna] (hidna : Idna.Standard) (mode : RoutingMode)
    (defaultTarget : RouteTarget) (createKey : ℕ → String) :
    (∀ config, Normalized config →
      ((evaluated (packRules mode defaultTarget (cloneRules config createKey)) =
          evaluated config ∧
        normalize_routing (packRules mode defaultTarget (cloneRules config createKey)) =
          .ok (packRules mode defaultTarget (cloneRules config createKey))) ↔
        ∀ rule ∈ rules config, ¬ Marked rule.name)) ∧
    (∀ draft, (cloneRules (packRules mode defaultTarget draft) createKey).map (fun rule =>
        { rule with key := "" }) =
      draft.map fun rule =>
        { rule with key := "", name := js_trim rule.name, value := js_trim rule.value }) ∧
    ∀ rules source target, (reorderRules rules source target).Perm rules ∧
      ((0 ≤ source ∧ source < rules.length ∧ 0 ≤ target ∧ target < rules.length) →
        (reorderRules rules source target)[target.toNat]? = rules[source.toNat]? ∧
          (reorderRules rules source target).eraseIdx target.toNat =
            rules.eraseIdx source.toNat) ∧
      (¬ (0 ≤ source ∧ source < rules.length ∧ 0 ≤ target ∧ target < rules.length) →
        reorderRules rules source target = rules) :=
  ⟨fun _ ⟨_, h⟩ => packRules_cloneRules (normalize_routing_fixed hidna h) mode defaultTarget
      createKey,
    fun draft => cloneRules_packRules mode defaultTarget draft createKey, reorderRules_spec⟩

/-- `rules_preserved` for ASCII domains, on a configuration with a rule of each kind. -/
theorem rules_preserved_sample :
    letI := asciiIdna
    evaluated (packRules .rules .direct (cloneRules sampleSaved fun _ => "key")) =
        evaluated sampleSaved ∧
      normalize_routing (packRules .rules .direct (cloneRules sampleSaved fun _ => "key")) =
        .ok (packRules .rules .direct (cloneRules sampleSaved fun _ => "key")) :=
  ((@rules_preserved asciiIdna asciiIdna_standard .rules .direct fun _ => "key").1 sampleSaved
    ⟨sampleDraft, by decide +kernel⟩).mpr (by decide +kernel)

/-- A rule whose name is a byte-order mark. -/
def markedConfig : RoutingConfig :=
  ⟨[⟨"\uFEFF", true, .exact "a", .vpn⟩], [], .direct, .rules, none⟩

/-- It is saved by the agent, but what the editor makes of it is refused. -/
theorem marked_name_refused :
    letI := asciiIdna
    Normalized markedConfig ∧
      evaluated (packRules .rules .direct (cloneRules markedConfig fun _ => "key")) ≠
        evaluated markedConfig ∧
      normalize_routing (packRules .rules .direct (cloneRules markedConfig fun _ => "key")) =
        .error "название правила должно содержать от 1 до 64 символов" := by
  let : Idna := asciiIdna
  exact ⟨⟨markedConfig, by decide +kernel⟩, by decide +kernel, by decide +kernel⟩

end Gofro.Web
