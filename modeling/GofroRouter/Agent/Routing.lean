import GofroRouter.Agent.Config
import GofroRouter.Agent.Geodata.Select

/-!
# The routing policy

`routing.rs`: a policy is a routing configuration with its selected geodata. It gives a target to an
address, to a domain with one of its addresses, and to the DNS lookup of a domain, which comes
before any address is known.

* `compile_eq`: a compiled policy does not depend on the geodata caches. `compile_spec`: its parts.
* **`target_le_dns_target`**: the lookup of a domain is at least as protected as its traffic.
* **`target_of_domain_target`**: without a matching domain rule the address decides alone.
-/

namespace Gofro.Agent

open Geodata

/-! ## LAN destinations -/

/-- Destinations that always stay direct. -/
def LAN_RANGES : List Ipv4Net :=
  [⟨Ipv4.addr 10 0 0 0, 8, by norm_num⟩, ⟨Ipv4.addr 127 0 0 0, 8, by norm_num⟩,
    ⟨Ipv4.addr 169 254 0 0, 16, by norm_num⟩, ⟨Ipv4.addr 172 16 0 0, 12, by norm_num⟩,
    ⟨Ipv4.addr 192 168 0 0, 16, by norm_num⟩, ⟨Ipv4.addr 224 0 0 0, 4, by norm_num⟩,
    ⟨Ipv4.addr 255 255 255 255, 32, by norm_num⟩]

/-- An address that no rule is asked about. -/
def is_lan_destination (ip : Ipv4Addr) : Bool := LAN_RANGES.any (·.contains ip)

/-! ## Policies -/

/-- A configuration with the tags and networks that it refers to. -/
structure RoutingPolicy where
  config : RoutingConfig
  geodata : GeoData
  ip_rules : List (Option Ipv4Net)
deriving DecidableEq

namespace RoutingPolicy

/-- A tag has to be there if the rule is used. -/
def check_domain_rule (config : RoutingConfig) (geodata : GeoData) (rule : DomainRule) :
    Except String Unit :=
  match rule.matcher with
  | .geoSite value =>
    bail_if (config.mode = .rules && rule.enabled && !geodata.has_site value) (missing_site value)
  | _ => .ok ()

/-- The network of a CIDR rule, parsed once. -/
def compile_ip_rule (config : RoutingConfig) (geodata : GeoData) (rule : IpRule) :
    Except String (Option Ipv4Net) :=
  match rule.matcher with
  | .cidr value =>
    match Ipv4.Net.ofString? value with
    | none => .error "invalid normalized CIDR"
    | some network => .ok (some network)
  | .geoIp value => do
    bail_if (config.mode = .rules && rule.enabled && !geodata.has_ip value) (missing_ip value)
    return none

/-- The policy of a configuration, once its geodata are selected. -/
def assemble (config : RoutingConfig) (geodata : GeoData) : Except String RoutingPolicy := do
  config.domain_rules.forM (check_domain_rule config geodata)
  let ip_rules ← config.ip_rules.mapM (compile_ip_rule config geodata)
  return { config, geodata, ip_rules }

/-- The selection of the tags, and then the checks of the rules. -/
def compile [RegexEngine] (geodata : GeoData) (alive : Liveness) (config : RoutingConfig) :
    Select RoutingPolicy := do
  let geodata ← geodata.select alive config
  ExceptT.mk (pure (assemble config geodata))

variable (p : RoutingPolicy)

/-- The saved order, or all domain rules before all IP rules. -/
def rule_refs : List RuleRef :=
  match p.config.rule_order with
  | some order => order
  | none =>
    (List.range p.config.domain_rules.length).map .domain ++
      (List.range p.config.ip_rules.length).map .ip

/-- In mode `all` the rest goes through the tunnel, too. -/
def effective_fallback : RouteTarget :=
  if p.config.mode = .all then .vpn else p.config.default_target

/-- The domain is already in lower case and without a trailing dot. -/
def matches_domain [RegexEngine] (rule : DomainRule) (domain : String) : Bool :=
  match rule.matcher with
  | .exact value => domain = value
  | .suffix value => Text.dottedSuffix domain value
  | .geoSite value => p.geodata.matches_site value domain

/-- No rule matches under an index that the configuration does not have. -/
def matches_ip (index : ℕ) (ip : Ipv4Addr) : Bool :=
  match (p.config.ip_rules[index]?).map IpRule.matcher with
  | some (.cidr _) => ((p.ip_rules[index]?).join).any (·.contains ip)
  | some (.geoIp value) => p.geodata.matches_ip value ip
  | none => false

/-- The enabled domain rule under a reference, if it matches. -/
def domain_hit [RegexEngine] (domain : String) : RuleRef → Option DomainRule
  | .domain index =>
    (p.config.domain_rules[index]?).filter fun rule => rule.enabled && p.matches_domain rule domain
  | .ip _ => none

/-- The enabled IP rule under an index, if it matches. -/
def ip_hit (ip : Ipv4Addr) (index : ℕ) : Option IpRule :=
  (p.config.ip_rules[index]?).filter fun rule => rule.enabled && p.matches_ip index ip

/-- The first domain rule that matches, in whichever mode. -/
def configured_domain_target [RegexEngine] (domain : String) : Option (RouteTarget × String) :=
  (p.rule_refs.findSome? (p.domain_hit domain)).map fun rule => (rule.target, rule.name)

/-- In mode `all` no rule is asked. -/
def domain_target [RegexEngine] (domain : String) : Option (RouteTarget × String) :=
  if p.config.mode = .rules then p.configured_domain_target domain else none

/-- The IP rules in the order in which they are rendered. -/
def ip_rule_indices : List ℕ :=
  if p.config.mode = .all then []
  else p.rule_refs.filterMap fun
    | .ip index => some index
    | .domain _ => none

/-- The decision about an address that no name is known for. -/
def ip_target (ip : Ipv4Addr) : RouteTarget × Option String :=
  if is_lan_destination ip then (.direct, some "Локальная сеть")
  else if p.config.mode = .all then (.vpn, none)
  else ((p.ip_rule_indices.findSome? (p.ip_hit ip)).map fun rule =>
    (rule.target, some rule.name)).getD (p.effective_fallback, none)

/-- The target of the rule under a reference, if it matches. -/
def rule_target [RegexEngine] (domain : String) (ip : Ipv4Addr) : RuleRef → Option RouteTarget
  | .domain index => (p.domain_hit domain (.domain index)).map DomainRule.target
  | .ip index => (p.ip_hit ip index).map IpRule.target

/-- The decision about a connection: the first rule of either kind that matches. -/
def target [RegexEngine] (domain : String) (ip : Ipv4Addr) : RouteTarget :=
  if is_lan_destination ip then .direct
  else if p.config.mode = .all then .vpn
  else (p.rule_refs.findSome? (p.rule_target domain ip)).getD p.effective_fallback

/-- Whether something may be sent through WARP. -/
def uses_warp : Bool :=
  p.config.mode = .rules && (p.config.default_target = .warp ||
    p.config.domain_rules.any (fun rule => rule.enabled && rule.target = .warp) ||
    p.config.ip_rules.any fun rule => rule.enabled && rule.target = .warp)

/-! ## DNS -/

/-- How protected a path is. -/
def rank : RouteTarget → ℕ
  | .block => 0
  | .direct => 1
  | .vpn => 2
  | .warp => 3

/-- The better protected of two targets. -/
def protect (left right : RouteTarget) : RouteTarget :=
  if rank right ≤ rank left then left else right

/-- An IP rule for all of IPv4 ends the search. -/
def catch_all (index : ℕ) : Bool := ((p.ip_rules[index]?).join).any fun n => n.prefix_len = 0

/-- The loop of `dns_target`: `possible` is the most protected outcome so far. -/
def dns_loop [RegexEngine] (domain : String) : RouteTarget → List RuleRef → RouteTarget
  | possible, [] => protect possible p.config.default_target
  | possible, .domain index :: refs =>
    match p.domain_hit domain (.domain index) with
    | some rule => protect possible rule.target
    | none => dns_loop domain possible refs
  | possible, .ip index :: refs =>
    match (p.config.ip_rules[index]?).filter IpRule.enabled with
    | some rule =>
      if p.catch_all index then protect possible rule.target
      else dns_loop domain (protect possible rule.target) refs
    | none => dns_loop domain possible refs

/-- The target of a lookup, before the address is known: the best protected one that is possible. -/
def dns_target [RegexEngine] (domain : String) : RouteTarget :=
  if p.config.mode = .all then .vpn else p.dns_loop domain .block p.rule_refs

/-! ## What compilation gives -/

/-- The network of a CIDR rule. -/
def network (rule : IpRule) : Option Ipv4Net :=
  match rule.matcher with
  | .cidr value => Ipv4.Net.ofString? value
  | .geoIp _ => none

theorem compile_ip_rule_ok {config : RoutingConfig} {geodata : GeoData} {rule : IpRule}
    {net : Option Ipv4Net} (h : compile_ip_rule config geodata rule = .ok net) :
    net = network rule := by
  unfold compile_ip_rule at h
  unfold network
  cases hm : rule.matcher with
  | cidr value =>
    simp only [hm] at h ⊢
    split at h
    · cases h
    · rename_i n hn
      cases h
      exact hn.symm
  | geoIp value =>
    simp only [hm, bind_eq_ok] at h ⊢
    obtain ⟨-, -, h⟩ := h
    cases h
    rfl

theorem assemble_ok {config : RoutingConfig} {geodata : GeoData} {p : RoutingPolicy}
    (h : assemble config geodata = .ok p) :
    p = { config, geodata, ip_rules := config.ip_rules.map network } := by
  simp only [assemble, bind_eq_ok, mapM_eq_ok] at h
  obtain ⟨-, -, ip_rules, hf, h⟩ := h
  cases h
  congr 1
  rw [← List.forall₂_eq_eq_eq, List.forall₂_map_right_iff]
  exact hf.flip.imp fun a b hab => compile_ip_rule_ok hab

theorem rank_le_protect_left (a b : RouteTarget) : rank a ≤ rank (protect a b) := by
  unfold protect; split_ifs <;> omega

theorem rank_le_protect_right (a b : RouteTarget) : rank b ≤ rank (protect a b) := by
  unfold protect; split_ifs <;> omega

/-- A network for all of IPv4 belongs to a rule that matches every address. -/
theorem matches_ip_of_catch_all {p : RoutingPolicy}
    (hp : p.ip_rules = p.config.ip_rules.map network) {index : ℕ} {rule : IpRule}
    (hr : p.config.ip_rules[index]? = some rule) (hc : p.catch_all index = true)
    (ip : Ipv4Addr) : p.matches_ip index ip = true := by
  have hnet : p.ip_rules[index]? = some (network rule) := by rw [hp, List.getElem?_map, hr]; rfl
  rw [catch_all, hnet, Option.join_some, Option.any_eq_true] at hc
  obtain ⟨n, hn, hz⟩ := hc
  rw [matches_ip, hr, hnet, Option.map_some, Option.join_some, hn]
  cases hm : rule.matcher with
  | cidr value => simpa using Ipv4.Net.contains_of_prefix_zero (of_decide_eq_true hz) ip
  | geoIp value => simp [network, hm] at hn

section

variable [RegexEngine] {g : GeoData} {alive : Liveness} {config : RoutingConfig} {caches : Caches}
  {p : RoutingPolicy}

/-- **The parts of a compiled policy.** -/
theorem compile_spec (h : (compile g alive config caches).1 = .ok p) :
    (g.select alive config caches).1 = .ok p.geodata ∧ p.config = config ∧
      p.ip_rules = config.ip_rules.map network := by
  rw [compile, run_bind] at h
  split at h
  · rename_i geodata caches' hs
    have ha : p = _ := assemble_ok h
    rw [ha, hs]
    exact ⟨rfl, rfl, rfl⟩
  · cases h

/-- The caches hold decoded entries of the open catalogs, if there are any. -/
def CachesFor (g : GeoData) (caches : Caches) : Prop :=
  ∀ source, g.source = some source → CachesOk source caches

theorem CachesFor.empty (g : GeoData) : CachesFor g .empty := fun source _ => .empty source

/-- The policy of a configuration. -/
def compiled (g : GeoData) (config : RoutingConfig) : Except String RoutingPolicy :=
  (compile g ⟨fun _ => false, fun _ => false⟩ config .empty).1

/-- **Compilation does not depend on the caches.** -/
theorem compile_eq (alive : Liveness) (config : RoutingConfig) (hc : CachesFor g caches) :
    (compile g alive config caches).1 = compiled g config ∧
      CachesFor g (compile g alive config caches).2 := by
  cases hg : g.source with
  | none =>
    have hsel : ∀ alive caches, g.select alive config caches = (.ok g, caches) := by
      intro alive caches
      rw [GeoData.select, hg]
      rfl
    refine ⟨?_, fun source h => by rw [hg] at h; cases h⟩
    rw [compiled, compile, compile, run_bind, run_bind, hsel, hsel]
    rfl
  | some source =>
    have hs : Same source (fun _ => True) (compile g alive config)
        (compile g ⟨fun _ => false, fun _ => false⟩ config) :=
      (same_select hg alive _ config).bind fun _ _ => .lift fun _ _ => trivial
    obtain ⟨he, hok, -⟩ := hs caches .empty (hc source hg) (.empty source)
    refine ⟨he, fun source' h => ?_⟩
    rw [hg] at h
    cases h
    exact hok

theorem ip_rules_of_compile (h : (compile g alive config caches).1 = .ok p) :
    p.ip_rules = p.config.ip_rules.map network := by
  obtain ⟨-, hc, hi⟩ := compile_spec h
  rw [hi, hc]

theorem separated_of_sound {source : Catalog} {geoip : File} {sites : List (String × Site)}
    {ips : List (String × List Ipv4Net)} (hopen : IndexedFile.open geoip true = .ok source.ips)
    (hs : Sound source sites ips) (tag : String) :
    Ipv4.Net.Separated (GeoData.ip_networks ⟨some source, sites, ips⟩ tag) := by
  cases htag : ips.lookup tag with
  | none => rw [ip_networks_of_lookup_eq_none htag]; exact List.Pairwise.nil
  | some networks =>
    obtain ⟨e, -, he⟩ := ip_networks_spec (g := ⟨some source, sites, ips⟩) hopen hs.2
      (by rw [htag]; rfl)
    rw [he]
    exact aggregate_ipv4_separated trunc_of_mem_map

/-! ## The lookup of a domain and its traffic -/

/-- **The loop of `dns_target`** bounds what it has seen, and every later outcome. -/
theorem dns_loop_bound (hp : p.ip_rules = p.config.ip_rules.map network) (domain : String)
    (ip : Ipv4Addr) (refs : List RuleRef) (possible : RouteTarget) :
    rank possible ≤ rank (p.dns_loop domain possible refs) ∧
      rank ((refs.findSome? (p.rule_target domain ip)).getD p.config.default_target) ≤
        rank (p.dns_loop domain possible refs) := by
  induction refs generalizing possible with
  | nil => exact ⟨rank_le_protect_left _ _, rank_le_protect_right _ _⟩
  | cons r refs ih =>
    cases r with
    | domain index =>
      rw [List.findSome?_cons, rule_target, dns_loop]
      cases p.domain_hit domain (.domain index) with
      | none => exact ih possible
      | some rule => exact ⟨rank_le_protect_left _ _, rank_le_protect_right _ _⟩
    | ip index =>
      rw [List.findSome?_cons, rule_target, dns_loop, ip_hit]
      cases hr : p.config.ip_rules[index]? with
      | none => exact ih possible
      | some rule =>
        cases he : rule.enabled with
        | false => simpa [Option.filter, he] using ih possible
        | true =>
          simp only [Option.filter_some, he, if_true, Bool.true_and]
          obtain ⟨h₁, h₂⟩ := ih (protect possible rule.target)
          cases hm : p.matches_ip index ip with
          | true =>
            -- the rule decides the traffic, and the lookup has counted it
            simp only [if_true, Option.map_some, Option.getD_some]
            split_ifs
            · exact ⟨rank_le_protect_left _ _, rank_le_protect_right _ _⟩
            · exact ⟨(rank_le_protect_left _ _).trans h₁, (rank_le_protect_right _ _).trans h₁⟩
          | false =>
            have hc : p.catch_all index = false := by
              rw [← Bool.not_eq_true]
              intro hc
              rw [matches_ip_of_catch_all hp hr hc ip] at hm
              cases hm
            simp only [hc, Bool.false_eq_true, if_false, Option.map_none]
            exact ⟨(rank_le_protect_left _ _).trans h₁, h₂⟩

/-- **A lookup is at least as protected as the traffic** to every address outside the LAN. -/
theorem target_le_dns_target (hp : p.ip_rules = p.config.ip_rules.map network) (domain : String)
    {ip : Ipv4Addr} (hip : is_lan_destination ip = false) :
    rank (p.target domain ip) ≤ rank (p.dns_target domain) := by
  rw [target, dns_target, hip]
  cases hm : p.config.mode with
  | all => exact le_rfl
  | rules =>
    have hf : p.effective_fallback = p.config.default_target := by simp [effective_fallback, hm]
    simp only [hf, Bool.false_eq_true, if_false, reduceCtorEq]
    exact (dns_loop_bound hp domain ip _ _).2

/-! ## Traffic without a domain rule -/

theorem rule_target_of_domain_hit {domain : String} {refs : List RuleRef} {ip : Ipv4Addr}
    (h : refs.findSome? (p.domain_hit domain) = none) :
    refs.findSome? (p.rule_target domain ip) =
      ((refs.filterMap fun
        | .ip index => some index
        | .domain _ => none).findSome? (p.ip_hit ip)).map IpRule.target := by
  induction refs with
  | nil => rfl
  | cons r refs ih =>
    rw [List.findSome?_cons] at h ⊢
    cases r with
    | domain index =>
      cases hd : p.domain_hit domain (.domain index) with
      | some rule => rw [hd] at h; cases h
      | none =>
        rw [hd] at h
        rw [rule_target, hd]
        exact ih h
    | ip index =>
      rw [rule_target, List.filterMap_cons, List.findSome?_cons]
      cases p.ip_hit ip index with
      | some rule => rfl
      | none => exact ih h

/-- **Without a matching domain rule the address decides alone.** -/
theorem target_of_domain_target {domain : String} (h : p.domain_target domain = none)
    (ip : Ipv4Addr) : p.target domain ip = (p.ip_target ip).1 := by
  rw [target, ip_target]
  cases is_lan_destination ip with
  | true => rfl
  | false =>
    cases hm : p.config.mode with
    | all => rfl
    | rules =>
      rw [domain_target, if_pos hm, configured_domain_target, Option.map_eq_none_iff] at h
      simp only [Bool.false_eq_true, if_false, reduceCtorEq, rule_target_of_domain_hit h,
        ip_rule_indices, hm]
      cases List.findSome? (p.ip_hit ip) _ with
      | none => rfl
      | some rule => rfl

end

/-! ## Policies of the agent -/

theorem rule_refs_nodup {p : RoutingPolicy} (h : p.config.Ordered) : p.rule_refs.Nodup := by
  unfold rule_refs
  cases ho : p.config.rule_order with
  | some order => exact (h order ho).2.1
  | none =>
    refine List.nodup_append.mpr ⟨?_, ?_, ?_⟩
    · exact List.nodup_range.map fun a b h => RuleRef.domain.inj h
    · exact List.nodup_range.map fun a b h => RuleRef.ip.inj h
    · intro a ha b hb
      obtain ⟨i, -, rfl⟩ := List.mem_map.mp ha
      obtain ⟨j, -, rfl⟩ := List.mem_map.mp hb
      simp

/-- The geodata that an agent can hold. -/
inductive Loaded : GeoData → Prop
  | empty : Loaded .empty
  | load {geosite geoip : File} {limits : ResourceLimits} {g : GeoData}
      (h : GeoData.load_with_limits geosite geoip limits = .ok g) : Loaded g

/-- A policy compiled from a normalized configuration. -/
def Compiled [RegexEngine] [Idna] (p : RoutingPolicy) : Prop :=
  ∃ g alive config caches, Loaded g ∧ CachesFor g caches ∧ Normalized config ∧
    (compile g alive config caches).1 = .ok p

section

variable [RegexEngine] [Idna] {p : RoutingPolicy}

theorem Compiled.normalized (h : Compiled p) : Normalized p.config := by
  obtain ⟨g, alive, config, caches, -, -, hn, hc⟩ := h
  rw [(compile_spec hc).2.1]
  exact hn

theorem Compiled.ip_rules (h : Compiled p) : p.ip_rules = p.config.ip_rules.map network := by
  obtain ⟨g, alive, config, caches, -, -, -, hc⟩ := h
  exact ip_rules_of_compile hc

theorem Compiled.separated (h : Compiled p) (tag : String) :
    Ipv4.Net.Separated (p.geodata.ip_networks tag) := by
  obtain ⟨g, alive, config, caches, hg, hcaches, -, hc⟩ := h
  have hsel := (compile_spec hc).1
  cases hg with
  | empty =>
    have hp : p.geodata = .empty := (Except.ok.inj hsel).symm
    rw [hp]
    exact List.Pairwise.nil
  | load hload =>
    obtain ⟨source, rfl, -, -, hips⟩ := load_spec hload
    have hok := hcaches source rfl
    have hs := (same_select rfl alive alive config _ _ hok hok).2.2.2 _ hsel
    have he : p.geodata = ⟨some source, p.geodata.sites, p.geodata.ips⟩ := by
      rw [← hs.source_eq]
    rw [he]
    exact separated_of_sound hips hs.sound tag

theorem Compiled.ip_rule_indices_nodup (h : Compiled p) : p.ip_rule_indices.Nodup := by
  unfold ip_rule_indices
  split_ifs
  · exact List.nodup_nil
  · refine (rule_refs_nodup h.normalized.ordered).filterMap fun a b i ha hb => ?_
    cases a <;> cases b <;> simp_all

end

end RoutingPolicy

end Gofro.Agent
