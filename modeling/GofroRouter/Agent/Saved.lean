import GofroRouter.Agent.Devices
import GofroRouter.Agent.NormalForm
import GofroRouter.Server.Status

/-!
# The saved configuration

The JSON of the controller's configuration, as the derived serializer writes it and the derived
deserializer reads it, and `load`, which checks what was read.

* `MacAddress.display`, **`parse_mac_display`**: a hardware address and its text.
* `ControllerConfig.of_value_to_value`: what is written is read back.
* `Loadable`: a configuration that passes every check of `load` unchanged; **`Loadable.reload`**: it
  is loaded from what is saved. `loadable_of_load`: what has been loaded is such a one.
-/

namespace Gofro.Agent

open Text Json
open Server (text_value as_string as_bool as_list required optional or_error)

/-! ## Records -/

/-- `#[serde(default)]` -/
def defaulted {α : Type} (members : List (String × Value)) (name : String)
    (item : Value → Option α) (default : α) : Option α := do
  match ← member members name with
  | none => some default
  | some v => item v

/-- The members of a record: an object, or an array of the first of its fields in order. -/
def record (names : List String) : Value → Option (List (String × Value))
  | .object members => some members
  | .array items => if items.length ≤ names.length then some (names.zip items) else none
  | _ => none

/-- The variant of an internally tagged enumeration, with the members beside the tag: an object with
the tag among its members, or an array that begins with it. -/
def tagged (tag : String) (names : List String) : Value → Option (String × List (String × Value))
  | .object members => do
    some (← required members tag as_string, members.filter (·.1 ≠ tag))
  | .array (variant :: items) => do
    some (← as_string variant, ← record names (.array items))
  | _ => none

/-- The name of a unit variant: a string, or an object with `null` beside the name. -/
def unit_variant : Value → Option String
  | .string variant => some variant
  | .object [(variant, .null)] => some variant
  | _ => none

/-- An unsigned integer with values up to `max`. -/
def as_unsigned (max : ℕ) (v : Value) : Option ℕ := v.as_u64.filter (· ≤ max)

def USIZE_MAX : ℕ := 2 ^ 64 - 1

def number_value (n : ℕ) : Value := .number (.ofNat n)

/-! ## Hardware addresses -/

/-- The six bytes. -/
def MacAddress.octets (mac : MacAddress) : List ℕ :=
  [mac.bits.toNat / 256 ^ 5, mac.bits.toNat / 256 ^ 4 % 256, mac.bits.toNat / 256 ^ 3 % 256,
    mac.bits.toNat / 256 ^ 2 % 256, mac.bits.toNat / 256 % 256, mac.bits.toNat % 256]

/-- `{:02x}` of a byte -/
def hex_octet (octet : ℕ) : List Char := [Nat.digitChar (octet / 16), Nat.digitChar (octet % 16)]

/-- `MacAddress::fmt` -/
def MacAddress.display (mac : MacAddress) : String :=
  String.ofList ([':'].intercalate (mac.octets.map hex_octet))

def MacAddress.to_value (mac : MacAddress) : Value := text_value mac.display

def MacAddress.of_value (v : Value) : Option MacAddress := do
  Devices.parse_mac (← as_string v).toList

/-- A digit, or a letter from `a` to `f`. -/
def is_hex (c : Char) : Bool := (48 ≤ c.toNat && c.toNat ≤ 57) || (97 ≤ c.toNat && c.toNat ≤ 102)

theorem parse_hex_octet : ∀ octet < 256, parse_unsigned 16 255 (hex_octet octet) = some octet ∧
    (hex_octet octet).all is_hex = true ∧
    (hex_octet octet).all Devices.is_ascii_hexdigit = true := by
  decide +kernel

theorem ascii_of_hex {c : Char} (h : is_hex c = true) : c.toNat < 128 ∧ c ≠ ':' := by
  simp only [is_hex, Bool.or_eq_true, Bool.and_eq_true, decide_eq_true_eq] at h
  refine ⟨by omega, ?_⟩
  rintro rfl
  revert h
  decide

theorem MacAddress.octets_lt (mac : MacAddress) : ∀ octet ∈ mac.octets, octet < 256 := by
  have hlt : mac.bits.toNat < 256 ^ 6 := mac.bits.isLt
  intro octet ho
  simp only [octets, List.mem_cons, List.not_mem_nil, or_false] at ho
  omega

theorem MacAddress.foldl_octets (mac : MacAddress) :
    mac.octets.foldl (fun n byte => n * 256 + byte) 0 = mac.bits.toNat := by
  simp only [octets, List.foldl_cons, List.foldl_nil]
  omega

theorem MacAddress.display_toList (mac : MacAddress) :
    mac.display.toList = [':'].intercalate (mac.octets.map hex_octet) := String.toList_ofList

theorem mem_intercalate {c sep : Char} {parts : List (List Char)}
    (h : c ∈ [sep].intercalate parts) : c = sep ∨ ∃ part ∈ parts, c ∈ part := by
  induction parts with
  | nil => cases h
  | cons part parts ih =>
    cases parts with
    | nil =>
      have hc : c ∈ part := by simpa [List.intercalate] using h
      exact .inr ⟨part, List.mem_cons_self, hc⟩
    | cons next parts =>
      have hc : c ∈ part ∨ c = sep ∨ c ∈ [sep].intercalate (next :: parts) := by
        simpa [List.intercalate] using h
      rcases hc with hc | hc | hc
      · exact .inr ⟨part, List.mem_cons_self, hc⟩
      · exact .inl hc
      · exact (ih hc).imp_right fun ⟨p, hp, hc⟩ => ⟨p, List.mem_cons_of_mem _ hp, hc⟩

theorem MacAddress.display_chars (mac : MacAddress) :
    ∀ c ∈ mac.display.toList, c = ':' ∨ is_hex c = true := by
  intro c hc
  rw [display_toList] at hc
  refine (mem_intercalate hc).imp_right ?_
  rintro ⟨part, hp, hc⟩
  obtain ⟨octet, ho, rfl⟩ := List.mem_map.mp hp
  exact List.all_eq_true.mp (parse_hex_octet octet (mac.octets_lt octet ho)).2.1 c hc

theorem MacAddress.length_display (mac : MacAddress) : mac.display.toList.length = 17 := by
  rw [display_toList]
  rfl

theorem MacAddress.splitOn_display (mac : MacAddress) :
    mac.display.toList.splitOn ':' = mac.octets.map hex_octet := by
  rw [display_toList]
  refine List.splitOn_intercalate _ (fun part hp => ?_) (by simp [octets])
  obtain ⟨octet, ho, rfl⟩ := List.mem_map.mp hp
  intro hc
  exact (ascii_of_hex (List.all_eq_true.mp (parse_hex_octet octet (mac.octets_lt octet ho)).2.1 _
    hc)).2 rfl

theorem parse_mac_display (mac : MacAddress) : Devices.parse_mac mac.display.toList = some mac := by
  have hlen : byteLen mac.display.toList = 17 := by
    rw [byteLen_ascii, mac.length_display]
    intro c hc
    rcases mac.display_chars c hc with rfl | hc
    · decide
    · exact (ascii_of_hex hc).1
  have hparts : (mac.octets.map hex_octet).all (fun part =>
      byteLen part = 2 && part.all Devices.is_ascii_hexdigit) = true := by
    rw [List.all_eq_true]
    intro part hp
    obtain ⟨octet, ho, rfl⟩ := List.mem_map.mp hp
    obtain ⟨_, hhex, hdigit⟩ := parse_hex_octet octet (mac.octets_lt octet ho)
    have htwo : byteLen (hex_octet octet) = 2 :=
      byteLen_ascii fun c hc => (ascii_of_hex (List.all_eq_true.mp hhex c hc)).1
    rw [htwo, hdigit]
    rfl
  have hbits : BitVec.ofNat 48 (mac.octets.foldl (fun n byte => n * 256 + byte) 0) = mac.bits := by
    rw [mac.foldl_octets, BitVec.ofNat_toNat, BitVec.setWidth_eq]
  have hoctets : (mac.octets.map hex_octet).mapM (parse_unsigned 16 255) = some mac.octets :=
    mapM_map fun octet ho => (parse_hex_octet octet (mac.octets_lt octet ho)).1
  simp only [Devices.parse_mac, mac.splitOn_display, hlen, hparts, hoctets]
  have hsix : ¬ (17 ≠ 17 ∨ (mac.octets.map hex_octet).length ≠ 6 ∨ ¬ True) := by
    simp [MacAddress.octets]
  have hmac : BitVec.ofNat 48 (mac.octets.foldl (fun n byte => n * 256 + byte) 0) ≠ 0 ∧
      (BitVec.ofNat 48 (mac.octets.foldl (fun n byte => n * 256 + byte) 0)).getLsbD 40 = false := by
    rw [hbits]
    exact ⟨mac.nonzero, mac.unicast⟩
  rw [if_neg hsix, Option.bind_eq_bind, Option.bind_some, dif_pos hmac]
  exact congrArg some (Devices.mac_eq_of_bits (congrArg BitVec.toNat hbits))

theorem dedup_sublist {α : Type} [DecidableEq α] (l : List α) : (dedup l).Sublist l := by
  fun_induction dedup l with
  | case1 => exact .slnil
  | case2 a => exact List.Sublist.refl _
  | case3 a l ih => exact ih.cons _
  | case4 a b l hne ih => exact ih.cons_cons _

theorem normalize_exclusions_eq_ok {macs macs' : List MacAddress} :
    normalize_exclusions macs = .ok macs' ↔
      macs' = dedup (macs.mergeSort (· ≤ ·)) ∧ macs'.length ≤ 256 := by
  simp only [normalize_exclusions, bind_eq_ok, bail_if_eq_ok, decide_eq_false_iff_not, not_lt, pure,
    Except.pure, Except.ok.injEq, exists_const]
  exact ⟨fun ⟨hlen, he⟩ => ⟨he.symm, he ▸ hlen⟩, fun ⟨he, hlen⟩ => ⟨he ▸ hlen, he.symm⟩⟩

/-- At most 256 addresses, whether or not some are given twice, are accepted. -/
theorem normalize_exclusions_of_length {macs : List MacAddress} (h : macs.length ≤ 256) :
    normalize_exclusions macs = .ok (dedup (macs.mergeSort (· ≤ ·))) := by
  have hle := (dedup_sublist (macs.mergeSort (· ≤ ·))).length_le
  rw [List.length_mergeSort] at hle
  exact normalize_exclusions_eq_ok.mpr ⟨rfl, hle.trans h⟩

theorem mac_le_trans (a b c : MacAddress) (hab : decide (a ≤ b) = true)
    (hbc : decide (b ≤ c) = true) : decide (a ≤ c) = true :=
  decide_eq_true (BitVec.le_trans (of_decide_eq_true hab) (of_decide_eq_true hbc))

theorem mac_le_total (a b : MacAddress) : (decide (a ≤ b) || decide (b ≤ a)) = true := by
  rw [Bool.or_eq_true, decide_eq_true_eq, decide_eq_true_eq]
  exact BitVec.le_total a.bits b.bits

theorem mac_le_antisymm (a b : MacAddress) (hab : decide (a ≤ b) = true)
    (hba : decide (b ≤ a) = true) : a = b :=
  Devices.mac_eq_of_bits (le_antisymm (BitVec.le_def.mp (of_decide_eq_true hab))
    (BitVec.le_def.mp (of_decide_eq_true hba)))

theorem dedup_of_pairwise {α : Type} [DecidableEq α] {l : List α} (h : l.Pairwise (· ≠ ·)) :
    dedup l = l := by
  fun_induction dedup l with
  | case1 => rfl
  | case2 => rfl
  | case3 a l ih => exact absurd rfl ((List.pairwise_cons.mp h).1 a List.mem_cons_self)
  | case4 a b l hne ih => rw [ih (List.pairwise_cons.mp h).2]

theorem normalize_exclusions_fixed {macs macs' : List MacAddress}
    (h : normalize_exclusions macs = .ok macs') : normalize_exclusions macs' = .ok macs' := by
  obtain ⟨rfl, hlen⟩ := normalize_exclusions_eq_ok.mp h
  have hsorted := List.pairwise_mergeSort mac_le_trans mac_le_total macs
  have hboth := pairwise_dedup mac_le_antisymm hsorted
  refine normalize_exclusions_eq_ok.mpr ⟨?_, hlen⟩
  rw [List.mergeSort_of_pairwise (hboth.imp And.left), dedup_of_pairwise (hboth.imp And.right)]

/-! ## Routing -/

/-- Unit variants are saved by their names. -/
def RouteTarget.name : RouteTarget → String
  | .direct => "direct"
  | .vpn => "vpn"
  | .warp => "warp"
  | .block => "block"

def RouteTarget.of_value (v : Value) : Option RouteTarget := do
  match ← unit_variant v with
  | "direct" => some .direct
  | "vpn" => some .vpn
  | "warp" => some .warp
  | "block" => some .block
  | _ => none

def RoutingMode.name : RoutingMode → String
  | .rules => "rules"
  | .all => "all"

def RoutingMode.of_value (v : Value) : Option RoutingMode := do
  match ← unit_variant v with
  | "rules" => some .rules
  | "all" => some .all
  | _ => none

/-- The kind is a member of the object. -/
def RuleRef.to_value : RuleRef → Value
  | .domain index => .object [("kind", text_value "domain"), ("index", number_value index)]
  | .ip index => .object [("kind", text_value "ip"), ("index", number_value index)]

/-- An index has to fit into the machine's word. -/
def RuleRef.of_value (v : Value) : Option RuleRef := do
  let (kind, members) ← tagged "kind" ["index"] v
  let index := required members "index" (as_unsigned USIZE_MAX)
  match kind with
  | "domain" => return .domain (← index)
  | "ip" => return .ip (← index)
  | _ => none

/-- The type is a member of the object. -/
def DomainMatch.to_value : DomainMatch → Value
  | .exact value => .object [("type", text_value "exact"), ("value", text_value value)]
  | .suffix value => .object [("type", text_value "suffix"), ("value", text_value value)]
  | .geoSite value => .object [("type", text_value "geo_site"), ("value", text_value value)]

/-- A variant with a value that is a text. -/
def DomainMatch.of_value (v : Value) : Option DomainMatch := do
  let (type, members) ← tagged "type" ["value"] v
  let value := required members "value" as_string
  match type with
  | "exact" => return .exact (← value)
  | "suffix" => return .suffix (← value)
  | "geo_site" => return .geoSite (← value)
  | _ => none

def IpMatch.to_value : IpMatch → Value
  | .cidr value => .object [("type", text_value "cidr"), ("value", text_value value)]
  | .geoIp value => .object [("type", text_value "geo_ip"), ("value", text_value value)]

def IpMatch.of_value (v : Value) : Option IpMatch := do
  let (type, members) ← tagged "type" ["value"] v
  let value := required members "value" as_string
  match type with
  | "cidr" => return .cidr (← value)
  | "geo_ip" => return .geoIp (← value)
  | _ => none

def DomainRule.to_value (rule : DomainRule) : Value :=
  .object [("name", text_value rule.name), ("enabled", .bool rule.enabled),
    ("matcher", rule.matcher.to_value), ("target", text_value rule.target.name)]

/-- Unknown members are refused, and none may be missing. -/
def DomainRule.of_value (v : Value) : Option DomainRule := do
  let members ← record ["name", "enabled", "matcher", "target"] v
  return ⟨← required members "name" as_string, ← required members "enabled" as_bool,
    ← required members "matcher" DomainMatch.of_value,
    ← required members "target" RouteTarget.of_value⟩

def IpRule.to_value (rule : IpRule) : Value :=
  .object [("name", text_value rule.name), ("enabled", .bool rule.enabled),
    ("matcher", rule.matcher.to_value), ("target", text_value rule.target.name)]

def IpRule.of_value (v : Value) : Option IpRule := do
  let members ← record ["name", "enabled", "matcher", "target"] v
  return ⟨← required members "name" as_string, ← required members "enabled" as_bool,
    ← required members "matcher" IpMatch.of_value,
    ← required members "target" RouteTarget.of_value⟩

/-- An order is written only if there is one. -/
def RoutingConfig.to_value (routing : RoutingConfig) : Value :=
  .object ([("domain_rules", .array (routing.domain_rules.map DomainRule.to_value)),
    ("ip_rules", .array (routing.ip_rules.map IpRule.to_value)),
    ("default_target", text_value routing.default_target.name),
    ("mode", text_value routing.mode.name)] ++
    routing.rule_order.toList.map fun order => ("rule_order", .array (order.map RuleRef.to_value)))

/-- The order may be missing. -/
def RoutingConfig.of_value (v : Value) : Option RoutingConfig := do
  let members ← record ["domain_rules", "ip_rules", "default_target", "mode", "rule_order"] v
  return ⟨← required members "domain_rules" (as_list DomainRule.of_value),
    ← required members "ip_rules" (as_list IpRule.of_value),
    ← required members "default_target" RouteTarget.of_value,
    ← defaulted members "mode" RoutingMode.of_value .rules,
    ← optional members "rule_order" (as_list RuleRef.of_value)⟩

/-- `RoutingConfig::default` -/
def RoutingConfig.initial : RoutingConfig where
  domain_rules := [⟨"Российские сайты", true, .geoSite "category-ru", .direct⟩]
  ip_rules := [⟨"Российские IP", true, .geoIp "ru", .direct⟩]
  default_target := .vpn
  mode := .rules
  rule_order := none

/-! ## Servers and the configuration -/

def ManagedServer.to_value (management : ManagedServer) : Value :=
  .object [("host", text_value management.host), ("port", number_value management.port),
    ("host_key", text_value management.host_key)]

def ManagedServer.of_value (v : Value) : Option ManagedServer := do
  let members ← record ["host", "port", "host_key"] v
  return ⟨← required members "host" as_string, ← required members "port" (as_unsigned 65535),
    ← required members "host_key" as_string⟩

/-- Members without a value are left out. -/
def ServerProfile.to_value (server : ServerProfile) : Value :=
  .object ([("name", text_value server.name)] ++
    (if server.emoji = "" then [] else [("emoji", text_value server.emoji)]) ++
    [("endpoint", text_value server.endpoint), ("public_key", text_value server.public_key)] ++
    (server.client_tunnel_address.toList.map fun address =>
      ("client_tunnel_address", text_value address)) ++
    (server.client_private_key.toList.map fun key => ("client_private_key", text_value key)) ++
    server.management.toList.map fun management => ("management", management.to_value))

/-- All members but name, endpoint and key have defaults. -/
def ServerProfile.of_value (v : Value) : Option ServerProfile := do
  let members ← record ["name", "emoji", "endpoint", "public_key", "client_tunnel_address",
    "client_private_key", "management"] v
  return ⟨← required members "name" as_string, ← defaulted members "emoji" as_string "",
    ← required members "endpoint" as_string, ← required members "public_key" as_string,
    ← optional members "client_tunnel_address" as_string,
    ← optional members "client_private_key" as_string,
    ← optional members "management" ManagedServer.of_value⟩

def ControllerConfig.to_value (config : ControllerConfig) : Value :=
  .object [("auto_update_enabled", .bool config.auto_update_enabled),
    ("device_exclusions", .array (config.device_exclusions.map MacAddress.to_value)),
    ("vpn_enabled", .bool config.vpn_enabled),
    ("active_server_key", (config.active_server_key.map text_value).getD .null),
    ("servers", .array (config.servers.map ServerProfile.to_value)),
    ("routing", config.routing.to_value)]

/-- The excluded addresses among the members of a configuration. -/
def exclusions_of_members (members : List (String × Value)) : Option (List MacAddress) :=
  defaulted members "device_exclusions" (as_list MacAddress.of_value) []

/-- Files of earlier versions may lack some of the members. -/
def ControllerConfig.of_value (v : Value) : Option ControllerConfig := do
  let members ← record ["auto_update_enabled", "device_exclusions", "vpn_enabled",
    "active_server_key", "servers", "routing"] v
  return ⟨← defaulted members "auto_update_enabled" as_bool false,
    ← exclusions_of_members members,
    ← required members "vpn_enabled" as_bool, ← optional members "active_server_key" as_string,
    ← required members "servers" (as_list ServerProfile.of_value),
    ← defaulted members "routing" RoutingConfig.of_value .initial⟩

/-! ## What is written is read back -/

theorem as_unsigned_number {max n : ℕ} (hm : max < 2 ^ 64) (h : n ≤ max) :
    as_unsigned max (number_value n) = some n := by
  rw [as_unsigned, number_value, Value.as_u64, Numeral.as_u64_ofNat (by omega),
    Option.filter_some_pos]
  exact decide_eq_true h

theorem MacAddress.of_value_to_value (mac : MacAddress) :
    MacAddress.of_value mac.to_value = some mac := by
  rw [MacAddress.of_value, MacAddress.to_value]
  exact parse_mac_display mac

theorem RouteTarget.of_value_name (target : RouteTarget) :
    RouteTarget.of_value (text_value target.name) = some target := by
  cases target <;> rfl

theorem RoutingMode.of_value_name (mode : RoutingMode) :
    RoutingMode.of_value (text_value mode.name) = some mode := by
  cases mode <;> rfl

/-- The index is a `usize`. -/
def RuleRef.Fits : RuleRef → Prop
  | .domain index => index ≤ USIZE_MAX
  | .ip index => index ≤ USIZE_MAX

theorem RuleRef.of_value_to_value {r : RuleRef} (h : r.Fits) :
    RuleRef.of_value r.to_value = some r := by
  cases r with
  | domain index =>
    show (do return RuleRef.domain (← as_unsigned USIZE_MAX (number_value index))) = _
    rw [as_unsigned_number (by decide) h]
    rfl
  | ip index =>
    show (do return RuleRef.ip (← as_unsigned USIZE_MAX (number_value index))) = _
    rw [as_unsigned_number (by decide) h]
    rfl

theorem DomainMatch.of_value_to_value (matcher : DomainMatch) :
    DomainMatch.of_value matcher.to_value = some matcher := by
  cases matcher <;> rfl

theorem IpMatch.of_value_to_value (matcher : IpMatch) :
    IpMatch.of_value matcher.to_value = some matcher := by
  cases matcher <;> rfl

theorem DomainRule.of_value_to_value (rule : DomainRule) :
    DomainRule.of_value rule.to_value = some rule := by
  show (do
    let matcher ← DomainMatch.of_value rule.matcher.to_value
    let target ← RouteTarget.of_value (text_value rule.target.name)
    return (⟨rule.name, rule.enabled, matcher, target⟩ : DomainRule)) = _
  rw [DomainMatch.of_value_to_value, RouteTarget.of_value_name]
  rfl

theorem IpRule.of_value_to_value (rule : IpRule) :
    IpRule.of_value rule.to_value = some rule := by
  show (do
    let matcher ← IpMatch.of_value rule.matcher.to_value
    let target ← RouteTarget.of_value (text_value rule.target.name)
    return (⟨rule.name, rule.enabled, matcher, target⟩ : IpRule)) = _
  rw [IpMatch.of_value_to_value, RouteTarget.of_value_name]
  rfl

/-- The indices of the rule order are `usize` values. -/
def RoutingConfig.Fits (routing : RoutingConfig) : Prop :=
  ∀ order ∈ routing.rule_order, ∀ r ∈ order, r.Fits

theorem RoutingConfig.of_value_to_value {routing : RoutingConfig} (h : routing.Fits) :
    RoutingConfig.of_value routing.to_value = some routing := by
  obtain ⟨domain_rules, ip_rules, default_target, mode, rule_order⟩ := routing
  have hdomain : (domain_rules.map DomainRule.to_value).mapM DomainRule.of_value =
      some domain_rules := mapM_map fun rule _ => rule.of_value_to_value
  have hip : (ip_rules.map IpRule.to_value).mapM IpRule.of_value = some ip_rules :=
    mapM_map fun rule _ => rule.of_value_to_value
  cases rule_order with
  | none =>
    show (do
      let domain_rules ← (domain_rules.map DomainRule.to_value).mapM DomainRule.of_value
      let ip_rules ← (ip_rules.map IpRule.to_value).mapM IpRule.of_value
      let default_target ← RouteTarget.of_value (text_value default_target.name)
      let mode ← RoutingMode.of_value (text_value mode.name)
      return (⟨domain_rules, ip_rules, default_target, mode, none⟩ : RoutingConfig)) = _
    rw [hdomain, hip, RouteTarget.of_value_name, RoutingMode.of_value_name]
    rfl
  | some order =>
    have horder : (order.map RuleRef.to_value).mapM RuleRef.of_value = some order :=
      mapM_map fun r hr => RuleRef.of_value_to_value (h order rfl r hr)
    show (do
      let domain_rules ← (domain_rules.map DomainRule.to_value).mapM DomainRule.of_value
      let ip_rules ← (ip_rules.map IpRule.to_value).mapM IpRule.of_value
      let default_target ← RouteTarget.of_value (text_value default_target.name)
      let mode ← RoutingMode.of_value (text_value mode.name)
      let order ← ((order.map RuleRef.to_value).mapM RuleRef.of_value).map some
      return (⟨domain_rules, ip_rules, default_target, mode, order⟩ : RoutingConfig)) = _
    rw [hdomain, hip, RouteTarget.of_value_name, RoutingMode.of_value_name, horder]
    rfl

/-- The port is an `u16`. -/
def ManagedServer.Fits (management : ManagedServer) : Prop := management.port ≤ 65535

theorem ManagedServer.of_value_to_value {management : ManagedServer} (h : management.Fits) :
    ManagedServer.of_value management.to_value = some management := by
  show (do
    let port ← as_unsigned 65535 (number_value management.port)
    return (⟨management.host, port, management.host_key⟩ : ManagedServer)) = _
  rw [as_unsigned_number (by decide) h]
  rfl

/-- What the type of the port says of a server. -/
def ServerProfile.Fits (server : ServerProfile) : Prop :=
  ∀ management ∈ server.management, management.Fits

theorem ServerProfile.of_value_to_value {server : ServerProfile} (h : server.Fits) :
    ServerProfile.of_value server.to_value = some server := by
  obtain ⟨name, emoji, endpoint, public_key, address, private_key, management⟩ := server
  have hmanagement : ∀ m ∈ management, ManagedServer.of_value m.to_value = some m :=
    fun m hm => ManagedServer.of_value_to_value (h m hm)
  unfold to_value
  by_cases he : emoji = ""
  · subst he
    cases address <;> cases private_key <;> cases management with
    | none => rfl
    | some m =>
      show (do
        let m ← (ManagedServer.of_value m.to_value).map some
        return ServerProfile.mk _ _ _ _ _ _ m) = _
      rw [hmanagement m rfl]
      rfl
  · rw [if_neg he]
    cases address <;> cases private_key <;> cases management with
    | none => rfl
    | some m =>
      show (do
        let m ← (ManagedServer.of_value m.to_value).map some
        return ServerProfile.mk _ _ _ _ _ _ m) = _
      rw [hmanagement m rfl]
      rfl

/-- The numbers are within the types of their fields. -/
structure ControllerConfig.Fits (config : ControllerConfig) : Prop where
  servers : ∀ server ∈ config.servers, server.Fits
  routing : config.routing.Fits

/-- **What is written is read back.** -/
theorem ControllerConfig.of_value_to_value {config : ControllerConfig} (h : config.Fits) :
    ControllerConfig.of_value config.to_value = some config := by
  obtain ⟨auto_update_enabled, macs, vpn_enabled, key, servers, routing⟩ := config
  have hmacs : (macs.map MacAddress.to_value).mapM MacAddress.of_value = some macs :=
    mapM_map fun mac _ => mac.of_value_to_value
  have hservers : (servers.map ServerProfile.to_value).mapM ServerProfile.of_value = some servers :=
    mapM_map fun server hs => ServerProfile.of_value_to_value (h.servers server hs)
  have hrouting : RoutingConfig.of_value routing.to_value = some routing :=
    RoutingConfig.of_value_to_value h.routing
  show (do
    let macs ← (macs.map MacAddress.to_value).mapM MacAddress.of_value
    let key ← Server.as_option as_string ((key.map text_value).getD .null)
    let servers ← (servers.map ServerProfile.to_value).mapM ServerProfile.of_value
    let routing ← RoutingConfig.of_value routing.to_value
    return (⟨auto_update_enabled, macs, vpn_enabled, key, servers, routing⟩ :
      ControllerConfig)) = _
  rw [hmacs, hservers, hrouting]
  cases key <;> rfl

variable [Management] [Idna]

/-- A server of a configuration that is loaded. -/
def load_server (server : ServerProfile) : Except String ServerProfile := do
  let name ← normalize_server_name server.name
  validate_saved_server { server with name }
  return { server with name }

/-- Reading the file: it is decoded, checked and brought into normal form. -/
def load (contents : Value) : Except String ControllerConfig := do
  let config ← or_error "invalid controller.json" (ControllerConfig.of_value contents)
  let servers ← config.servers.mapM load_server
  let routing ← normalize_routing config.routing
  let device_exclusions ← normalize_exclusions config.device_exclusions
  return { config with servers, routing, device_exclusions }

/-- The file that `save` writes. -/
def saved_text (config : ControllerConfig) : String := to_string_pretty config.to_value

/-- `load`, from the text of the file. -/
def load_text (contents : String) : Except String ControllerConfig := do
  load (← or_error "invalid controller.json" (from_str contents))

/-! ## What is loaded unchanged -/

omit [Idna] in
theorem load_server_eq_ok {server server' : ServerProfile} : load_server server = .ok server' ↔
    ∃ name, normalize_server_name server.name = .ok name ∧ server' = { server with name } ∧
      validate_saved_server server' = .ok () := by
  simp only [load_server, bind_eq_ok]
  constructor
  · rintro ⟨name, hn, _, hv, he⟩
    cases he
    exact ⟨name, hn, rfl, hv⟩
  · rintro ⟨name, hn, rfl, hv⟩
    exact ⟨name, hn, (), hv, rfl⟩

omit [Idna] in
theorem load_server_fixed {server server' : ServerProfile} (h : load_server server = .ok server') :
    load_server server' = .ok server' := by
  obtain ⟨name, hn, rfl, hv⟩ := load_server_eq_ok.mp h
  exact load_server_eq_ok.mpr ⟨name, normalize_server_name_fixed hn, rfl, hv⟩

/-- A configuration that every check of `load` passes as it is. -/
structure Loadable (config : ControllerConfig) : Prop where
  fits : config.Fits
  servers : ∀ server ∈ config.servers, load_server server = .ok server
  routing : normalize_routing config.routing = .ok config.routing
  device_exclusions : normalize_exclusions config.device_exclusions = .ok config.device_exclusions

omit [Management] in
theorem fits_of_normalize_routing {input routing : RoutingConfig}
    (h : normalize_routing input = .ok routing) : routing.Fits := by
  obtain ⟨hd, hi⟩ := normalize_routing_length h
  intro order ho r hr
  obtain ⟨-, -, hmem⟩ := Normalized.ordered ⟨input, h⟩ order (Option.mem_def.mp ho)
  have hmem := hmem r hr
  have hmax : MAX_RULES ≤ USIZE_MAX := by decide
  cases r with
  | domain index => exact (hmem.le.trans hd).trans hmax
  | ip index => exact (hmem.le.trans hi).trans hmax

omit [Management] [Idna] in
theorem ManagedServer.fits_of_value {v : Value} {management : ManagedServer}
    (h : ManagedServer.of_value v = some management) : management.Fits := by
  simp only [ManagedServer.of_value, Option.bind_eq_bind, Option.bind_eq_some_iff, required,
    as_unsigned, Option.filter_eq_some_iff, decide_eq_true_eq] at h
  obtain ⟨_, -, _, -, port, ⟨_, -, _, -, -, hport⟩, _, -, he⟩ := h
  cases he
  exact hport

omit [Management] [Idna] in
theorem optional_eq_some {α : Type} {P : α → Prop} {members : List (String × Value)} {name : String}
    {item : Value → Option α} {a : Option α} (hitem : ∀ v a, item v = some a → P a)
    (h : optional members name item = some a) : ∀ b ∈ a, P b := by
  rintro b rfl
  simp only [Server.optional, Option.bind_eq_bind, Option.bind_eq_some_iff] at h
  obtain ⟨m, -, h⟩ := h
  cases m with
  | none => cases h
  | some v =>
    change Server.as_option item v = some (some b) at h
    unfold Server.as_option at h
    split at h
    · cases h
    · obtain ⟨b', hb, he⟩ := Option.map_eq_some_iff.mp h
      cases he
      exact hitem v _ hb

omit [Management] [Idna] in
theorem as_list_eq_some {α : Type} {P : α → Prop} {item : Value → Option α} {v : Value}
    {as : List α} (hitem : ∀ v a, item v = some a → P a) (h : as_list item v = some as) :
    ∀ a ∈ as, P a := by
  unfold as_list at h
  split at h
  · rename_i vs
    induction vs generalizing as with
    | nil =>
      cases h
      exact fun a ha => nomatch ha
    | cons v vs ih =>
      simp only [List.mapM_cons, Option.bind_eq_bind, Option.bind_eq_some_iff] at h
      obtain ⟨b, hb, bs, hbs, he⟩ := h
      cases he
      exact List.forall_mem_cons.mpr ⟨hitem v b hb, ih hbs⟩
  · cases h

omit [Management] [Idna] in
theorem ServerProfile.fits_of_value {v : Value} {server : ServerProfile}
    (h : ServerProfile.of_value v = some server) : server.Fits := by
  simp only [ServerProfile.of_value, Option.bind_eq_bind, Option.bind_eq_some_iff] at h
  obtain ⟨_, -, _, -, _, -, _, -, _, -, _, -, _, -, management, hm, he⟩ := h
  cases he
  exact optional_eq_some (fun _ _ => ManagedServer.fits_of_value) hm

/-- **What has been loaded** passes the checks again. -/
theorem loadable_of_load (hidna : Idna.Standard) {contents : Value} {config : ControllerConfig}
    (h : load contents = .ok config) : Loadable config := by
  simp only [load, bind_eq_ok] at h
  obtain ⟨read, hread, servers, hs, routing, hr, macs, hm, he⟩ := h
  cases he
  have hloaded : ∀ server ∈ servers, load_server server = .ok server := by
    have hself : servers.mapM load_server = .ok servers :=
      mapM_self (mapM_eq_ok.mp hs) fun _ _ => load_server_fixed
    rw [mapM_eq_ok, List.forall₂_same] at hself
    exact hself
  have hfits : ∀ server ∈ servers, server.Fits := by
    have hread : ∀ server ∈ read.servers, server.Fits := by
      have hvalue : ControllerConfig.of_value contents = some read := by
        unfold or_error at hread
        split at hread
        · cases hread
          assumption
        · cases hread
      simp only [ControllerConfig.of_value, Option.bind_eq_bind, Option.bind_eq_some_iff,
        required] at hvalue
      obtain ⟨_, -, _, -, _, -, _, -, _, -, list, ⟨_, -, _, -, hlist⟩, _, -, he⟩ := hvalue
      cases he
      exact as_list_eq_some (fun _ _ => ServerProfile.fits_of_value) hlist
    intro server hmem
    obtain ⟨i, hi, rfl⟩ := List.mem_iff_getElem.mp hmem
    have hall := mapM_eq_ok.mp hs
    obtain ⟨name, -, he, -⟩ := load_server_eq_ok.mp (hall.get (hall.length_eq ▸ hi) hi)
    rw [List.get_eq_getElem] at he
    rw [he]
    exact fun m hm => hread _ (List.get_mem _ _) m hm
  exact ⟨⟨hfits, fits_of_normalize_routing hr⟩, hloaded, normalize_routing_fixed hidna hr,
    normalize_exclusions_fixed hm⟩

/-! ### Depth -/

omit [Management] [Idna] in
theorem depthItems_map {α : Type} {f : α → Value} {as : List α} {n : ℕ}
    (h : ∀ a ∈ as, (f a).depth ≤ n) : depthItems (as.map f) ≤ n := by
  apply Server.depthItems_le
  rintro _ hv
  obtain ⟨a, ha, rfl⟩ := List.mem_map.mp hv
  exact h a ha

omit [Management] [Idna] in
theorem depthMembers_append (ms ms' : List (String × Value)) :
    depthMembers (ms ++ ms') = max (depthMembers ms) (depthMembers ms') := by
  induction ms with
  | nil => rw [List.nil_append, depthMembers, Nat.zero_max]
  | cons m ms ih => rw [List.cons_append, depthMembers, depthMembers, ih, max_assoc]

omit [Management] [Idna] in
theorem depthMembers_option {α : Type} {f : α → String × Value} {o : Option α} {n : ℕ}
    (h : ∀ a ∈ o, (f a).2.depth ≤ n) : depthMembers (o.toList.map f) ≤ n := by
  cases o with
  | none => exact Nat.zero_le n
  | some a =>
    rw [Option.toList_some, List.map_cons, List.map_nil, depthMembers, depthMembers, Nat.max_zero]
    exact h a rfl

omit [Management] [Idna] in
theorem DomainRule.depth_to_value (rule : DomainRule) : rule.to_value.depth = 2 := by
  obtain ⟨name, enabled, matcher, target⟩ := rule
  cases matcher <;> rfl

omit [Management] [Idna] in
theorem IpRule.depth_to_value (rule : IpRule) : rule.to_value.depth = 2 := by
  obtain ⟨name, enabled, matcher, target⟩ := rule
  cases matcher <;> rfl

omit [Management] [Idna] in
theorem RuleRef.depth_to_value (r : RuleRef) : r.to_value.depth = 1 := by
  cases r <;> rfl

omit [Management] [Idna] in
theorem RoutingConfig.depth_to_value (routing : RoutingConfig) : routing.to_value.depth ≤ 4 := by
  have hdomain : depthItems (routing.domain_rules.map DomainRule.to_value) ≤ 2 :=
    depthItems_map fun rule _ => rule.depth_to_value.le
  have hip : depthItems (routing.ip_rules.map IpRule.to_value) ≤ 2 :=
    depthItems_map fun rule _ => rule.depth_to_value.le
  have horder : depthMembers (routing.rule_order.toList.map fun order =>
      ("rule_order", Value.array (order.map RuleRef.to_value))) ≤ 2 := by
    refine depthMembers_option fun order _ => ?_
    rw [Value.depth]
    exact Nat.succ_le_succ (depthItems_map fun r _ => r.depth_to_value.le)
  simp only [to_value, Value.depth, depthMembers_append, depthMembers, text_value]
  omega

omit [Management] [Idna] in
theorem ServerProfile.depth_to_value (server : ServerProfile) : server.to_value.depth ≤ 2 := by
  have hemoji : depthMembers (if server.emoji = "" then [] else
      [("emoji", text_value server.emoji)]) ≤ 1 := by
    split_ifs <;> exact Nat.zero_le 1
  have haddress : depthMembers (server.client_tunnel_address.toList.map fun address =>
      ("client_tunnel_address", text_value address)) ≤ 1 :=
    depthMembers_option fun _ _ => Nat.zero_le 1
  have hkey : depthMembers (server.client_private_key.toList.map fun key =>
      ("client_private_key", text_value key)) ≤ 1 :=
    depthMembers_option fun _ _ => Nat.zero_le 1
  have hmanagement : depthMembers (server.management.toList.map fun management =>
      ("management", management.to_value)) ≤ 1 :=
    depthMembers_option fun _ _ => Nat.le_refl 1
  simp only [to_value, Value.depth, depthMembers_append, depthMembers, text_value] at *
  omega

omit [Management] [Idna] in
theorem ControllerConfig.depth_to_value (config : ControllerConfig) :
    config.to_value.depth ≤ MAX_DEPTH := by
  have hmacs : depthItems (config.device_exclusions.map MacAddress.to_value) ≤ 0 :=
    depthItems_map fun mac _ => Nat.le_refl 0
  have hkey : ((config.active_server_key.map text_value).getD .null).depth = 0 := by
    cases config.active_server_key <;> rfl
  have hservers : depthItems (config.servers.map ServerProfile.to_value) ≤ 2 :=
    depthItems_map fun server _ => server.depth_to_value
  have hrouting := config.routing.depth_to_value
  simp only [to_value, Value.depth, depthMembers, hkey, MAX_DEPTH]
  omega

/-- **A saved configuration is loaded unchanged.** -/
theorem Loadable.reload {config : ControllerConfig} (h : Loadable config) :
    load_text (saved_text config) = .ok config := by
  have hservers : config.servers.mapM load_server = .ok config.servers := by
    rw [mapM_eq_ok, List.forall₂_same]
    exact h.servers
  rw [load_text, saved_text, from_str_to_string_pretty config.depth_to_value]
  show load config.to_value = _
  rw [load, ControllerConfig.of_value_to_value h.fits]
  simp only [or_error, bind, Except.bind, hservers, h.routing, h.device_exclusions]
  rfl

end Gofro.Agent
