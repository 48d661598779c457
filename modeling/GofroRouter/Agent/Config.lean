import GofroRouter.Agent.Model
import GofroRouter.Lib.Text

/-!
# Validation and normalization of the configuration

`config.rs`, and the LAN checks of `main.rs`. The domain functions of the `idna` package and the
checks of a server's management host are parameters.

* `normalize_routing`: the saved form of a routing configuration; `check_order_iff` says which rule
  orders it accepts; **`Normalized.ordered`**, `Normalized.cidr`.
* `normalize_exclusions`: keeps the set of addresses (`mem_normalize_exclusions`).
* `validate_server`, `validate_lan`.
-/

namespace Gofro.Agent

open Text

/-- Lower case for all of Unicode, and the ASCII form of a domain. -/
class Idna where
  to_lowercase : String → String
  domain_to_ascii : String → Option String

/-- `validate_management`: host and SSH host key of a managed server. -/
class Management where
  validate_management : ManagedServer → Except String Unit

def MAX_RULES : ℕ := 128

/-- `bail!(message)` if the condition holds. -/
def bail_if (cond : Bool) (message : String) : Except String Unit :=
  if cond then .error message else .ok ()

@[simp] theorem bail_if_eq_ok {cond : Bool} {message : String} {u : Unit} :
    bail_if cond message = .ok u ↔ cond = false := by
  cases cond <;> simp [bail_if]

theorem bind_eq_ok {ε α β : Type} {x : Except ε α} {f : α → Except ε β} {b : β} :
    x >>= f = .ok b ↔ ∃ a, x = .ok a ∧ f a = .ok b := by
  cases x with
  | error e => simp [bind, Except.bind]
  | ok a => simp [bind, Except.bind]

/-! ## Servers -/

/-- Between 1 and 60 characters, none of them a control character. -/
def validate_server_name (name : String) : Except String Unit :=
  bail_if (name.toList = [] || 60 < name.toList.length || name.toList.any is_control)
    "имя сервера должно содержать от 1 до 60 символов"

/-- The trimmed name. -/
def normalize_server_name (name : String) : Except String String := do
  let name := trim name
  validate_server_name name
  return name

/-- The sign of a server may be empty. -/
def validate_emoji (emoji : String) : Except String Unit :=
  bail_if (32 < len emoji || emoji.toList.any is_control) "некорректный значок сервера"

/-- The client's own address in the tunnel, one of the hosts that the server gives away. -/
def normalize_tunnel_address (address : String) : Except String String := do
  let some network := Ipv4.Net.ofString? address
    | .error "некорректный Address в WireGuard-профиле"
  let host := network.addr.toNat % 256
  bail_if (network.prefix_len != 32 || network.addr.toNat / 256 != (10 * 256 + 202) * 256 ||
      !(2 ≤ host && host ≤ 254))
    "Gofro поддерживает Address из диапазона 10.202.0.2-10.202.0.254/32"
  return network.toString

/-- A key is looked at as a text only: 43 characters of base64 and a `=`. -/
def validate_wireguard_key (key kind : String) : Except String Unit :=
  bail_if (len key != 44 || key.toList.getLast? != some '=' ||
      !(key.toList.dropLast.all fun c => is_ascii_alphanumeric c || c = '+' || c = '/'))
    ("некорректный WireGuard " ++ kind ++ " key")

/-- A host and a port, split at the last colon. -/
def validate_endpoint (endpoint : String) : Except String Unit := do
  bail_if (endpoint.toList = [] || 255 < len endpoint || endpoint.toList.any is_whitespace)
    "некорректный endpoint"
  let some (host, port) := rsplit_once ':' endpoint
    | .error "endpoint должен иметь формат host:port"
  bail_if (host = [] || ((parse_unsigned 10 65535 port).filter (0 < ·)).isNone)
    "endpoint должен иметь формат host:port"

/-- The checks that a server passes when it is saved, but for its profile. -/
def validate_saved_server [Management] (server : ServerProfile) : Except String Unit := do
  validate_server_name server.name
  validate_emoji server.emoji
  validate_endpoint server.endpoint
  validate_wireguard_key server.public_key "public"
  if let some address := server.client_tunnel_address then
    discard (normalize_tunnel_address address)
  if let some private_key := server.client_private_key then
    validate_wireguard_key private_key "private"
  if let some management := server.management then
    Management.validate_management management

/-- New profiles must not have an IPv6 endpoint. -/
def validate_server [Management] (server : ServerProfile) : Except String Unit := do
  validate_saved_server server
  bail_if ((rsplit_once ':' server.endpoint).any fun p => p.1.any (· ∈ [':', '[', ']']))
    "IPv6 endpoint не поддерживается. Укажите IPv4-адрес или имя сервера с IPv4 в формате host:port."

/-! ## Rule order -/

/-- Mark rule `index` of a kind as seen. -/
def mark_seen (kind : String) (seen : List Bool) (index : ℕ) : Except String (List Bool) :=
  match seen[index]? with
  | none => .error (kind ++ " правило в порядке отсутствует")
  | some true => .error "правило в порядке указано несколько раз"
  | some false => .ok (seen.set index true)

/-- The loop over `rule_order`, with the marks of both kinds of rules. -/
def check_order : List RuleRef → List Bool → List Bool → Except String Unit
  | [], _, _ => .ok ()
  | .domain index :: order, domains, ips => do
    check_order order (← mark_seen "domain" domains index) ips
  | .ip index :: order, domains, ips => do
    check_order order domains (← mark_seen "ip" ips index)

theorem mark_seen_eq_ok {kind : String} {seen seen' : List Bool} {index : ℕ} :
    mark_seen kind seen index = .ok seen' ↔
      seen[index]? = some false ∧ seen' = seen.set index true := by
  unfold mark_seen
  cases h : seen[index]? with
  | none => simp
  | some b => cases b <;> simp [eq_comm]

theorem getElem?_set_true {seen : List Bool} {i j : ℕ} :
    (seen.set i true)[j]? = some false ↔ seen[j]? = some false ∧ j ≠ i := by
  rw [List.getElem?_set]
  by_cases h : i = j
  · subst h
    simp only [if_true, ne_eq, not_true_eq_false, and_false, iff_false]
    split_ifs <;> simp
  · simp [h, eq_comm]

/-- The unmarked rules, as references. -/
def Unseen (domains ips : List Bool) : RuleRef → Prop
  | .domain index => domains[index]? = some false
  | .ip index => ips[index]? = some false

/-- **An order is accepted** exactly when it names unmarked rules, each at most once. -/
theorem check_order_iff {order : List RuleRef} {domains ips : List Bool} :
    check_order order domains ips = .ok () ↔
      order.Nodup ∧ ∀ r ∈ order, Unseen domains ips r := by
  induction order generalizing domains ips with
  | nil => simp [check_order]
  | cons r order ih =>
    rw [List.nodup_cons, List.forall_mem_cons]
    cases r with
    | domain index =>
      have hstep : (∀ r ∈ order, Unseen (domains.set index true) ips r) ↔
          (∀ r ∈ order, Unseen domains ips r) ∧ RuleRef.domain index ∉ order := by
        constructor
        · refine fun h => ⟨fun r hr => ?_, fun hr => (getElem?_set_true.mp (h _ hr)).2 rfl⟩
          have := h r hr
          cases r with
          | domain j => exact (getElem?_set_true.mp this).1
          | ip j => exact this
        · rintro ⟨h, hn⟩ r hr
          cases r with
          | domain j =>
            exact getElem?_set_true.mpr ⟨h _ hr, fun e => hn (e ▸ hr)⟩
          | ip j => exact h _ hr
      simp only [check_order, bind_eq_ok, mark_seen_eq_ok]
      constructor
      · rintro ⟨_, ⟨hi, rfl⟩, hc⟩
        obtain ⟨hn, ha⟩ := ih.mp hc
        exact ⟨⟨(hstep.mp ha).2, hn⟩, hi, (hstep.mp ha).1⟩
      · rintro ⟨⟨hm, hn⟩, hi, ha⟩
        exact ⟨_, ⟨hi, rfl⟩, ih.mpr ⟨hn, hstep.mpr ⟨ha, hm⟩⟩⟩
    | ip index =>
      have hstep : (∀ r ∈ order, Unseen domains (ips.set index true) r) ↔
          (∀ r ∈ order, Unseen domains ips r) ∧ RuleRef.ip index ∉ order := by
        constructor
        · refine fun h => ⟨fun r hr => ?_, fun hr => (getElem?_set_true.mp (h _ hr)).2 rfl⟩
          have := h r hr
          cases r with
          | domain j => exact this
          | ip j => exact (getElem?_set_true.mp this).1
        · rintro ⟨h, hn⟩ r hr
          cases r with
          | domain j => exact h _ hr
          | ip j =>
            exact getElem?_set_true.mpr ⟨h _ hr, fun e => hn (e ▸ hr)⟩
      simp only [check_order, bind_eq_ok, mark_seen_eq_ok]
      constructor
      · rintro ⟨_, ⟨hi, rfl⟩, hc⟩
        obtain ⟨hn, ha⟩ := ih.mp hc
        exact ⟨⟨(hstep.mp ha).2, hn⟩, hi, (hstep.mp ha).1⟩
      · rintro ⟨⟨hm, hn⟩, hi, ha⟩
        exact ⟨_, ⟨hi, rfl⟩, ih.mpr ⟨hn, hstep.mpr ⟨ha, hm⟩⟩⟩

/-- `normalize_routing` accepts exactly the orders that name every rule once. -/
theorem check_order_replicate {order : List RuleRef} {domains ips : ℕ} :
    check_order order (List.replicate domains false) (List.replicate ips false) = .ok () ↔
      order.Nodup ∧ ∀ r ∈ order, match r with
        | .domain index => index < domains
        | .ip index => index < ips := by
  rw [check_order_iff]
  refine and_congr_right fun _ => forall₂_congr fun r _ => ?_
  cases r <;> simp [Unseen, List.getElem?_replicate]

/-! ## Routing rules -/

/-- A rule's name is trimmed before it is checked. -/
def normalize_rule_name (name : String) : Except String String := do
  let name := trim name
  bail_if (name.toList = [] || 64 < name.toList.length || name.toList.any is_control)
    "название правила должно содержать от 1 до 64 символов"
  return name

/-- A label of a domain that `normalize_domain` refuses. -/
def bad_label (label : List Char) : Bool :=
  label = [] || 63 < byteLen label || label.head? = some '-' || ends_with '-' label ||
    !(label.all fun c => is_ascii_alphanumeric c || c = '-')

/-- Lower case first, then ASCII; the result has to be a domain of the usual form. -/
def normalize_domain [Idna] (value : String) : Except String String := do
  let value := Idna.to_lowercase (trim_end_matches '.' (trim value))
  let some ascii := Idna.domain_to_ascii value | .error "некорректное доменное имя"
  bail_if (ascii.toList = [] || 253 < len ascii || (split '.' ascii).any bad_label)
    "некорректное доменное имя"
  return ascii

/-- Tags are in lower case, as in the catalogs. -/
def normalize_tag (value : String) : Except String String := do
  let value := to_ascii_lowercase (trim value)
  bail_if (value.toList = [] || 64 < len value ||
      !(value.toList.all fun c => is_ascii_alphanumeric c || c = '!' || c = '-' || c = '_'))
    "некорректный тег GeoSite/GeoIP"
  return value

/-- The networks reserved for fake addresses. -/
def FAKE_DNS : Ipv4Net := ⟨Ipv4.addr 198 18 0 0, 15, by norm_num⟩

/-- The network without its host bits, unless it meets the fake addresses. -/
def normalize_cidr (value : String) : Except String String := do
  let some network := Ipv4.Net.ofString? value
    | .error "правило CIDR должно содержать корректную IPv4-сеть"
  bail_if (network.contains FAKE_DNS.network || FAKE_DNS.contains network.network)
    "диапазон FakeDNS 198.18.0.0/15 зарезервирован"
  return network.trunc.toString

def normalize_domain_match [Idna] : DomainMatch → Except String DomainMatch
  | .exact value => return .exact (← normalize_domain value)
  | .suffix value => return .suffix (← normalize_domain value)
  | .geoSite value => return .geoSite (← normalize_tag value)

/-- A network, or the tag of a list of networks. -/
def normalize_ip_match : IpMatch → Except String IpMatch
  | .cidr value => return .cidr (← normalize_cidr value)
  | .geoIp value => return .geoIp (← normalize_tag value)

/-- The name and the matcher; the target and the switch stay. -/
def normalize_domain_rule [Idna] (rule : DomainRule) : Except String DomainRule := do
  let name ← normalize_rule_name rule.name
  let matcher ← normalize_domain_match rule.matcher
  return { rule with name, matcher }

def normalize_ip_rule (rule : IpRule) : Except String IpRule := do
  let name ← normalize_rule_name rule.name
  let matcher ← normalize_ip_match rule.matcher
  return { rule with name, matcher }

/-- The rule order, if there is one, names every rule exactly once. -/
def validate_order (routing : RoutingConfig) : Except String Unit :=
  match routing.rule_order with
  | none => .ok ()
  | some order => do
    bail_if (order.length != routing.domain_rules.length + routing.ip_rules.length)
      "порядок правил должен содержать каждое правило ровно один раз"
    check_order order (List.replicate routing.domain_rules.length false)
      (List.replicate routing.ip_rules.length false)

/-- The whole configuration: at most 128 rules of either kind, each in its normal form. -/
def normalize_routing [Idna] (routing : RoutingConfig) : Except String RoutingConfig := do
  bail_if (MAX_RULES < routing.domain_rules.length || MAX_RULES < routing.ip_rules.length)
    "допускается не более 128 правил каждого типа"
  validate_order routing
  let domain_rules ← routing.domain_rules.mapM normalize_domain_rule
  let ip_rules ← routing.ip_rules.mapM normalize_ip_rule
  return { routing with domain_rules, ip_rules }

/-- A saved routing configuration. -/
def Normalized [Idna] (routing : RoutingConfig) : Prop :=
  ∃ input, normalize_routing input = .ok routing

theorem mapM_eq_ok {α β : Type} {f : α → Except String β} {l : List α} {l' : List β} :
    l.mapM f = .ok l' ↔ List.Forall₂ (fun a b => f a = .ok b) l l' := by
  induction l generalizing l' with
  | nil => simp [pure, Except.pure, eq_comm]
  | cons a l ih =>
    rw [List.mapM_cons, bind_eq_ok, List.forall₂_cons_left_iff]
    refine exists_congr fun b => ?_
    simp only [bind_eq_ok, ih, pure, Except.pure, Except.ok.injEq]
    grind

theorem normalize_cidr_eq_ok {value value' : String} (h : normalize_cidr value = .ok value') :
    ∃ n : Ipv4Net, Ipv4.Net.ofString? value' = some n ∧ n.trunc = n ∧
      n.contains FAKE_DNS.network = false ∧ FAKE_DNS.contains n.network = false := by
  unfold normalize_cidr at h
  split at h
  · rename_i network hn
    simp only [bind_eq_ok, bail_if_eq_ok, Bool.or_eq_false_iff] at h
    obtain ⟨-, ⟨h₁, h₂⟩, h⟩ := h
    cases h
    exact ⟨network.trunc, Ipv4.Net.ofString?_toString _, Ipv4.Net.trunc_trunc _,
      by rw [Ipv4.Net.trunc_contains]; exact h₁, by rw [Ipv4.Net.trunc_network]; exact h₂⟩
  · cases h

/-- The rule order, if there is one, is a permutation of the rules. -/
def RoutingConfig.Ordered (config : RoutingConfig) : Prop :=
  ∀ order, config.rule_order = some order →
    order.length = config.domain_rules.length + config.ip_rules.length ∧ order.Nodup ∧
      ∀ r ∈ order, match r with
        | .domain index => index < config.domain_rules.length
        | .ip index => index < config.ip_rules.length

theorem validate_order_eq_ok {routing : RoutingConfig} :
    validate_order routing = .ok () ↔ routing.Ordered := by
  unfold validate_order RoutingConfig.Ordered
  cases routing.rule_order with
  | none => simp
  | some order =>
    simp only [bind_eq_ok, bail_if_eq_ok, bne_eq_false_iff_eq, check_order_replicate,
      Option.some.injEq, forall_eq']
    exact ⟨fun ⟨_, h⟩ => h, fun h => ⟨(), h⟩⟩

theorem normalize_routing_eq_ok [Idna] {input routing : RoutingConfig}
    (h : normalize_routing input = .ok routing) :
    input.Ordered ∧ routing.rule_order = input.rule_order ∧
      List.Forall₂ (fun a b => normalize_domain_rule a = .ok b) input.domain_rules
        routing.domain_rules ∧
      List.Forall₂ (fun a b => normalize_ip_rule a = .ok b) input.ip_rules routing.ip_rules := by
  unfold normalize_routing at h
  simp only [bind_eq_ok, mapM_eq_ok] at h
  obtain ⟨_, -, _, ho, domain_rules, hd, ip_rules, hi, he⟩ := h
  cases he
  exact ⟨validate_order_eq_ok.mp ho, rfl, hd, hi⟩

/-- **A normalized order is a permutation of the rules.** -/
theorem Normalized.ordered [Idna] {routing : RoutingConfig} (h : Normalized routing) :
    routing.Ordered := by
  obtain ⟨input, h⟩ := h
  obtain ⟨ho, he, hd, hi⟩ := normalize_routing_eq_ok h
  unfold RoutingConfig.Ordered
  rw [he, ← hd.length_eq, ← hi.length_eq]
  exact ho

theorem Normalized.length_le [Idna] {routing : RoutingConfig} (h : Normalized routing) :
    routing.ip_rules.length ≤ MAX_RULES := by
  obtain ⟨input, h⟩ := h
  have hlen := (normalize_routing_eq_ok h).2.2.2.length_eq
  simp only [normalize_routing, bind_eq_ok, bail_if_eq_ok, Bool.or_eq_false_iff,
    decide_eq_false_iff_not, not_lt] at h
  obtain ⟨_, hle, -⟩ := h
  exact hlen ▸ hle.2

/-- A normalized CIDR is a network that does not overlap the fake addresses. -/
theorem Normalized.cidr [Idna] {routing : RoutingConfig} (h : Normalized routing) {rule : IpRule}
    (hr : rule ∈ routing.ip_rules) {value : String} (hm : rule.matcher = .cidr value) :
    ∃ n : Ipv4Net, Ipv4.Net.ofString? value = some n ∧ n.trunc = n ∧
      n.contains FAKE_DNS.network = false ∧ FAKE_DNS.contains n.network = false := by
  obtain ⟨input, h⟩ := h
  obtain ⟨-, -, -, hi⟩ := normalize_routing_eq_ok h
  obtain ⟨i, hlt, rfl⟩ := List.mem_iff_getElem.mp hr
  have hstep := hi.get (by rw [hi.length_eq]; exact hlt) hlt
  simp only [normalize_ip_rule, bind_eq_ok] at hstep
  obtain ⟨name, -, matcher, hc, he⟩ := hstep
  have hmatcher : matcher = .cidr value := by
    rw [← hm]
    exact congrArg IpRule.matcher (Except.ok.inj he)
  subst hmatcher
  revert hc
  cases (input.ip_rules.get _).matcher with
  | cidr v =>
    simp only [normalize_ip_match, bind_eq_ok, pure, Except.pure, Except.ok.injEq,
      IpMatch.cidr.injEq, exists_eq_right]
    exact normalize_cidr_eq_ok
  | geoIp v => simp [normalize_ip_match, bind_eq_ok, pure, Except.pure]

/-! ## Device exclusions -/

instance : LE MacAddress := ⟨fun a b => a.bits ≤ b.bits⟩
instance : DecidableLE MacAddress := fun a b => inferInstanceAs (Decidable (a.bits ≤ b.bits))

/-- `Vec::dedup`: of equal neighbours, keep the first. -/
def dedup {α : Type} [DecidableEq α] : List α → List α
  | [] => []
  | [a] => [a]
  | a :: b :: l => if a = b then dedup (b :: l) else a :: dedup (b :: l)

theorem mem_dedup {α : Type} [DecidableEq α] {a : α} {l : List α} : a ∈ dedup l ↔ a ∈ l := by
  fun_induction dedup l with
  | case1 => rfl
  | case2 => rfl
  | case3 a l ih => rw [ih]; simp
  | case4 b c l hne ih => rw [List.mem_cons, ih, List.mem_cons (a := a) (b := b)]

theorem pairwise_dedup {α : Type} [DecidableEq α] {r : α → α → Prop} {l : List α}
    (hr : ∀ a b, r a b → r b a → a = b) (h : l.Pairwise r) :
    (dedup l).Pairwise fun a b => r a b ∧ a ≠ b := by
  fun_induction dedup l with
  | case1 => exact .nil
  | case2 a => exact List.pairwise_singleton _ a
  | case3 a l ih => exact ih (List.pairwise_cons.mp h).2
  | case4 b c l hne ih =>
    obtain ⟨hb, hl⟩ := List.pairwise_cons.mp h
    refine List.pairwise_cons.mpr ⟨fun a ha => ?_, ih hl⟩
    rw [mem_dedup] at ha
    refine ⟨hb a ha, ?_⟩
    rintro rfl
    rcases List.mem_cons.mp ha with rfl | ha
    · exact hne rfl
    · exact hne (hr b c (hb c List.mem_cons_self) ((List.pairwise_cons.mp hl).1 b ha))

/-- Hardware addresses in order, each once. -/
def normalize_exclusions (macs : List MacAddress) : Except String (List MacAddress) := do
  let macs := dedup (macs.mergeSort (· ≤ ·))
  bail_if (256 < macs.length) "at most 256 device exclusions are allowed"
  return macs

/-- **Normalization keeps the set of excluded devices.** -/
theorem mem_normalize_exclusions {macs macs' : List MacAddress}
    (h : normalize_exclusions macs = .ok macs') (a : MacAddress) : a ∈ macs' ↔ a ∈ macs := by
  simp only [normalize_exclusions, bind_eq_ok] at h
  obtain ⟨_, -, he⟩ := h
  cases he
  rw [mem_dedup, List.mem_mergeSort]

/-! ## The LAN (`main.rs`) -/

/-- The name of a network device, as Linux takes it. -/
def validate_interface (interface : String) : Except String Unit :=
  bail_if (interface.toList = [] || 15 < len interface ||
      !(interface.toList.all fun c => is_ascii_alphanumeric c || c = '-' || c = '_' || c = '.'))
    "invalid interface name"

def is_loopback (ip : Ipv4Addr) : Bool := ip.toNat / 2 ^ 24 = 127
def is_multicast (ip : Ipv4Addr) : Bool := ip.toNat / 2 ^ 28 = 14

/-- The tunnel's network and the fake addresses. -/
def RESERVED : List Ipv4Net := [⟨Ipv4.addr 10 202 0 0, 24, Ipv4.Net.prefix_24⟩, FAKE_DNS]

/-- The LAN context of the command line. -/
def validate_lan (lan : LanContext) : Except String Unit := do
  validate_interface lan.device
  bail_if (lan.address = 0 || is_loopback lan.address || is_multicast lan.address ||
      !lan.subnet.contains lan.address || 30 < lan.subnet.prefix_len ||
      lan.address = lan.subnet.network || lan.address = lan.subnet.broadcast)
    "LAN address must be a usable host in --lan-subnet"
  RESERVED.forM fun reserved =>
    bail_if (lan.subnet.contains reserved.network || reserved.contains lan.subnet.network)
      ("LAN subnet overlaps reserved " ++ reserved.toString)

theorem forM_eq_ok {α : Type} {f : α → Except String Unit} {l : List α} :
    l.forM f = .ok () ↔ ∀ a ∈ l, f a = .ok () := by
  induction l with
  | nil => simp [pure, Except.pure]
  | cons a l ih =>
    rw [List.forall_mem_cons, ← ih]
    exact bind_eq_ok.trans ⟨fun ⟨_, h⟩ => h, fun h => ⟨(), h⟩⟩

/-- **No address of an accepted subnet is reserved.** -/
theorem validate_lan_disjoint {lan : LanContext} (h : validate_lan lan = .ok ()) {n : Ipv4Net}
    (hn : n ∈ RESERVED) {ip : Ipv4Addr} (hip : n.contains ip = true) :
    lan.subnet.contains ip = false := by
  simp only [validate_lan, bind_eq_ok] at h
  obtain ⟨_, -, _, -, h⟩ := h
  have hbail := forM_eq_ok.mp h n hn
  rw [bail_if_eq_ok, Bool.or_eq_false_iff] at hbail
  rw [← Bool.not_eq_true]
  exact fun hs => Ipv4.Net.disjoint_of_not_contains hbail.1 hbail.2 ip ⟨hs, hip⟩

theorem FAKE_DNS_contains {ip : Ipv4Addr} (h : FIRST_FAKE ≤ ip ∧ ip ≤ LAST_FAKE) :
    FAKE_DNS.contains ip = true := by
  have h₁ : FAKE_DNS.first = 198 * 2 ^ 24 + 18 * 2 ^ 16 := by decide +kernel
  have h₂ : FAKE_DNS.last = 198 * 2 ^ 24 + 19 * 2 ^ 16 + 255 * 2 ^ 8 + 255 := by decide +kernel
  have h₃ : FIRST_FAKE.toNat = 198 * 2 ^ 24 + 18 * 2 ^ 16 + 1 := by decide +kernel
  have h₄ : LAST_FAKE.toNat = 198 * 2 ^ 24 + 19 * 2 ^ 16 + 255 * 2 ^ 8 + 254 := by decide +kernel
  rw [Ipv4.Net.contains_iff_bounds, h₁, h₂]
  rw [BitVec.le_def, BitVec.le_def, h₃, h₄] at h
  omega

end Gofro.Agent
