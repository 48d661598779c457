import GofroRouter.Agent.Config
import GofroRouter.Lib.IpAddr
import GofroRouter.Lib.WireGuard
import GofroRouter.Relay.Codec

/-!
# Names, keys and addresses

What the server checks of its arguments: names and keys of peers, tunnel addresses, endpoints, and
which tunnel address is free. What `wg show allowed-ips` prints is kept as the words of its lines.

* `validate_tunnel_ip_eq_ok`: a tunnel address is one of `10.202.0.2`–`10.202.0.254`.
* `allocate_tunnel_ip_eq_ok`: what is allocated is covered by no route.
* `routes_conflict_eq_false`: routes in no conflict are disjoint from everyone else's.
-/

namespace Gofro.Server

open Text
open Gofro.Agent (bail_if bail_if_eq_ok bind_eq_ok)
open Ipv4 (Net)

/-- A live or saved interface: keys and routes as text. -/
abbrev Interface := WireGuard.Interface String String

/-- The only subnet that an owner was ever given. -/
def CLIENT_SUBNET : String := "10.203.1.0/24"

/-! ## Checks -/

/-- The trimmed name. -/
def validate_name (input : String) : Except String String := do
  let name := trim input
  bail_if (name.toList = [] || 60 < name.toList.length || name.toList.any is_control)
    "friend name must be 1-60 non-control characters"
  return name

/-- A key is looked at as a text only. -/
def validate_peer_key (value : String) : Except String Unit :=
  bail_if (len value != 44 || value.toList.getLast? != some '=' ||
      !(value.toList.dropLast.all fun c => is_ascii_alphanumeric c || c = '+' || c = '/'))
    "invalid WireGuard public key"

/-- A name that is safe in a path. -/
def interface_name (interface : String) : Except String Unit :=
  bail_if (interface.toList = [] ||
      !(interface.toList.all fun c => is_ascii_alphanumeric c || c ∈ ['_', '-', '.', ':']))
    "invalid WireGuard interface"

/-- An owner was once recognised by its subnet. -/
def legacy_owner : Option String → Except String Bool
  | none => .ok false
  | some subnet =>
    if subnet = CLIENT_SUBNET then .ok true
    else .error ("legacy subnet must be " ++ CLIENT_SUBNET)

/-- One host of the tunnel's subnet, other than the server itself. -/
def validate_tunnel_ip (value : String) : Except String Net := do
  let some network := Net.ofString? value
    | .error "tunnel IP must be an IPv4 network"
  let host := network.addr.toNat % 256
  bail_if (network.prefix_len != 32 || network.addr.toNat / 256 != (10 * 256 + 202) * 256 ||
      !(2 ≤ host && host ≤ 254))
    "tunnel IP must be in 10.202.0.2-10.202.0.254/32"
  return network

/-- The second source address of a router, for WARP. -/
def source_address (address : Ipv4.Addr) : Option Ipv4.Addr :=
  let host := address.toNat % 256
  if address.toNat / 256 = (10 * 256 + 202) * 256 ∧ 2 ≤ host ∧ host ≤ 254 then
    some (Ipv4.addr 10 202 1 host)
  else none

/-- The WARP alias of a tunnel address, as a network. -/
def warp_alias (primary : Net) : Except String Net :=
  match source_address primary.addr with
  | some address => .ok ⟨address, 32, le_refl 32⟩
  | none => .error "invalid WARP source"

/-- A host and a port. -/
def validate_endpoint (endpoint : String) : Except String Unit := do
  let some (host, port) := rsplit_once ':' endpoint
    | .error "endpoint must have host:port format"
  bail_if (255 < len endpoint || host = [] || endpoint.toList.any is_whitespace ||
      ((parse_unsigned 10 65535 port).filter (0 < ·)).isNone)
    "endpoint must have host:port format"

def BAD_ENDPOINT : String := "managed endpoint must have canonical IP:8443 format"

/-- The host without its brackets, if it has both. -/
def unbracketed (host : List Char) : List Char :=
  match host with
  | '[' :: inner => if inner.getLast? = some ']' then inner.dropLast else host
  | host => host

/-- A host as it is printed, in brackets if it is an IPv6 address. -/
def validate_managed_endpoint (endpoint : String) : Except String Unit := do
  let some (host, port) := rsplit_once ':' endpoint
    | .error BAD_ENDPOINT
  bail_if (port != "8443".toList) BAD_ENDPOINT
  let bracketed := host.head? = some '[' || host.getLast? = some ']'
  let host := String.ofList (unbracketed host)
  let some address := IpAddr.parse host
    | .error BAD_ENDPOINT
  bail_if (host != address.to_string || (address.is_ipv6 && !bracketed) ||
      (!address.is_ipv6 && bracketed))
    BAD_ENDPOINT

/-- The profile of a client, for its WireGuard. -/
def format_profile (private_key client_public_key server_public_key endpoint tunnel_ip : String) :
    String :=
  "# ClientPublicKey = " ++ client_public_key ++ "\n[Interface]\nPrivateKey = " ++ private_key ++
    "\nAddress = " ++ tunnel_ip ++ "\nMTU = " ++ Relay.TUNNEL_MTU.repr ++ "\n\n[Peer]\nPublicKey = " ++
    server_public_key ++ "\nAllowedIPs = 0.0.0.0/0\nEndpoint = " ++ endpoint ++
    "\nPersistentKeepalive = 10\n"

theorem validate_name_twice {input name : String} (h : validate_name input = .ok name) :
    validate_name name = .ok name := by
  simp only [validate_name, bind_eq_ok, bail_if_eq_ok] at h ⊢
  obtain ⟨_, hok, h⟩ := h
  cases h
  rw [trim_trim]
  exact ⟨(), hok, rfl⟩

theorem legacy_owner_eq_false {subnet : Option String} (h : legacy_owner subnet = .ok false) :
    subnet = none := by
  cases subnet with
  | none => rfl
  | some subnet =>
    rw [legacy_owner] at h
    split_ifs at h
    cases h

/-! ## Assigned routes -/

/-- The words after the key in a peer's line. -/
def fields (routes : List String) : List String := if routes = [] then ["(none)"] else routes

/-- The routes of a peer; texts that are no networks are left out. -/
def networks (routes : List String) : List Net := (fields routes).filterMap Net.ofString?

/-- The first host that no route covers. -/
def allocate_tunnel_ip (live : Interface) : Except String Net :=
  let assigned := (live.peers.flatMap fun p => p.1 :: fields p.2).filterMap Net.ofString?
  match (List.range' 2 253).find? fun host =>
      !assigned.any fun network => network.contains (Ipv4.addr 10 202 0 host) with
  | some host => validate_tunnel_ip (Net.toString ⟨Ipv4.addr 10 202 0 host, 32, le_refl 32⟩)
  | none => .error "no tunnel IP addresses are available"

/-- The routes overlap those of another peer. -/
def routes_conflict (live : Interface) (public_key : String) (routes : List Net) : Bool :=
  live.peers.any fun p => p.1 ≠ public_key && (networks p.2).any fun existing =>
    routes.any fun route => existing.contains route.network || route.contains existing.network

/-- The check before routes are given to a peer. -/
def ensure_routes_available (live : Interface) (public_key : String) (routes : List Net) :
    Except String Unit :=
  bail_if (routes_conflict live public_key routes)
    "tunnel IP or subnet is already assigned to another peer"

/-! ## Tunnel addresses -/

/-- The tunnel address of a host. -/
def tunnel (host : ℕ) : Net := ⟨Ipv4.addr 10 202 0 host, 32, le_refl 32⟩

/-- The WARP source address of a host. -/
def warp_source (host : ℕ) : Net := ⟨Ipv4.addr 10 202 1 host, 32, le_refl 32⟩

theorem addr_toNat {a b c d : ℕ} (ha : a < 256) (hb : b < 256) (hc : c < 256) (hd : d < 256) :
    (Ipv4.addr a b c d).toNat = a * 2 ^ 24 + b * 2 ^ 16 + c * 2 ^ 8 + d := by
  rw [Ipv4.addr, BitVec.toNat_ofNat, Nat.mod_eq_of_lt (by omega)]

theorem tunnel_toNat {host : ℕ} (h : host ≤ 254) :
    (tunnel host).addr.toNat = 10 * 2 ^ 24 + 202 * 2 ^ 16 + host := by
  show (Ipv4.addr 10 202 0 host).toNat = _
  rw [addr_toNat (by decide) (by decide) (by decide) (by omega)]
  omega

theorem warp_source_toNat {host : ℕ} (h : host ≤ 254) :
    (warp_source host).addr.toNat = 10 * 2 ^ 24 + 202 * 2 ^ 16 + 2 ^ 8 + host := by
  show (Ipv4.addr 10 202 1 host).toNat = _
  rw [addr_toNat (by decide) (by decide) (by decide) (by omega)]
  omega

theorem contains_single {n : Net} (h : n.prefix_len = 32) {ip : Ipv4.Addr} :
    n.contains ip = true ↔ ip = n.addr := by
  have hsize : n.size = 1 := by rw [Net.size, h, Nat.sub_self, pow_zero]
  rw [Net.contains_iff, hsize, Nat.div_one, Nat.div_one]
  exact ⟨BitVec.eq_of_toNat_eq, congrArg _⟩

/-- **A tunnel address** is `10.202.0.host/32`. -/
theorem validate_tunnel_ip_eq_ok {value : String} {network : Net} :
    validate_tunnel_ip value = .ok network ↔
      Net.ofString? value = some network ∧ ∃ host, 2 ≤ host ∧ host ≤ 254 ∧ network = tunnel host := by
  have hnet : ∀ n : Net, (n.prefix_len = 32 ∧ n.addr.toNat / 256 = (10 * 256 + 202) * 256 ∧
      2 ≤ n.addr.toNat % 256 ∧ n.addr.toNat % 256 ≤ 254) ↔
      ∃ host, 2 ≤ host ∧ host ≤ 254 ∧ n = tunnel host := by
    intro n
    constructor
    · rintro ⟨hp, hq, hlo, hhi⟩
      refine ⟨n.addr.toNat % 256, hlo, hhi, ?_⟩
      obtain ⟨addr, prefix_len, hle⟩ := n
      dsimp only at *
      subst hp
      have ha : addr = (tunnel (addr.toNat % 256)).addr := by
        apply BitVec.eq_of_toNat_eq
        rw [tunnel_toNat hhi]
        omega
      rw [Net.mk.injEq]
      exact ⟨ha, rfl⟩
    · rintro ⟨host, hlo, hhi, rfl⟩
      rw [tunnel_toNat hhi]
      exact ⟨rfl, by omega, by omega, by omega⟩
  unfold validate_tunnel_ip
  cases hn : Net.ofString? value with
  | none => simp
  | some n =>
    simp only [bind_eq_ok, bail_if_eq_ok, Option.some.injEq, pure, Except.pure, Except.ok.injEq,
      Bool.or_eq_false_iff, bne_eq_false_iff_eq, Bool.not_eq_false', Bool.and_eq_true,
      decide_eq_true_eq, exists_const]
    constructor
    · rintro ⟨⟨⟨hp, hq⟩, hlo, hhi⟩, rfl⟩
      exact ⟨rfl, (hnet n).mp ⟨hp, hq, hlo, hhi⟩⟩
    · rintro ⟨rfl, h⟩
      obtain ⟨hp, hq, hlo, hhi⟩ := (hnet n).mpr h
      exact ⟨⟨⟨hp, hq⟩, hlo, hhi⟩, rfl⟩

theorem validate_tunnel_ip_tunnel {host : ℕ} (hlo : 2 ≤ host) (hhi : host ≤ 254) :
    validate_tunnel_ip (tunnel host).toString = .ok (tunnel host) :=
  validate_tunnel_ip_eq_ok.mpr ⟨Net.ofString?_toString _, host, hlo, hhi, rfl⟩

theorem warp_alias_tunnel {host : ℕ} (hlo : 2 ≤ host) (hhi : host ≤ 254) :
    warp_alias (tunnel host) = .ok (warp_source host) := by
  have hn := tunnel_toNat hhi
  have hmod : (tunnel host).addr.toNat % 256 = host := by omega
  have hdiv : (tunnel host).addr.toNat / 256 = (10 * 256 + 202) * 256 := by omega
  have hs : source_address (tunnel host).addr = some (Ipv4.addr 10 202 1 host) := by
    rw [source_address]
    simp only [hmod, hdiv, hlo, hhi, and_self, if_true]
  rw [warp_alias, hs]
  rfl

/-- **What is allocated** is a tunnel address that no route covers. -/
theorem allocate_tunnel_ip_eq_ok {live : Interface} {network : Net}
    (h : allocate_tunnel_ip live = .ok network) :
    ∃ host, 2 ≤ host ∧ host ≤ 254 ∧ network = tunnel host ∧
      ∀ p ∈ live.peers, ∀ n ∈ networks p.2, n.contains (tunnel host).addr = false := by
  unfold allocate_tunnel_ip at h
  simp only at h
  split at h
  · rename_i host hf
    have hfree := List.find?_some hf
    have hmem := List.mem_of_find?_eq_some hf
    rw [List.mem_range'_1] at hmem
    have hlo : 2 ≤ host := hmem.1
    have hhi : host ≤ 254 := by omega
    refine ⟨host, hlo, hhi, ?_, ?_⟩
    · have hv := validate_tunnel_ip_tunnel hlo hhi
      exact (Except.ok.inj (hv.symm.trans h)).symm
    · intro p hp n hn
      rw [Bool.not_eq_true', List.any_eq_false] at hfree
      apply Bool.eq_false_of_not_eq_true
      apply hfree n
      rw [networks, List.mem_filterMap] at hn
      obtain ⟨r, hr, hn⟩ := hn
      exact List.mem_filterMap.mpr
        ⟨r, List.mem_flatMap.mpr ⟨p, hp, List.mem_cons_of_mem _ hr⟩, hn⟩
  · cases h

/-- **Routes in no conflict** are disjoint from those of every other peer. -/
theorem routes_conflict_eq_false {live : Interface} {public_key : String} {routes : List Net}
    (h : routes_conflict live public_key routes = false) :
    ∀ p ∈ live.peers, p.1 ≠ public_key → ∀ n ∈ networks p.2, ∀ route ∈ routes, ∀ ip,
      ¬ (n.contains ip = true ∧ route.contains ip = true) := by
  intro p hp hk n hn route hr ip
  rw [routes_conflict, List.any_eq_false] at h
  have hp' := h p hp
  rw [Bool.and_eq_true, not_and] at hp'
  have hall := Bool.eq_false_of_not_eq_true (hp' (decide_eq_true hk))
  rw [List.any_eq_false] at hall
  have hn' := Bool.eq_false_of_not_eq_true (hall n hn)
  rw [List.any_eq_false] at hn'
  have hr' := Bool.eq_false_of_not_eq_true (hn' route hr)
  rw [Bool.or_eq_false_iff] at hr'
  exact Net.disjoint_of_not_contains hr'.1 hr'.2 ip

theorem mem_networks {routes : List String} {r : String} {n : Net} (hr : r ∈ routes)
    (hn : Net.ofString? r = some n) : n ∈ networks routes := by
  have hne : routes ≠ [] := List.ne_nil_of_mem hr
  rw [networks, fields, if_neg hne]
  exact List.mem_filterMap.mpr ⟨r, hr, hn⟩

end Gofro.Server
