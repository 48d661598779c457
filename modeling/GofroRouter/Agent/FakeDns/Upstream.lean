import GofroRouter.Agent.Dataplane.Mark

/-!
# Where a DNS lookup goes

`upstream_route` of `resolver.rs`: names of the local network go to the local resolver, every other
name follows the policy's decision for its lookup.

* **`dns_never_leaks`**: a lookup is at least as protected as the traffic it leads to.
-/

namespace Gofro.Agent

open Geodata (RegexEngine Liveness Caches GeoData)
open RoutingPolicy (rank compile)

/-! ## Local names -/

/-- The names below these belong to the local network. -/
def LOCAL_SUFFIXES : List String := ["localhost", "lan", "local", "home", "home.arpa", "internal"]

/-- The parsed labels of a reverse name, the last label first. -/
def reverse_labels (reverse : List Char) (parse : List Char → Option ℕ) : Option (List ℕ) :=
  (reverse.splitOn '.').reverse.mapM parse

/-- The address of digits in base `2 ^ width`, of which the missing ones are zero. -/
def digits_value (width count : ℕ) (digits : List ℕ) : ℕ :=
  digits.foldl (fun n d => n * 2 ^ width + d) 0 * 2 ^ (width * (count - digits.length))

/-- A reverse name of IPv4, with the LAN's answer; `none` leaves the name to the next check. -/
def ipv4_reverse (domain : String) (lan : LanContext) : Option Bool :=
  match Text.strip_suffix domain ".in-addr.arpa" with
  | none => none
  | some reverse =>
    if 4 < (reverse.splitOn '.').length then none
    else match reverse_labels reverse (Text.parse_unsigned 10 255) with
      | none => some false
      | some octets =>
        let address := BitVec.ofNat 32 (digits_value 8 4 octets)
        some (is_lan_destination address || lan.subnet.contains address)

/-- Loopback, unique local, link local or multicast. -/
def local_ipv6 (address : ℕ) : Bool :=
  address = 1 || address / 2 ^ 121 = 0xfc / 2 || address / 2 ^ 118 = 0xfe80 / 2 ^ 6 ||
    address / 2 ^ 120 = 0xff

/-- One hexadecimal digit. -/
def parse_nibble (label : List Char) : Option ℕ :=
  if Text.byteLen label = 1 then Text.parse_unsigned 16 (2 ^ 128 - 1) label else none

/-- A reverse name of IPv6, whole or shortened to a zone. -/
def ipv6_reverse (domain : String) : Option Bool :=
  match Text.strip_suffix domain ".ip6.arpa" with
  | none => none
  | some reverse =>
    if 32 < (reverse.splitOn '.').length then none
    else match reverse_labels reverse parse_nibble with
      | none => some false
      | some nibbles => some (local_ipv6 (digits_value 4 32 nibbles))

/-- Names that are asked of the local upstream only. -/
def local_dns_name (domain : String) (lan : LanContext) : Bool :=
  if !domain.toList.contains '.' || LOCAL_SUFFIXES.any (Text.dottedSuffix domain) then true
  else ((ipv4_reverse domain lan).or (ipv6_reverse domain)).getD false

/-! ## Upstream routes -/

/-- Where an upstream server listens. -/
structure SocketAddr where
  ip : Ipv4Addr
  port : ℕ
deriving DecidableEq

/-- The resolver that is asked through the tunnel. -/
def TUNNEL_DNS_UPSTREAM : SocketAddr := ⟨Ipv4.addr 1 1 1 1, 53⟩

/-- The resolver that is asked through WARP. -/
def WARP_DNS_UPSTREAM : SocketAddr := ⟨Ipv4.addr 1 0 0 1, 53⟩

/-- The server to ask, and the mark of the packets. -/
structure UpstreamRoute where
  address : SocketAddr
  mark : Nft.Mark
deriving DecidableEq

/-- Where a lookup goes, if it is not refused. -/
def upstream_route [RegexEngine] (domain : String) (policy : RoutingPolicy)
    (local_upstream : SocketAddr) (vpn_enabled : Bool) (lan : LanContext) :
    Option UpstreamRoute :=
  let target := if local_dns_name domain lan then .direct else policy.dns_target domain
  let target := effective_target target vpn_enabled
  match target with
  | .block => none
  | .direct => some ⟨local_upstream, target_mark target⟩
  | .vpn => some ⟨TUNNEL_DNS_UPSTREAM, target_mark target⟩
  | .warp => some ⟨WARP_DNS_UPSTREAM, target_mark target⟩

/-- A route into the tunnel, to the tunnel's own resolver. -/
def UpstreamRoute.Tunnelled (route : UpstreamRoute) : Prop :=
  route = ⟨TUNNEL_DNS_UPSTREAM, VPN_MARK⟩ ∨ route = ⟨WARP_DNS_UPSTREAM, WARP_MARK⟩

/-- Traffic in the tunnel is ranked above the direct path, whatever the tunnel's state. -/
theorem rank_of_tunnelled {target : RouteTarget} {vpn_enabled : Bool}
    (h : effective_target target vpn_enabled = .vpn ∨ effective_target target vpn_enabled = .warp) :
    vpn_enabled = true ∧ 2 ≤ rank target := by
  cases target <;> cases vpn_enabled <;> simp [effective_target, rank] at h ⊢

theorem upstream_route_tunnelled [RegexEngine] {domain : String} {policy : RoutingPolicy}
    {lan : LanContext} (hlocal : local_dns_name domain lan = false)
    (hrank : 2 ≤ rank (policy.dns_target domain)) (local_upstream : SocketAddr) :
    ∃ route, upstream_route domain policy local_upstream true lan = some route ∧
      route.Tunnelled := by
  simp only [upstream_route, hlocal, Bool.false_eq_true, if_false]
  cases hd : policy.dns_target domain with
  | block => simp [hd, rank] at hrank
  | direct => simp [hd, rank] at hrank
  | vpn => exact ⟨_, rfl, .inl rfl⟩
  | warp => exact ⟨_, rfl, .inr rfl⟩

/-- **A lookup never leaks past the route of its traffic**: for every compiled policy, every name
that is not local and every address outside the LAN, the lookup is ranked at least as high as the
traffic; tunnelled traffic has its lookup in the tunnel or refused, and a blocked lookup has blocked
traffic only. -/
theorem dns_never_leaks [RegexEngine] {g : GeoData} {alive : Liveness} {config : RoutingConfig}
    {caches : Caches} {policy : RoutingPolicy}
    (hc : (compile g alive config caches).1 = .ok policy) {lan : LanContext} {domain : String}
    (hlocal : local_dns_name domain lan = false) {ip : Ipv4Addr}
    (hip : is_lan_destination ip = false) :
    rank (policy.target domain ip) ≤ rank (policy.dns_target domain) ∧
    (∀ vpn_enabled local_upstream,
      effective_target (policy.target domain ip) vpn_enabled = .vpn ∨
        effective_target (policy.target domain ip) vpn_enabled = .warp →
      upstream_route domain policy local_upstream vpn_enabled lan = none ∨
        ∃ route, upstream_route domain policy local_upstream vpn_enabled lan = some route ∧
          route.Tunnelled) ∧
    (policy.dns_target domain = .block → policy.target domain ip = .block) := by
  have hrank := RoutingPolicy.target_le_dns_target (RoutingPolicy.ip_rules_of_compile hc) domain hip
  refine ⟨hrank, fun vpn_enabled local_upstream ht => ?_, fun hb => ?_⟩
  · obtain ⟨rfl, h2⟩ := rank_of_tunnelled ht
    exact .inr (upstream_route_tunnelled hlocal (h2.trans hrank) local_upstream)
  · rw [hb] at hrank
    cases ht : policy.target domain ip <;> simp [ht, rank] at hrank ⊢

/-- `dns_never_leaks` for a name outside the LAN and an address that goes through WARP. -/
theorem dns_never_leaks_sample :
    letI := sampleRegex
    rank (samplePolicy.target "a.example" (Ipv4.addr 1 1 1 1)) ≤
      rank (samplePolicy.dns_target "a.example") :=
  letI := sampleRegex
  (@dns_never_leaks sampleRegex .empty ⟨fun _ => true, fun _ => true⟩ sampleRouting .empty
    samplePolicy (by decide +kernel) sampleLan "a.example" (by decide +kernel)
    (Ipv4.addr 1 1 1 1) (by decide +kernel)).1

end Gofro.Agent
