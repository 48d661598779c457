import GofroRouter.Agent.Routing
import GofroRouter.Lib.Nft
import GofroRouter.Relay.Codec

/-!
# The generated nftables scripts

The scripts that `dataplane.rs` prints, as lists of commands: the routing table with its sets and
chains, the forwarding guard, and the updates of the fake addresses and of the excluded devices.

* `render_with_exclusions` replaces the whole table, `render_guard_with_exclusions` the guard.
* `append_mappings`, `remove_mappings`: the fake addresses of leases.
* `render_publish_exclusions`: the excluded devices, in the table and in the guard.
* `run_nft` runs a script; whether nft works at all is decided outside.
-/

namespace Gofro.Agent

open Nft (Edit Stmt Match Mark)

/-! ## Marks -/

/-- The four decisions as bits of the packet mark. -/
def DIRECT_MARK : Mark := 0x10000
def VPN_MARK : Mark := 0x20000
def BLOCK_MARK : Mark := 0x30000
def WARP_MARK : Mark := 0x60000

/-- The bits of the mark that belong to the router. -/
def GOFRO_MARK_MASK : Mark := 0x70000
def KEEP_FOREIGN_MARKS : Mark := 0xfff8ffff

/-- The table of the policy. -/
def TABLE : String := "gofro_routing"

/-- The table that stops the LAN while the other one is changed. -/
def GUARD_TABLE : String := "gofro_guard"

/-- The fake addresses by their targets. -/
def FAKE_TARGET_SETS : List (RouteTarget × String) :=
  [(.direct, "fake_direct"), (.vpn, "fake_vpn"), (.warp, "fake_warp"), (.block, "fake_block")]

/-- Without the tunnel, what was to go through it is direct, and what was for WARP is blocked. -/
def effective_target (target : RouteTarget) (vpn_enabled : Bool) : RouteTarget :=
  match target, vpn_enabled with
  | .vpn, false => .direct
  | .warp, false => .block
  | target, _ => target

/-- The mark of a decision. -/
def target_mark : RouteTarget → Mark
  | .direct => DIRECT_MARK
  | .vpn => VPN_MARK
  | .warp => WARP_MARK
  | .block => BLOCK_MARK

/-! ## The tunnel -/

/-- `warp::SOURCE_SUBNET` -/
def SOURCE_SUBNET : Ipv4Net := ⟨Ipv4.addr 10 202 1 0, 24, Ipv4.Net.prefix_24⟩

/-- The WARP identity of a tunnel address `10.202.0.host`. -/
def source_address (address : Ipv4Addr) : Option Ipv4Addr :=
  let host := address.toNat % 256
  if address.toNat / 256 = (10 * 256 + 202) * 256 ∧ 2 ≤ host ∧ host ≤ 254 then
    some (Ipv4.addr 10 202 1 host)
  else none

/-- The ways out of the router. -/
structure VpnEgress where
  enabled : Bool
  warp_source : Option Ipv4Addr
deriving DecidableEq

/-- WARP has a source address if the active server knows its client's. -/
def VpnEgress.from_config (config : ControllerConfig) : VpnEgress where
  enabled := config.vpn_enabled
  warp_source := do
    let server ← config.servers.find? fun server =>
      some server.public_key = config.active_server_key
    let _ ← server.management
    let network ← Ipv4.Net.ofString? (← server.client_tunnel_address)
    source_address network.addr

/-- WARP without an identity is blocked. -/
def VpnEgress.target (egress : VpnEgress) (target : RouteTarget) : RouteTarget :=
  if target = .warp && egress.warp_source.isNone then .block
  else effective_target target egress.enabled

/-! ## Sets -/

/-- A fake address, the address it stands for, and where its connections go. -/
structure FakeMapping where
  fake : Ipv4Addr
  real : Ipv4Addr
  target : RouteTarget
deriving DecidableEq

/-- The excluded devices as elements of a set. -/
def exclusion_elements (exclusions : List MacAddress) : List Nft.Elem :=
  exclusions.map fun mac => .ether mac.bits

/-- The statement that adds excluded devices, if there are any. -/
def add_exclusions (exclusions : List MacAddress) : List Edit :=
  if exclusions.isEmpty then []
  else [.set "device_exclusions" (.add_elements (exclusion_elements exclusions))]

/-- The set of excluded devices. -/
def render_exclusion_set (exclusions : List MacAddress) : List Edit :=
  .set "device_exclusions" (.add .ether_addr) :: add_exclusions exclusions

/-- One element for an interval. -/
def interval (start end_ : Ipv4Addr) : Nft.Elem :=
  if start = end_ then .addr start else .range start end_

/-- The loop of `append_networks`; the current interval grows over networks that touch it. -/
def append_from (start end_ : Ipv4Addr) : List Ipv4Net → List Nft.Elem
  | [] => [interval start end_]
  | next :: networks =>
    if Geodata.successor end_.toNat < next.network.toNat then
      interval start end_ :: append_from next.network next.broadcast networks
    else append_from start (if end_ ≤ next.broadcast then next.broadcast else end_) networks

/-- The networks as intervals; neighbours become one. -/
def append_networks : List Ipv4Net → List Nft.Elem
  | [] => []
  | network :: networks => append_from network.network network.broadcast networks

/-- The fake addresses of a target. -/
def target_keys (mappings : List FakeMapping) (target : RouteTarget) : List Ipv4Addr :=
  (mappings.filter fun mapping => mapping.target = target).map FakeMapping.fake

/-- `operation` on every set that a mapping belongs to. -/
def append_target_elements (mappings : List FakeMapping)
    (operation : List Nft.Elem → Nft.SetAction) : List Edit :=
  FAKE_TARGET_SETS.flatMap fun (target, set) =>
    let keys := target_keys mappings target
    if keys.isEmpty then [] else [.set set (operation (keys.map .addr))]

/-- New mappings, in the map and in the sets of their targets. -/
def append_mappings (mappings : List FakeMapping) : List Edit :=
  if mappings.isEmpty then []
  else
    .map "fake_to_real" (.add_elements (mappings.map fun mapping => (mapping.fake, mapping.real))) ::
      append_target_elements mappings .add_elements

/-- The script of `install_mappings`. -/
def render_mappings (mappings : List FakeMapping) : List Nft.Command :=
  Nft.edits TABLE (append_mappings mappings)

/-- The statements of `remove_mappings`, which runs them unless there are no mappings. -/
def removal_edits (mappings : List FakeMapping) : List Edit :=
  .map "fake_to_real" (.delete_elements (mappings.map FakeMapping.fake)) ::
    append_target_elements mappings .delete_elements

/-- The set of a GeoIP rule, named by its index. -/
def ip_rule_set (index : ℕ) : String := "ip_rule_" ++ index.repr

/-- The enabled IP rules in their order, with their indices. -/
def enabled_ip_rules (policy : RoutingPolicy) : List (ℕ × IpRule) :=
  policy.ip_rule_indices.filterMap fun index =>
    ((policy.config.ip_rules[index]?).filter IpRule.enabled).map fun rule => (index, rule)

/-- The interval set of a GeoIP rule. -/
def render_ip_rule_set (policy : RoutingPolicy) (entry : ℕ × IpRule) : List Edit :=
  match entry.2.matcher with
  | .cidr _ => []
  | .geoIp value =>
    let networks := policy.geodata.ip_networks value
    .set (ip_rule_set entry.1) (.add .ipv4_interval) ::
      if networks.isEmpty then []
      else [.set (ip_rule_set entry.1) (.add_elements (append_networks networks))]

/-! ## Chains -/

/-- A chain is added and filled under its name. -/
def render_chain (entry : String × Nft.Chain) : List Edit :=
  .chain entry.1 (.add entry.2.hook) ::
    entry.2.rules.map fun rule => .chain entry.1 (.add_rule rule)

/-- The other bits of the mark stay. -/
def set_mark (bits : Mark) : Stmt := .meta_mark_set KEEP_FOREIGN_MARKS bits
def set_ct_mark (bits : Mark) : Stmt := .ct_mark_set KEEP_FOREIGN_MARKS bits

/-- The router's bits are these. -/
def marked (bits : Mark) : Stmt := .guard (.meta_mark GOFRO_MARK_MASK .eq bits)
def not_marked (bits : Mark) : Stmt := .guard (.meta_mark GOFRO_MARK_MASK .ne bits)

/-- The packet comes from the LAN. -/
def from_lan (lan : LanContext) : Stmt := .guard (.iifname .eq lan.device)

/-- Ports in order, each once. -/
def port_set (ports : List ℕ) : List ℕ := ports.dedup.insertionSort (· ≤ ·)

/-- The panel address is only a TCP endpoint for the LAN. -/
def vip_rules (lan : LanContext) (panel_ports : PanelPorts) : List Nft.Rule :=
  [.iifname .ne lan.device, .l4proto .ne [.tcp],
    .tcp_dport .ne (port_set [80, 443, 8081, 8443, panel_ports.http, panel_ports.https])].map
    fun condition => [.guard (.ip_daddr (.host PANEL_VIRTUAL_IP)), .guard condition, .verdict .drop]

/-- DNS ownership is a bit of the conntrack mark. -/
def dns_owner_rules (lan : LanContext) : List Nft.Rule :=
  [.udp_dport [53], .tcp_dport .eq [53]].map fun port =>
    [from_lan lan, .guard (.ct_direction .original), .guard port,
      .ct_mark_set (BitVec.allOnes 32) 0x40000000]

/-- Packets of excluded devices stay direct. -/
def exclusion_rule (lan : LanContext) : Nft.Rule :=
  [from_lan lan, .guard (.ether_saddr .eq "device_exclusions"), set_mark DIRECT_MARK,
    set_ct_mark DIRECT_MARK, .verdict .ret]

/-- Answers of the LAN to connections from outside stay direct. -/
def reply_rules (lan : LanContext) : List Nft.Rule :=
  [set_mark DIRECT_MARK, set_ct_mark DIRECT_MARK, .verdict .ret].map fun stmt =>
    [from_lan lan, .guard (.ct_direction .reply), stmt]

/-- Clear the mark, then mark what stays on the router or in its subnet. -/
def local_rules (lan : LanContext) : List Nft.Rule :=
  [from_lan lan, set_mark 0] ::
    [.ip_daddr (.host PANEL_VIRTUAL_IP), .fib_daddr_local, .ip_daddr (.net lan.subnet)].map
      fun condition => [from_lan lan, .guard condition, set_mark DIRECT_MARK]

/-- What the rule of the chain looks at. -/
def ip_rule_match (entry : ℕ × IpRule) : Match :=
  match entry.2.matcher with
  | .cidr value => .ip_daddr (.text value)
  | .geoIp _ => .ip_daddr (.named (ip_rule_set entry.1))

/-- The matches that mark an unmarked packet, in order, each with its mark. -/
def classification (egress : VpnEgress) (policy : RoutingPolicy) : List (Match × Mark) :=
  FAKE_TARGET_SETS.map (fun (target, set) =>
      (.ip_daddr (.named set), target_mark (egress.target target))) ++
    (.ip_daddr (.anonymous LAN_RANGES), DIRECT_MARK) ::
      (enabled_ip_rules policy).map fun entry =>
        (ip_rule_match entry, target_mark (egress.target entry.2.target))

/-- What no rule has decided. -/
def fallback_rule (lan : LanContext) (egress : VpnEgress) (policy : RoutingPolicy) : Nft.Rule :=
  [from_lan lan, marked 0, set_mark (target_mark (egress.target policy.effective_fallback))]

/-- The decision is kept with the connection. -/
def ct_mark_rules (lan : LanContext) : List Nft.Rule :=
  [DIRECT_MARK, VPN_MARK, WARP_MARK, BLOCK_MARK].map fun mark =>
    [from_lan lan, marked mark, set_ct_mark mark]

/-- The chain that marks the packets of the LAN. -/
def mark_rules (lan : LanContext) (egress : VpnEgress) (policy : RoutingPolicy)
    (panel_ports : PanelPorts) : List Nft.Rule :=
  vip_rules lan panel_ports ++ dns_owner_rules lan ++ exclusion_rule lan :: reply_rules lan ++
    local_rules lan ++
    (classification egress policy).map (fun c =>
      Nft.classify lan.device GOFRO_MARK_MASK KEEP_FOREIGN_MARKS c.1 c.2) ++
    fallback_rule lan egress policy :: ct_mark_rules lan ++
    [[from_lan lan, marked BLOCK_MARK, .verdict .drop]]

/-- The panel's ports on its virtual address, and the fake addresses. -/
def dnat_rules (lan : LanContext) (panel_ports : PanelPorts) : List Nft.Rule :=
  [([80, 8081, panel_ports.http], panel_ports.http),
    ([443, 8443, panel_ports.https], panel_ports.https)].map (fun (ports, destination) =>
      [from_lan lan, .guard (.ip_daddr (.host PANEL_VIRTUAL_IP)),
        .guard (.tcp_dport .eq (port_set ports)),
        .verdict (.dnat lan.address (some destination))]) ++
    [[from_lan lan, .dnat_map "fake_to_real"]]

/-- Lookups of the LAN go to the router's resolver. -/
def dns_rules (lan : LanContext) (dns_port : ℕ) : List Nft.Rule :=
  [[from_lan lan, .guard (.ether_saddr .eq "device_exclusions"), .verdict .ret],
    [from_lan lan, .guard (.udp_dport [53]), .verdict (.redirect dns_port)],
    [from_lan lan, .guard (.tcp_dport .eq [53]), .verdict (.redirect dns_port)]]

/-- Clamp the segment size of TCP through the tunnel. -/
def mss_rules (lan : LanContext) : List Nft.Rule :=
  [(lan.device, "gt0"), ("gt0", lan.device)].map fun (incoming, outgoing) =>
    [.guard (.nfproto .ipv4), .guard (.iifname .eq incoming), .guard (.oifname .eq outgoing),
      .guard .tcp_syn, .guard (.maxseg_gt Relay.TCP_MSS), .maxseg_set Relay.TCP_MSS]

/-- IPv6 would go around the tunnel. -/
def ipv6_rules (lan : LanContext) : List Nft.Rule :=
  [[from_lan lan, .guard (.ether_saddr .ne "device_exclusions"), .guard (.nfproto .ipv6),
    .verdict .reject]]

/-- A network of one address. -/
def host_net (address : Ipv4Addr) : Ipv4Net := ⟨address, 32, Ipv4.Net.prefix_32⟩

/-- The WARP identity, while the tunnel is on. -/
def VpnEgress.active_source (egress : VpnEgress) : Option Ipv4Addr :=
  egress.warp_source.filter fun _ => egress.enabled

/-- A packet with a WARP identity is a WARP packet, and stays one. -/
def warp_guard_rules (lan : LanContext) (egress : VpnEgress) : List Nft.Rule :=
  [from_lan lan, .guard (.ct_direction .original), .guard (.ct_reply_daddr .eq SOURCE_SUBNET),
    not_marked WARP_MARK, .verdict .drop] ::
    match egress.active_source with
    | none => []
    | some source =>
      [[from_lan lan, marked WARP_MARK, .guard (.oifname .ne "gt0"), .verdict .drop],
        [from_lan lan, marked WARP_MARK, .guard .ct_confirmed,
          .guard (.ct_reply_daddr .ne (host_net source)), .verdict .drop]]

/-- The match of a DNS packet. -/
def dns : List Stmt :=
  [.guard (.nfproto .ipv4), .guard (.l4proto .eq [.tcp, .udp]), .guard (.th_dport [53])]

/-- WARP packets leave with the WARP identity. -/
def warp_snat_rules (lan : LanContext) (source : Ipv4Addr) : List Nft.Rule :=
  [[from_lan lan, .guard (.oifname .eq "gt0"), marked WARP_MARK, .verdict (.snat source)],
    .guard (.oifname .eq "gt0") :: dns ++ [marked WARP_MARK, .verdict (.snat source)]]

/-- The resolver's own lookups stay in the tunnel they are meant for. -/
def dns_egress_rules (warp_source : Option Ipv4Addr) : List Nft.Rule :=
  [VPN_MARK, WARP_MARK].flatMap (fun mark =>
      [dns ++ [marked mark, set_ct_mark mark],
        dns ++ [marked mark, .guard (.oifname .ne "gt0"), .verdict .drop]]) ++
    [dns ++ [.guard (.ct_reply_daddr .eq SOURCE_SUBNET), not_marked WARP_MARK, .verdict .drop],
      match warp_source with
      | some source =>
        dns ++ [marked WARP_MARK, .guard .ct_confirmed,
          .guard (.ct_reply_daddr .ne (host_net source)), .verdict .drop]
      | none => dns ++ [marked WARP_MARK, .verdict .drop]]

/-! ## Scripts -/

/-- The objects of the routing table that hold fake addresses. -/
def fake_objects : List Edit :=
  .map "fake_to_real" .add :: FAKE_TARGET_SETS.map fun (_, set) => .set set (.add .ipv4_addr)

/-- The chains of the routing table, in order. -/
def policy_chains (lan : LanContext) (dns_port : ℕ) (egress : VpnEgress) (policy : RoutingPolicy)
    (panel_ports : PanelPorts) : List (String × Nft.Chain) :=
  [("gofro_mark", ⟨⟨"filter", "prerouting", -150⟩, mark_rules lan egress policy panel_ports⟩),
    ("gofro_dnat", ⟨⟨"nat", "prerouting", -100⟩, dnat_rules lan panel_ports⟩),
    ("gofro_dns", ⟨⟨"nat", "prerouting", -101⟩, dns_rules lan dns_port⟩)] ++
    (if egress.enabled then [("gofro_mss", ⟨⟨"filter", "forward", -149⟩, mss_rules lan⟩)]
      else []) ++
    (if egress.enabled || policy.uses_warp then
        [("gofro_ipv6", ⟨⟨"filter", "forward", 0⟩, ipv6_rules lan⟩)]
      else []) ++
    [("gofro_warp_guard", ⟨⟨"filter", "forward", -150⟩, warp_guard_rules lan egress⟩)] ++
    (match egress.active_source with
      | none => []
      | some source =>
        [("gofro_warp_snat", ⟨⟨"nat", "postrouting", 99⟩, warp_snat_rules lan source⟩)]) ++
    [("gofro_dns_egress", ⟨⟨"filter", "output", 0⟩, dns_egress_rules egress.active_source⟩)]

/-- The part of the script after the sets of devices and of fake addresses. -/
def policy_edits (lan : LanContext) (dns_port : ℕ) (egress : VpnEgress) (policy : RoutingPolicy)
    (panel_ports : PanelPorts) : List Edit :=
  (enabled_ip_rules policy).flatMap (render_ip_rule_set policy) ++
    (policy_chains lan dns_port egress policy panel_ports).flatMap render_chain

/-- The content of the routing table. -/
def table_edits (lan : LanContext) (dns_port : ℕ) (egress : VpnEgress) (policy : RoutingPolicy)
    (mappings : List FakeMapping) (panel_ports : PanelPorts) (exclusions : List MacAddress) :
    List Edit :=
  render_exclusion_set exclusions ++ fake_objects ++ append_mappings mappings ++
    policy_edits lan dns_port egress policy panel_ports

/-- The script of the routing table, which replaces the one before. -/
def render_with_exclusions (lan : LanContext) (dns_port : ℕ) (egress : VpnEgress)
    (policy : RoutingPolicy) (mappings : List FakeMapping) (panel_ports : PanelPorts)
    (exclusions : List MacAddress) : List Nft.Command :=
  Nft.load TABLE (table_edits lan dns_port egress policy mappings panel_ports exclusions)

/-- What the guard stops: forwarded packets of the LAN, but for excluded devices. -/
def guard_rule (lan : LanContext) (exclusions : List MacAddress) : Nft.Rule :=
  [from_lan lan, .guard (.oifname .ne lan.device)] ++
    (if exclusions.isEmpty then [] else [.guard (.ether_saddr .ne "device_exclusions")]) ++
    [.verdict .drop]

/-- The script of the guard. -/
def render_guard_with_exclusions (lan : LanContext) (exclusions : List MacAddress) :
    List Nft.Command :=
  Nft.load GUARD_TABLE (render_exclusion_set exclusions ++
    render_chain ("gofro_guard", ⟨⟨"filter", "forward", 0⟩, [guard_rule lan exclusions]⟩))

/-- Replace the excluded devices of the routing table. -/
def publish_edits (exclusions : List MacAddress) : List Edit :=
  .set "device_exclusions" .flush :: add_exclusions exclusions

/-- New devices, in the table and in the guard. -/
def render_publish_exclusions (lan : LanContext) (exclusions : List MacAddress) :
    List Nft.Command :=
  Nft.edits TABLE (publish_edits exclusions) ++ render_guard_with_exclusions lan exclusions

/-! ## Running them -/

def NFT_ERROR : String := "nft transaction failed"

/-- An empty script is not run. A script that nft refuses, or that does not reach nft, changes
nothing. -/
def run_nft (ok : Bool) (k : Nft.Kernel) (script : List Nft.Command) :
    Except String Unit × Nft.Kernel :=
  if script.isEmpty then (.ok (), k)
  else match if ok then Nft.run k script else none with
    | some k => (.ok (), k)
    | none => (.error NFT_ERROR, k)

section

variable (ok : Bool) (k : Nft.Kernel)

/-- The whole table, or nothing of it. -/
def apply (lan : LanContext) (dns_port : ℕ) (egress : VpnEgress) (policy : RoutingPolicy)
    (mappings : List FakeMapping) (panel_ports : PanelPorts) (exclusions : List MacAddress) :
    Except String Unit × Nft.Kernel :=
  run_nft ok k (render_with_exclusions lan dns_port egress policy mappings panel_ports exclusions)

def install_guard (lan : LanContext) (exclusions : List MacAddress) :
    Except String Unit × Nft.Kernel := run_nft ok k (render_guard_with_exclusions lan exclusions)

/-- One script for both tables. -/
def publish_exclusions (lan : LanContext) (exclusions : List MacAddress) :
    Except String Unit × Nft.Kernel := run_nft ok k (render_publish_exclusions lan exclusions)

/-- Removing a guard that is not there is no error. -/
def clear_guard : Except String Unit × Nft.Kernel := run_nft ok k [⟨GUARD_TABLE, .destroy⟩]

def install_mappings (mappings : List FakeMapping) : Except String Unit × Nft.Kernel :=
  run_nft ok k (render_mappings mappings)

/-- Without mappings no script is run. -/
def remove_mappings (mappings : List FakeMapping) : Except String Unit × Nft.Kernel :=
  if mappings.isEmpty then (.ok (), k)
  else run_nft ok k (Nft.edits TABLE (removal_edits mappings))

end

end Gofro.Agent
