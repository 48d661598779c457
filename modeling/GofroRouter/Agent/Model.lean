import GofroRouter.Lib.Ipv4

/-!
# The agent's data model

The records of `model.rs` that the routing, DNS and controller code reads and writes.
-/

namespace Gofro.Agent

abbrev Ipv4Addr := Ipv4.Addr
abbrev Ipv4Net := Ipv4.Net

/-- A nonzero unicast hardware address; the group bit is the lowest bit of the first byte. -/
structure MacAddress where
  bits : BitVec 48
  nonzero : bits ≠ 0
  unicast : bits.getLsbD 40 = false
deriving DecidableEq

def AP_DOMAIN : String := "wifi.gofro.net"

/-- The first address of the reserved range is the panel's. -/
def PANEL_VIRTUAL_IP : Ipv4Addr := Ipv4.addr 198 18 0 0

/-- The pool of fake addresses (`store.rs`). -/
def FIRST_FAKE : Ipv4Addr := Ipv4.addr 198 18 0 1

/-- The last address that a lease may have. -/
def LAST_FAKE : Ipv4Addr := Ipv4.addr 198 19 255 254

/-- The ports that the panel listens on. -/
structure PanelPorts where
  http : ℕ
  https : ℕ
deriving DecidableEq

/-- The LAN of the router: its device, the router's address on it and its subnet. -/
structure LanContext where
  device : String
  address : Ipv4Addr
  subnet : Ipv4Net
deriving DecidableEq

/-! ## Routing rules -/

/-- Where a connection goes. -/
inductive RouteTarget | direct | vpn | warp | block
deriving DecidableEq

/-- By the rules, or everything through the tunnel. -/
inductive RoutingMode | rules | all
deriving DecidableEq

/-- The place of a rule in one of the two lists. -/
inductive RuleRef
  | domain (index : ℕ)
  | ip (index : ℕ)
deriving DecidableEq

/-- What a domain rule looks for. -/
inductive DomainMatch
  | exact (value : String)
  | suffix (value : String)
  | geoSite (value : String)
deriving DecidableEq

structure DomainRule where
  name : String
  enabled : Bool
  matcher : DomainMatch
  target : RouteTarget
deriving DecidableEq

/-- What an IP rule looks for. -/
inductive IpMatch
  | cidr (value : String)
  | geoIp (value : String)
deriving DecidableEq

structure IpRule where
  name : String
  enabled : Bool
  matcher : IpMatch
  target : RouteTarget
deriving DecidableEq

/-- The two lists of rules, what applies to the rest, and the order of evaluation. -/
structure RoutingConfig where
  domain_rules : List DomainRule
  ip_rules : List IpRule
  default_target : RouteTarget
  mode : RoutingMode
  rule_order : Option (List RuleRef)
deriving DecidableEq

/-! ## Servers and the saved configuration -/

/-- How the agent gets to a server that it manages. -/
structure ManagedServer where
  host : String
  port : ℕ
  host_key : String
deriving DecidableEq

/-- A WireGuard server that the user has added. -/
structure ServerProfile where
  name : String
  emoji : String
  endpoint : String
  public_key : String
  client_tunnel_address : Option String
  client_private_key : Option String
  management : Option ManagedServer
deriving DecidableEq

/-- An edit of a server by the user. -/
structure ServerUpdate where
  previous_public_key : String
  name : String
  endpoint : String
  public_key : String
  emoji : Option String

/-- What is saved in `controller.json`. -/
structure ControllerConfig where
  auto_update_enabled : Bool
  device_exclusions : List MacAddress
  vpn_enabled : Bool
  active_server_key : Option String
  servers : List ServerProfile
  routing : RoutingConfig
deriving DecidableEq

end Gofro.Agent
