import GofroRouter.Server.Status

/-!
# The commands of the server

`main.rs`: every command of `gofro-router-server` with its checks, the legacy ones that add and
remove peers without metadata included, and sequences of commands with restarts in between.

* `dispatch`: one command. `Event.step`: what an event makes of the server.
-/

namespace Gofro.Server

open Text Json Fallible
open Platform (pubkey)

/-- The commands of the program, with their arguments. -/
inductive Command
  | add_peer (public_key tunnel_ip : String) (subnet : Option String)
  | create_profile (endpoint : String) (tunnel_ip subnet : Option String) (private_key : String)
  | remove_peer (public_key : String) (subnet : Option String)
  | create_router_profile (endpoint private_key : String)
  | remove_router_peer (public_key : String)
  | capabilities
  | managed_status
  | create_friend (endpoint input private_key : String)
  | rename_friend (public_key input : String)
  | revoke_friend (public_key : String)
  | friend_profile (public_key endpoint : String)
  | restart_vpn
  | enable_warp (accept_terms : Bool)
  | disable_warp

/-- What the agent asks for before it manages a server. -/
def CAPABILITIES : String := "\x7b\"owner_protocol\":2,\"warp_protocol\":1\x7d"

def FRIEND_NAME_INPUT_LIMIT : ℕ := 1024

/-- `FriendNameInput` -/
def name_of_value : Value → Option String
  | .object members => required members "name" as_string
  | .array [name] => as_string name
  | _ => none

/-- The name comes from standard input, as JSON. -/
def read_friend_name (input : String) : Except String String := do
  Agent.bail_if (FRIEND_NAME_INPUT_LIMIT < len input) "friend request is too large"
  let name ← or_error "invalid friend request" ((from_str input).bind name_of_value)
  validate_name name

section

variable [Platform] (interface : String) (faults : Faults)

/-- A peer without metadata. -/
def add_peer (public_key tunnel_ip : String) : Managed Unit := do
  lift (validate_peer_key public_key)
  let tunnel_ip ← lift (validate_tunnel_ip tunnel_ip)
  query faults.read "failed to read peers"
  lift (ensure_routes_available (← get).live public_key [tunnel_ip])
  changed faults [.set public_key [tunnel_ip.toString]] fun previous error =>
    roll_back faults "peer setup failed" previous error (pure ())

/-- Without a rollback. -/
def remove_peer (public_key : String) : Managed Unit := do
  wg_set [.remove public_key] faults.wg
  save faults.save

/-- A command without metadata adds either role. -/
def add_legacy (owner : Bool) (public_key tunnel_ip : String) : Managed Unit :=
  if owner then add_router_peer interface faults public_key tunnel_ip
  else add_peer faults public_key tunnel_ip

/-- A command of earlier agents: the address may be given. -/
def create_profile (endpoint : String) (tunnel_ip subnet : Option String) (private_key : String) :
    Managed String := do
  lift (validate_endpoint endpoint)
  let owner ← lift (legacy_owner subnet)
  query faults.first_read "failed to read peers"
  let s ← get
  let tunnel_ip ← match tunnel_ip with
    | some tunnel_ip => pure tunnel_ip
    | none => do pure (← lift (allocate_tunnel_ip s.live)).toString
  add_legacy interface faults owner (pubkey private_key) tunnel_ip
  return format_profile private_key (pubkey private_key) s.public_key endpoint tunnel_ip

/-- A command without metadata removes either role. -/
def remove_legacy (owner : Bool) (public_key : String) : Managed Unit :=
  if owner then remove_router_peer interface faults public_key else remove_peer faults public_key

/-- The WARP helper; it leaves some network file behind. -/
def warp_command : Managed Unit :=
  let change (s : Vps) : Vps := { s with warp := faults.network }
  command faults.helper "gofro-warp failed" (whole change) change

/-- The firewall is prepared by a helper, and then sources are authorized. -/
def enable_warp (accept_terms : Bool) : Managed Unit := do
  if !accept_terms then
    fail "Cloudflare WARP terms must be explicitly accepted with --accept-terms"
  discard (warp_routes interface faults.first)
  warp_command faults
  authorize_warp interface faults

/-- A command, with what it prints. -/
def dispatch : Command → Managed String
  | .add_peer public_key tunnel_ip subnet => do
    query faults.lock "failed to lock"
    add_legacy interface faults (← lift (legacy_owner subnet)) public_key tunnel_ip
    return "peer added: " ++ tunnel_ip ++ " via " ++ interface ++ "\n"
  | .create_profile endpoint tunnel_ip subnet private_key => do
    query faults.lock "failed to lock"
    create_profile interface faults endpoint tunnel_ip subnet private_key
  | .remove_peer public_key subnet => do
    query faults.lock "failed to lock"
    remove_legacy interface faults (← lift (legacy_owner subnet)) public_key
    return "peer removed: " ++ public_key ++ "\n"
  | .create_router_profile endpoint private_key => do
    lift (validate_managed_endpoint endpoint)
    query faults.lock "failed to lock"
    create_router_profile interface faults endpoint private_key
  | .remove_router_peer public_key => do
    query faults.lock "failed to lock"
    remove_router_peer interface faults public_key
    return ""
  | .capabilities => pure (CAPABILITIES ++ "\n")
  | .managed_status => do
    query faults.lock "failed to lock"
    return to_string (← status interface faults).to_value ++ "\n"
  | .create_friend endpoint input private_key => do
    lift (validate_managed_endpoint endpoint)
    let name ← lift (read_friend_name input)
    query faults.lock "failed to lock"
    create interface faults endpoint name private_key
  | .rename_friend public_key input => do
    let name ← lift (read_friend_name input)
    query faults.lock "failed to lock"
    rename interface faults public_key name
    return ""
  | .revoke_friend public_key => do
    query faults.lock "failed to lock"
    revoke interface faults public_key
    return ""
  | .friend_profile public_key endpoint => do
    lift (validate_managed_endpoint endpoint)
    query faults.lock "failed to lock"
    profile interface faults public_key endpoint
  | .restart_vpn => do
    query faults.lock "failed to lock"
    restart interface faults
    return ""
  | .enable_warp accept_terms => do
    query faults.lock "failed to lock"
    enable_warp interface faults accept_terms
    return ""
  | .disable_warp => do
    query faults.lock "failed to lock"
    warp_command faults
    return ""

end

section

variable [Platform]

/-- A peer that passes the checks of `add_peer`. -/
def accepted (s : Vps) (public_key : String) (tunnel_ip : Ipv4.Net) :
    Except String (String × String) := do
  validate_peer_key public_key
  ensure_routes_available s.live public_key [tunnel_ip]
  return (public_key, tunnel_ip.toString)

/-- The key that a command may add to the interface. -/
def Command.added : Command → Option String
  | .add_peer public_key _ _ => some public_key
  | .create_profile _ _ _ private_key => some (pubkey private_key)
  | .create_router_profile _ private_key => some (pubkey private_key)
  | .create_friend _ _ private_key => some (pubkey private_key)
  | _ => none

/-- The peer that a command adds without metadata, with its address, if no check refuses it. -/
def Command.peer (s : Vps) : Command → Option (String × String)
  | .add_peer public_key tunnel_ip none =>
    (do accepted s public_key (← validate_tunnel_ip tunnel_ip)).toOption
  | .create_profile endpoint tunnel_ip none private_key => Except.toOption do
    validate_endpoint endpoint
    match tunnel_ip with
    | some tunnel_ip => accepted s (pubkey private_key) (← validate_tunnel_ip tunnel_ip)
    | none => accepted s (pubkey private_key) (← allocate_tunnel_ip s.live)
  | _ => none

end

/-- A command, or what happens to the service: it starts from the saved configuration, and saves
the live one when it stops. -/
inductive Event
  | run (command : Command) (faults : Faults)
  | start
  | stop

/-- The key that an event may add to the interface. -/
def Event.added [Platform] : Event → Option String
  | .run command _ => command.added
  | _ => none

/-- A command, a start of the service, or its stop. -/
def Event.step [Platform] (interface : String) (s : Vps) : Event → Vps
  | .run command faults => ((dispatch interface faults command).exec s).2
  | .start => reload s
  | .stop => store_live s

/-! ## A server with one router and one friend -/

/-- Lower case for ASCII; every key is its own public key. -/
@[reducible] def sample_platform : Platform := ⟨to_ascii_lowercase, fun key => key⟩

def ROUTER : String := "Ooooooooooooooooooooooooooooooooooooooooooo="
def BOB : String := "Bbbbbbbbbbbbbbbbbbbbbbbbbbbbbbbbbbbbbbbbbbb="
def CAROL : String := "Ccccccccccccccccccccccccccccccccccccccccccc="

def sample_peers : Interface :=
  ⟨[(ROUTER, ["10.202.0.2/32"]), (BOB, ["10.202.0.3/32"])], by decide⟩

def sample_metadata : String := "\x7b\"schema\":2,\"records\":[\x7b\"public_key\":\"" ++ BOB ++
  "\",\"name\":\"Bob\"\x7d],\"owners\":[\"" ++ ROUTER ++ "\"]\x7d\n"

def sample : Vps := ⟨sample_peers, sample_peers, some sample_metadata, none, "server"⟩

end Gofro.Server
