import GofroRouter.Lib.Crash
import GofroRouter.Server.Store

/-!
# Managing friends and router owners

`managed.rs`: the operations that change the live interface, its saved configuration and the friend
metadata, one after the other; a failed step is followed by a rollback. Every command on the way may
fail or the program may be killed at it.

* `load_store` migrates files of the first schema.
* `create`, `rename`, `revoke`, `add_router_peer`, `authorize_warp`, `remove_router_peer`,
  `restart`; `status` and `profile` only read.
-/

namespace Gofro.Server

open Text
open Gofro.Agent (bail_if)
open Ipv4 (Net)
open Fallible

/-- What the program takes from elsewhere: lower case for all of Unicode, and the public key of a
private one. -/
class Platform where
  to_lowercase : String → String
  pubkey : String → String

/-- The server, as far as the peers of one interface go. -/
structure Vps where
  live : Interface
  /-- what `wg-quick` loads when the service starts -/
  saved : Interface
  /-- the friend metadata of the interface -/
  metadata : Option String
  /-- the network file of WARP -/
  warp : Option String
  /-- the public key of the interface -/
  public_key : String

/-- A command of the server: it may fail, or be killed on the way. -/
abbrev Managed := Op Vps (Stop String)

/-- How everything that a command runs ends. -/
structure Faults where
  /-- being root, and the lock -/
  lock : Outcome
  /-- the first of two times that the metadata and the peers are read -/
  first_load : Outcome
  first_read : Outcome
  /-- reading WARP's state, the metadata and the peers -/
  load : Outcome
  migrate : Outcome
  /-- further reading, and new keys -/
  read : Outcome
  write : Outcome
  /-- the changes of the live interface, in order -/
  wg : ℕ → Outcome
  save : Outcome
  setconf : Outcome
  resave : Outcome
  /-- the metadata at the end of a rollback -/
  undo : Outcome
  /-- the WARP helper, the network file that it leaves and what it prints -/
  helper : Outcome
  network : Option String
  output : String
  service : Outcome
  relay : Outcome

/-- Nothing fails. -/
def Faults.none : Faults where
  lock := .done
  first_load := .done
  first_read := .done
  load := .done
  migrate := .done
  read := .done
  write := .done
  wg := fun _ => .done
  save := .done
  setconf := .done
  resave := .done
  undo := .done
  helper := .done
  network := Option.none
  output := ""
  service := .done
  relay := .done

/-! ## Steps -/

/-- A step that does not touch the state. -/
def lift {α : Type} (result : Except String α) : Managed α :=
  Op.of fun s => (result.mapError Stop.error, s)

def fail {α : Type} (message : String) : Managed α := throw (.error message)

def publish (data : String) (s : Vps) : Vps := { s with metadata := some data }

/-- The metadata is checked before it is written. -/
def write_store (interface : String) (outcome : Outcome) (store : FriendStore) : Managed Unit := do
  lift (interface_name interface)
  let data ← lift (encode_store store)
  command outcome "failed to write friend metadata" (whole (publish data)) (publish data)

/-- The saved peers are those of the interface. -/
def store_live (s : Vps) : Vps := { s with saved := s.live }

/-- `wg-quick save`. -/
def save (outcome : Outcome) : Managed Unit :=
  command outcome "wg-quick save failed" (whole store_live) store_live

/-- A change of the live interface. -/
inductive Change
  | set (public_key : String) (routes : List String)
  | remove (public_key : String)
deriving DecidableEq

/-- One `wg set`. -/
def Change.apply : Change → Interface → Interface
  | .set public_key routes => WireGuard.Interface.set public_key routes
  | .remove public_key => WireGuard.Interface.remove public_key

def Change.perform (change : Change) (s : Vps) : Vps := { s with live := change.apply s.live }

/-- `wg set`, once for each change. -/
def wg_set : List Change → (ℕ → Outcome) → Managed Unit
  | [], _ => pure ()
  | change :: changes, outcomes => do
    command (outcomes 0) "wg set failed" (whole change.perform) change.perform
    wg_set changes fun i => outcomes (i + 1)

/-- The saved peers stay as they are. -/
def load_live (config : Interface) (s : Vps) : Vps := { s with live := config }

/-- A configuration that is not loaded, or of which any number of peers are. -/
def loading (config : Interface) (progress : ℕ) (s : Vps) : Vps := match progress with
  | 0 => s
  | n + 1 => load_live (config.take n) s

/-- `wg setconf` with an earlier configuration; when it stops, any number of peers are loaded. -/
def setconf (outcome : Outcome) (previous : Interface) : Managed Unit :=
  command outcome "wg setconf failed" (loading previous) (load_live previous)

/-- The outcomes where something is done for the first of two times. -/
def Faults.first (faults : Faults) : Faults :=
  { faults with load := faults.first_load, read := faults.first_read }

/-- Back to an earlier configuration; `finish` belongs to the rollback. -/
def roll_back (faults : Faults) (what : String) (previous : Interface) (error : String)
    (finish : Managed Unit) : Managed Unit :=
  recover
    (do setconf faults.setconf previous
        save faults.resave
        finish)
    fun rollback => fail (what ++ ": " ++ error ++ "; rollback failed: " ++ rollback)

/-- Changes of the interface that are saved, or undone with their error. -/
def changed (faults : Faults) (changes : List Change)
    (undo : Interface → String → Managed Unit) : Managed Unit := do
  let previous := (← get).live
  recover
    (do wg_set changes faults.wg
        save faults.save)
    fun error => do
      undo previous error
      fail error

/-! ## Peers -/

/-- What a peer is, as far as its routes and the owners tell. -/
inductive PeerKind
  | friend (ip : String)
  | owner
  | other
deriving DecidableEq

/-- A friend has one route, a tunnel address. -/
def classify_friend : List String → PeerKind
  | [route] =>
    match validate_tunnel_ip route with
    | .ok ip => .friend ip.toString
    | .error _ => .other
  | _ => .other

/-- An owner is one whatever its routes. -/
def peer_kind (owners : List String) (p : String × List String) : PeerKind :=
  if p.1 ∈ owners then .owner else classify_friend (fields p.2)

/-- The peers of the interface, classified. -/
def peers (live : Interface) (owners : List String) : List (String × PeerKind) :=
  live.peers.map fun p => (p.1, peer_kind owners p)

/-- Owners and other peers are none. -/
def PeerKind.is_friend : PeerKind → Bool
  | .friend _ => true
  | _ => false

/-- The peers that hold the legacy client subnet. -/
def legacy_owners (live : Interface) : List String :=
  (live.peers.filter fun p => CLIENT_SUBNET ∈ fields p.2).map Prod.fst

/-- A file of the first schema, with the owners that are live. -/
def migrate (missing : Bool) (live : Interface) (store : FriendStore) :
    Except String FriendStore := do
  bail_if (missing && (peers live []).any fun p => p.2.is_friend)
    "missing metadata cannot distinguish router owners from legacy friends"
  let owners := legacy_owners live
  bail_if (owners = [] && live.peers ≠ [])
    "cannot safely identify legacy router owner; use a migrated server"
  owners.forM fun owner => do
    validate_peer_key owner
    bail_if (store.records.any fun record => record.public_key = owner)
      "legacy owner overlaps friend metadata; refusing ambiguous migration"
  return { schema := 2, records := store.records, owners }

/-- `10.203` is legacy evidence only. -/
def load_store (interface : String) (faults : Faults) : Managed FriendStore := do
  lift (interface_name interface)
  query faults.load "failed to read friend metadata"
  let s ← get
  let store ← lift (read_store s.metadata)
  if store.schema = 1 then do
    let store ← lift (migrate s.metadata.isNone s.live store)
    write_store interface faults.migrate store
    pure store
  else pure store

section

variable [Platform]

open Platform (to_lowercase pubkey)

/-- The name a friend goes by: its record's, or else its address. -/
def effective_name (store : FriendStore) (public_key ip : String) : String :=
  match store.records.find? fun record => record.public_key = public_key with
  | some record => record.name
  | none => ip

/-- A live friend goes by the name; one key is left out. -/
def active_name (store : FriendStore) (peers : List (String × PeerKind))
    (public_key : Option String) (name : String) : Bool :=
  peers.any fun p =>
    if some p.1 = public_key then false
    else match p.2 with
      | .friend ip => to_lowercase (effective_name store p.1 ip) = to_lowercase name
      | _ => false

/-- The address of a live friend; `none` if the key is not live. -/
def peer_shape (store : FriendStore) (peers : List (String × PeerKind)) (public_key : String) :
    Except String (Option String) := do
  validate_peer_key public_key
  bail_if (public_key ∈ store.owners) "router peer cannot be managed as a friend"
  match peers.find? fun p => p.1 = public_key with
  | none => return none
  | some (_, .friend ip) => return some ip
  | some (_, .owner) => .error "router peer cannot be managed as a friend"
  | some (_, .other) => .error "peer is not a managed friend shape"

/-- The friend has been given a name. -/
def has_record (store : FriendStore) (public_key : String) : Bool :=
  store.records.any fun record => record.public_key = public_key

/-! ## Friends -/

variable (interface : String) (faults : Faults)

def ALREADY_NAMED : String := "an active friend already has this name"

/-- A friend: the record is written first, and then the peer is added. -/
def create (endpoint name private_key : String) : Managed String := do
  let store ← load_store interface faults
  query faults.read "failed to read peers"
  let s ← get
  if active_name store (peers s.live store.owners) none name then fail ALREADY_NAMED
  let public_key := pubkey private_key
  lift (validate_peer_key public_key)
  let tunnel_ip := (← lift (allocate_tunnel_ip s.live)).toString
  let record : FriendRecord := ⟨public_key, name, some private_key⟩
  write_store interface faults.write { store with records := store.records ++ [record] }
  changed faults [.set public_key [tunnel_ip]] fun previous error =>
    roll_back faults "friend creation failed" previous error
      (write_store interface faults.undo store)
  return format_profile private_key public_key s.public_key endpoint tunnel_ip

/-- The first record with a key gets a name. -/
def set_name (public_key name : String) : List FriendRecord → List FriendRecord
  | [] => []
  | record :: records =>
    if record.public_key = public_key then { record with name } :: records
    else record :: set_name public_key name records

/-- A live friend gets a name, in its record or in a new one. -/
def rename (public_key name : String) : Managed Unit := do
  let store ← load_store interface faults
  query faults.read "failed to read peers"
  let active := peers (← get).live store.owners
  let current ← lift (peer_shape store active public_key)
  if current.isNone then fail "friend is not active"
  if active_name store active (some public_key) name then fail ALREADY_NAMED
  let records := if has_record store public_key then set_name public_key name store.records
    else store.records ++ [⟨public_key, name, none⟩]
  write_store interface faults.write { store with records }

/-- The record stays and the peer goes; of a friend that has gone, only what is saved is left to
change. -/
def revoke (public_key : String) : Managed Unit := do
  let store ← load_store interface faults
  query faults.read "failed to read peers"
  match ← lift (peer_shape store (peers (← get).live store.owners) public_key) with
  | none =>
    -- a failed save and rollback can leave only the boot configuration granting access
    if has_record store public_key then save faults.save
    else fail "friend not found"
  | some ip =>
    let records := if has_record store public_key then store.records
      else store.records ++ [⟨public_key, ip, none⟩]
    write_store interface faults.write { store with records }
    changed faults [.remove public_key] fun previous error =>
      roll_back faults "friend revoke failed" previous error
        (write_store interface faults.undo store)

/-- Said of a friend whose private key the server does not have. -/
def UNAVAILABLE : String := "friend profile is unavailable"

/-- The profile of a friend that the server has made. -/
def profile (public_key endpoint : String) : Managed String := do
  let store ← load_store interface faults
  query faults.read "failed to read peers"
  let s ← get
  let some ip ← lift (peer_shape store (peers s.live store.owners) public_key)
    | fail "friend is not active"
  let some record := store.records.find? fun record => record.public_key = public_key
    | fail UNAVAILABLE
  let some private_key := record.private_key
    | fail UNAVAILABLE
  if pubkey private_key ≠ public_key then fail UNAVAILABLE
  return format_profile private_key public_key s.public_key endpoint ip

/-! ## Router owners -/

/-- Whether WARP is prepared for this interface. -/
def prepared : Option String → Except String Bool
  | none => .ok false
  | some content =>
    if (lines content).any fun line => line = ("WG_INTERFACE=" ++ interface).toList then .ok true
    else .error "WARP belongs to a different WireGuard interface"

/-- The routes of a new owner: its address, and its WARP source if WARP is prepared. -/
def owner_routes (warp : Option String) (tunnel_ip : Net) : Except String (List Net) := do
  if ← prepared interface warp then return [tunnel_ip, ← warp_alias tunnel_ip]
  else return [tunnel_ip]

/-- An owner is recorded before it is added. -/
def add_router_peer (public_key tunnel_ip : String) : Managed Unit := do
  lift (validate_peer_key public_key)
  let tunnel_ip ← lift (validate_tunnel_ip tunnel_ip)
  let s ← get
  let routes ← lift (owner_routes interface s.warp tunnel_ip)
  lift (ensure_routes_available s.live public_key routes)
  let store ← load_store interface faults
  query faults.read "failed to read peers"
  let existing_owner := public_key ∈ store.owners
  if has_record store public_key || (!existing_owner && public_key ∈ s.live.keys) then
    fail "cannot convert an existing friend or unclassified peer to an owner"
  let owners := if existing_owner then store.owners else store.owners ++ [public_key]
  -- the owner is recorded before its peer can look like a friend
  write_store interface faults.write { store with owners }
  changed faults [.set public_key (routes.map Net.toString)] fun previous error => do
    roll_back faults "router owner creation failed" previous error (pure ())
    if existing_owner then pure () else write_store interface faults.undo store

/-- A new owner with a key that the server makes. -/
def create_router_profile (endpoint private_key : String) : Managed String := do
  -- the metadata is loaded once more by `add_router_peer`
  discard (load_store interface faults.first)
  query faults.first.read "failed to read peers"
  let s ← get
  let public_key := pubkey private_key
  lift (validate_peer_key public_key)
  let tunnel_ip := (← lift (allocate_tunnel_ip s.live)).toString
  add_router_peer interface faults public_key tunnel_ip
  return format_profile private_key public_key s.public_key endpoint tunnel_ip

/-- The routes of one owner with its WARP source. -/
def warp_route (live : Interface) (public_key : String) (routes : List String) :
    Except String (List String) := do
  match routes.filterMap fun route => (validate_tunnel_ip route).toOption with
  | [primary] => do
    let source ← warp_alias primary
    let known := [primary.toString, source.toString, CLIENT_SUBNET]
    bail_if (routes.any fun route => route ∉ known)
      "unrecognized router owner routes; refusing WARP authorization"
    ensure_routes_available live public_key [source]
    return if source.toString ∈ routes then routes else routes ++ [source.toString]
  | _ => .error "router owner must have exactly one Gofro tunnel address"

/-- Preserve legacy owner routes, but never broaden a friend's source identity. -/
def warp_changes (live : Interface) (store : FriendStore) : Except String (List Change) := do
  let changes ← (live.peers.filter fun p => p.1 ∈ store.owners).mapM fun p => do
    return .set p.1 (← warp_route live p.1 (fields p.2))
  bail_if (changes = []) "no active router owners are available for WARP"
  return changes

/-- The changes of a WARP authorization, from the metadata and the live peers. -/
def warp_routes : Managed (List Change) := do
  let store ← load_store interface faults
  query faults.read "failed to read peers"
  lift (warp_changes (← get).live store)

/-- Every live owner gets its WARP source. -/
def authorize_warp : Managed Unit := do
  if !(← lift (prepared interface (← get).warp)) then
    fail "WARP firewall must be prepared before authorizing sources"
  let changes ← warp_routes interface faults
  changed faults changes fun previous error =>
    roll_back faults "WARP authorization failed" previous error (pure ())

/-- Only a recorded owner is removed. -/
def remove_router_peer (public_key : String) : Managed Unit := do
  let store ← load_store interface faults
  query faults.read "failed to read peers"
  lift (validate_peer_key public_key)
  if public_key ∉ store.owners then fail "router owner not found"
  -- the owner stays recorded: a restored configuration must never turn it into a friend
  changed faults [.remove public_key] fun previous error =>
    roll_back faults "router owner removal failed" previous error (pure ())

/-- Starting the service loads the saved configuration. -/
def reload (s : Vps) : Vps := load_live s.saved s

/-- A restart stops the service before it starts it: when it fails, nothing may have been done, or
the interface is gone, or any number of its peers are there again. -/
def restarting (progress : ℕ) (s : Vps) : Vps := loading s.saved progress s

/-- The live peers are saved before the service is restarted. -/
def restart : Managed Unit := do
  lift (interface_name interface)
  save faults.save
  command faults.service "systemctl restart failed" restarting reload
  query faults.relay "systemctl restart failed"

end

end Gofro.Server
