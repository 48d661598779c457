import GofroRouter.Server.Managed

/-!
# The status of a managed server

What `managed::status` collects and prints as JSON: the friends with records, live or revoked, the
live ones without, and the state of WARP.

* `ManagedServerStatus.to_value`, `ManagedServerStatus.of_value`: its JSON, on both ends.
* `mem_listed`: who is listed.
-/

namespace Gofro.Server

open Text Json Fallible

/-- A friend as the status lists it. -/
structure FriendPeer where
  public_key : String
  name : String
  revoked : Bool
  can_share : Bool
deriving DecidableEq

/-- What the status says of WARP. -/
structure WarpStatus where
  installed : Bool
  enabled : Bool
  connected : Bool
deriving DecidableEq

/-- The status of a server, as it is sent. -/
structure ManagedServerStatus where
  version : String
  peers : List FriendPeer
  warp : Option WarpStatus
deriving DecidableEq

def VERSION : String := "0.5.26"

/-! ## JSON -/

def as_bool : Value → Option Bool
  | .bool b => some b
  | _ => none

def WarpStatus.to_value (warp : WarpStatus) : Value :=
  .object [("installed", .bool warp.installed), ("enabled", .bool warp.enabled),
    ("connected", .bool warp.connected)]

/-- A record is read from an object or an array. -/
def WarpStatus.of_value : Value → Option WarpStatus
  | .object members => do
    some ⟨← required members "installed" as_bool, ← required members "enabled" as_bool,
      ← required members "connected" as_bool⟩
  | .array [installed, enabled, connected] => do
    some ⟨← as_bool installed, ← as_bool enabled, ← as_bool connected⟩
  | _ => none

def FriendPeer.to_value (peer : FriendPeer) : Value :=
  .object [("public_key", text_value peer.public_key), ("name", text_value peer.name),
    ("revoked", .bool peer.revoked), ("can_share", .bool peer.can_share)]

def FriendPeer.of_value : Value → Option FriendPeer
  | .object members => do
    some ⟨← required members "public_key" as_string, ← required members "name" as_string,
      ← required members "revoked" as_bool, ← required members "can_share" as_bool⟩
  | .array [public_key, name, revoked, can_share] => do
    some ⟨← as_string public_key, ← as_string name, ← as_bool revoked, ← as_bool can_share⟩
  | _ => none

/-- WARP is left out if nothing is known of it. -/
def ManagedServerStatus.to_value (status : ManagedServerStatus) : Value :=
  .object ([("version", text_value status.version),
    ("peers", .array (status.peers.map FriendPeer.to_value))] ++
    status.warp.toList.map fun warp => ("warp", warp.to_value))

/-- WARP may be missing. -/
def ManagedServerStatus.of_value : Value → Option ManagedServerStatus
  | .object members => do
    some ⟨← required members "version" as_string,
      ← required members "peers" (as_list FriendPeer.of_value),
      ← optional members "warp" WarpStatus.of_value⟩
  | .array [version, peers] => do
    some ⟨← as_string version, ← as_list FriendPeer.of_value peers, none⟩
  | .array [version, peers, warp] => do
    some ⟨← as_string version, ← as_list FriendPeer.of_value peers,
      ← as_option WarpStatus.of_value warp⟩
  | _ => none

/-! ## Collecting -/

/-- The friend that a record is listed as. -/
def recorded_peer (active : List (String × PeerKind)) (record : FriendRecord) :
    Option FriendPeer :=
  match (active.find? fun p => p.1 = record.public_key).map Prod.snd with
  | some .owner | some .other => none
  | some (.friend _) => some ⟨record.public_key, record.name, false, record.private_key.isSome⟩
  | none => some ⟨record.public_key, record.name, true, false⟩

/-- The friend that a live peer without a record is listed as. -/
def unrecorded_peer (store : FriendStore) (p : String × PeerKind) : Option FriendPeer :=
  match p.2 with
  | .friend ip => if has_record store p.1 then none else some ⟨p.1, ip, false, false⟩
  | _ => none

/-- Records and live friends without one, by their names. -/
def listed (store : FriendStore) (active : List (String × PeerKind)) : List FriendPeer :=
  (store.records.filterMap (recorded_peer active) ++
    active.filterMap (unrecorded_peer store)).mergeSort fun left right =>
      left.name < right.name || (left.name = right.name && left.public_key ≤ right.public_key)

theorem mem_listed {store : FriendStore} {active : List (String × PeerKind)} {peer : FriendPeer} :
    peer ∈ listed store active ↔ (∃ record ∈ store.records, recorded_peer active record = some peer) ∨
      ∃ p ∈ active, unrecorded_peer store p = some peer := by
  simp [listed]

theorem recorded_peer_key {active : List (String × PeerKind)} {record : FriendRecord}
    {peer : FriendPeer} (h : recorded_peer active record = some peer) :
    peer.public_key = record.public_key ∧ peer.name = record.name := by
  unfold recorded_peer at h
  split at h <;> cases h <;> exact ⟨rfl, rfl⟩

theorem unrecorded_peer_eq_some {store : FriendStore} {p : String × PeerKind} {peer : FriendPeer} :
    unrecorded_peer store p = some peer ↔ ∃ ip, p.2 = .friend ip ∧ has_record store p.1 = false ∧
      peer = ⟨p.1, ip, false, false⟩ := by
  obtain ⟨key, kind⟩ := p
  unfold unrecorded_peer
  cases kind with
  | friend ip =>
    by_cases hr : has_record store key = true
    · simp [hr]
    · simp [hr, eq_comm]
  | owner => simp
  | other => simp

section

variable (interface : String) (faults : Faults)

/-- `warp::status` -/
def warp_status : Managed WarpStatus := do
  if !(← lift (prepared interface (← get).warp)) then return ⟨false, false, false⟩
  query faults.helper "gofro-warp status failed"
  let status ← lift (or_error "invalid WARP status"
    ((from_str faults.output).bind WarpStatus.of_value))
  if status.connected && (!status.installed || !status.enabled) then
    fail "inconsistent WARP status"
  return status

/-- What the server says of itself. -/
def status : Managed ManagedServerStatus := do
  let store ← load_store interface faults
  query faults.read "failed to read peers"
  let peers := listed store (peers (← get).live store.owners)
  let warp ← warp_status interface faults
  return ⟨VERSION, peers, some warp⟩

end

end Gofro.Server
