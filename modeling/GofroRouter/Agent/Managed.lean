import GofroRouter.Server.Status

/-!
# What the agent makes of a managed server's status

* `validate_managed_status`: the check of every status that a managed server has returned.
* `validate_managed_status_eq_ok`: what an accepted status satisfies.
-/

namespace Gofro.Agent

open Text
open Server (ManagedServerStatus FriendPeer validate_peer_key validate_name)

def U64_MAX : ℕ := 2 ^ 64 - 1

/-- The digits of a number after what is read of it. -/
def digits_u64 : ℕ → List Char → Except String ℕ
  | value, [] => .ok value
  | value, c :: cs =>
    match digit 10 c with
    | none => .error "invalid digit found in string"
    | some d =>
      if value * 10 + d ≤ U64_MAX then digits_u64 (value * 10 + d) cs
      else .error "number too large to fit in target type"

/-- `str::parse::<u64>` -/
def parse_u64 : List Char → Except String ℕ
  | [] => .error "cannot parse integer from empty string"
  | ['+'] => .error "invalid digit found in string"
  | '+' :: cs => digits_u64 0 cs
  | cs => digits_u64 0 cs

/-- Three numbers with dots between them. -/
def semver (value : String) : Except String (ℕ × ℕ × ℕ) :=
  match split '.' value with
  | major :: parts => do
    let major ← parse_u64 major
    match parts with
    | minor :: parts => do
      let minor ← parse_u64 minor
      match parts with
      | patch :: parts => do
        let patch ← parse_u64 patch
        bail_if (parts ≠ []) "invalid version"
        return (major, minor, patch)
      | [] => .error "invalid version"
    | [] => .error "invalid version"
  | [] => .error "invalid version"

/-- The peers after those with the keys `seen`. -/
def validate_peers (seen : List String) : List FriendPeer → Except String Unit
  | [] => .ok ()
  | peer :: peers => do
    validate_peer_key peer.public_key
    bail_if (seen.contains peer.public_key) "managed server returned duplicate peer key"
    bail_if (peer.can_share && peer.revoked) "managed server returned an invalid friend state"
    let name ← validate_name peer.name
    bail_if (name != peer.name) "managed server returned an unnormalized friend name"
    validate_peers (peer.public_key :: seen) peers

/-- The agent checks the status of a server before it shows it. -/
def validate_managed_status (status : ManagedServerStatus) : Except String Unit := do
  let _ ← semver status.version
  bail_if (status.warp.any fun warp => warp.connected && (!warp.installed || !warp.enabled))
    "managed server returned inconsistent WARP health"
  validate_peers [] status.peers

example : semver "0.5.26" = .ok (0, 5, 26) := by decide +kernel
example : semver "1.2" = .error "invalid version" := by decide +kernel
example : semver "1.+.0" = .error "invalid digit found in string" := by decide +kernel

/-- A peer that the agent accepts. -/
structure Valid (peer : FriendPeer) : Prop where
  public_key : validate_peer_key peer.public_key = .ok ()
  state : (peer.can_share && peer.revoked) = false
  name : validate_name peer.name = .ok peer.name

theorem validate_peers_eq_ok {seen : List String} {peers : List FriendPeer} :
    validate_peers seen peers = .ok () ↔ (∀ peer ∈ peers, Valid peer) ∧
      (peers.map FriendPeer.public_key).Nodup ∧ ∀ peer ∈ peers, peer.public_key ∉ seen := by
  induction peers generalizing seen with
  | nil => simp [validate_peers]
  | cons peer peers ih =>
    have hvalid : Valid peer ↔ validate_peer_key peer.public_key = .ok () ∧
        (peer.can_share && peer.revoked) = false ∧ validate_name peer.name = .ok peer.name :=
      ⟨fun h => ⟨h.1, h.2, h.3⟩, fun h => ⟨h.1, h.2.1, h.2.2⟩⟩
    have hname : (∃ name, validate_name peer.name = .ok name ∧ (name != peer.name) = false) ↔
        validate_name peer.name = .ok peer.name :=
      ⟨fun ⟨_, hn, he⟩ => by rw [hn, bne_eq_false_iff_eq.mp he], fun h => ⟨_, h, by simp⟩⟩
    simp only [validate_peers, bind_eq_ok, bail_if_eq_ok, ih, List.map_cons, List.nodup_cons,
      List.mem_map, List.mem_cons, forall_eq_or_imp, not_or]
    rw [hvalid, ← hname]
    constructor
    · rintro ⟨_, hkey, _, hseen, _, hstate, name, hn, _, he, hall, hnodup, hnew⟩
      refine ⟨⟨⟨hkey, hstate, name, hn, he⟩, hall⟩, ⟨?_, hnodup⟩, by simpa using hseen,
        fun p hp => (hnew p hp).2⟩
      rintro ⟨p, hp, hk⟩
      exact (hnew p hp).1 hk
    · rintro ⟨⟨⟨hkey, hstate, name, hn, he⟩, hall⟩, ⟨hnot, hnodup⟩, hseen, hnew⟩
      exact ⟨(), hkey, (), by simpa using hseen, (), hstate, name, hn, (), he, hall, hnodup,
        fun p hp => ⟨fun hk => hnot ⟨p, hp, hk⟩, hnew p hp⟩⟩

theorem validate_managed_status_eq_ok {status : ManagedServerStatus} :
    validate_managed_status status = .ok () ↔ (∃ version, semver status.version = .ok version) ∧
      (∀ warp ∈ status.warp, warp.connected = true → warp.installed = true ∧ warp.enabled = true) ∧
      (∀ peer ∈ status.peers, Valid peer) ∧ (status.peers.map FriendPeer.public_key).Nodup := by
  have hwarp : (status.warp.any fun warp => warp.connected && (!warp.installed || !warp.enabled)) =
      false ↔ ∀ warp ∈ status.warp, warp.connected = true →
        warp.installed = true ∧ warp.enabled = true := by
    cases status.warp with
    | none => simp
    | some warp => simp
  simp only [validate_managed_status, bind_eq_ok, bail_if_eq_ok, validate_peers_eq_ok, hwarp]
  constructor
  · rintro ⟨version, hv, _, hw, hall, hnodup, _⟩
    exact ⟨⟨version, hv⟩, hw, hall, hnodup⟩
  · rintro ⟨⟨version, hv⟩, hw, hall, hnodup⟩
    exact ⟨version, hv, (), hw, hall, hnodup, fun _ _ => List.not_mem_nil⟩

end Gofro.Agent
