import GofroRouter.Server.Commands
import Mathlib.Logic.Relation

/-!
# What a server operation can do

Every operation is a sequence of `Shift`s: a migration of the metadata, a planned change of the peers
that may stop anywhere on the way or on the way back, a save, a restart that stops on the way.

* `Planned`: the plans of the operations, with what has been checked when they are made. `Moved`:
  the states that a plan can end in.
* `changed_reaches`, `roll_back_ends`: the steps that a plan is carried out in.
* **`dispatch_shifts`**: what a command makes of the server.
-/

namespace Gofro.Server

open Text Fallible
open Ipv4 (Net)
open Platform (to_lowercase pubkey)
open Gofro.Agent (bail_if bail_if_eq_ok bind_eq_ok)

/-- Both endings are in `Q`. -/
def Reaches {α : Type} (m : Managed α) (Q : Vps → Prop) (s : Vps) : Prop :=
  Ends m (fun _ => Q) (fun _ => Q) s

section

variable {s : Vps} {Q : Vps → Prop} {α β : Type} {P : α → Vps → Prop} {E : Stop String → Vps → Prop}

/-! ## Steps -/

theorem ends_lift {x : Except String α} : Ends (lift x) P E s ↔
    (∀ a, x = .ok a → P a s) ∧ ∀ e, x = .error e → E (.error e) s := by
  cases x with
  | ok a => exact ⟨fun h => ⟨fun b hb => Except.ok.inj hb ▸ h, fun _ he => nomatch he⟩,
      fun h => h.1 a rfl⟩
  | error e => exact ⟨fun h => ⟨fun _ hb => (nomatch hb), fun d hd => Except.error.inj hd ▸ h⟩,
      fun h => h.2 e rfl⟩

theorem ends_lift_bind {x : Except String α} {f : α → Managed β} {P : β → Vps → Prop} (hQ : Q s)
    (hf : ∀ a, x = .ok a → Ends (f a) P (fun _ => Q) s) :
    Ends (lift x >>= f) P (fun _ => Q) s :=
  ends_bind.mpr (ends_lift.mpr ⟨hf, fun _ _ => hQ⟩)

theorem ends_query_bind {outcome : Outcome} {message : String} {f : Unit → Managed β}
    {P : β → Vps → Prop} (hQ : Q s) (hf : Ends (f ()) P (fun _ => Q) s) :
    Ends (query outcome message >>= f) P (fun _ => Q) s :=
  ends_bind.mpr (ends_query_of hf fun _ => hQ)

theorem ends_get_bind {f : Vps → Managed β} {P : β → Vps → Prop} :
    Ends (get >>= f) P E s ↔ Ends (f s) P E s := ends_bind

theorem ends_unless {c : Prop} [Decidable c] {message : String} {f : Managed β}
    {P : β → Vps → Prop} (hQ : Q s) (hf : ¬ c → Ends f P (fun _ => Q) s) :
    Ends (do if c then fail message
             f) P (fun _ => Q) s := by
  by_cases hc : c
  · simp only [if_pos hc]
    exact hQ
  · simp only [if_neg hc]
    exact hf hc

theorem Reaches.mono {m : Managed α} {Q' : Vps → Prop} (h : Reaches m Q s)
    (hQ : ∀ s', Q s' → Q' s') : Reaches m Q' s :=
  Ends.mono h (fun _ => hQ) fun _ => hQ

theorem Reaches.bind {m : Managed α} {f : α → Managed β} (h : Reaches m Q s)
    (hf : ∀ a s', Q s' → Reaches (f a) Q s') : Reaches (m >>= f) Q s :=
  ends_bind.mpr (Ends.mono h hf fun _ _ h => h)

theorem ends_whole {outcome : Outcome} {message : String} {full : Vps → Vps} {P : Unit → Vps → Prop}
    (hP : P () (full s)) (hQ : Q s) (hfull : Q (full s)) :
    Ends (command outcome message (whole full) full) P (fun _ => Q) s := by
  refine ends_command_of hP fun n => ?_
  rcases whole_cases full n s with h | h
  · rwa [h]
  · rwa [h]

theorem loading_of {config : Interface} (hQ : Q s) (hpart : ∀ n, Q { s with live := config.take n })
    (progress : ℕ) : Q (loading config progress s) := by
  cases progress with
  | zero => exact hQ
  | succ n => exact hpart n

theorem write_store_ends {interface : String} {outcome : Outcome} {store : FriendStore}
    {P : Unit → Vps → Prop} (hQ : Q s)
    (hdone : ∀ data, encode_store store = .ok data → P () (publish data s) ∧ Q (publish data s)) :
    Ends (write_store interface outcome store) P (fun _ => Q) s :=
  ends_lift_bind hQ fun _ _ => ends_lift_bind hQ fun data hdata =>
    ends_whole (hdone data hdata).1 hQ (hdone data hdata).2

/-! ## A change and its rollback -/

/-- Changes one after the other. -/
def applied (changes : List Change) (live : Interface) : Interface :=
  changes.foldl (fun live change => change.apply live) live

/-- An interface on the way to a change, or back from it. -/
inductive Midway (changes : List Change) (live : Interface) : Interface → Prop
  | forth (n : ℕ) : Midway changes live (applied (changes.take n) live)
  | back (n : ℕ) : Midway changes live (live.take n)

theorem Midway.start {changes : List Change} {live : Interface} : Midway changes live live :=
  .forth 0

theorem Midway.all {changes : List Change} {live : Interface} :
    Midway changes live (applied changes live) := by
  have h : Midway changes live (applied (changes.take changes.length) live) := Midway.forth changes.length
  rwa [List.take_length] at h

theorem wg_set_ends {changes : List Change} {outcomes : ℕ → Outcome} {P : Unit → Vps → Prop}
    (hdone : P () { s with live := applied changes s.live })
    (hmid : ∀ n, Q { s with live := applied (changes.take n) s.live }) :
    Ends (wg_set changes outcomes) P (fun _ => Q) s := by
  induction changes generalizing s outcomes with
  | nil => exact hdone
  | cons change changes ih =>
    refine ends_bind.mpr (ends_whole ?_ (hmid 0) (hmid 1))
    exact ih hdone fun n => hmid (n + 1)

/-- A saved configuration on the way: as before, or the old or the new interface. -/
def Kept (changes : List Change) (s : Vps) (saved : Interface) : Prop :=
  saved = s.saved ∨ saved = s.live ∨ saved = applied changes s.live

theorem changed_ends {faults : Faults} {changes : List Change}
    {undo : Interface → String → Managed Unit} {P : Unit → Vps → Prop}
    (hdone : P () { s with live := applied changes s.live, saved := applied changes s.live })
    (hmid : ∀ live saved, Midway changes s.live live → Kept changes s saved →
      Q { s with live, saved })
    (hundo : ∀ live saved error, Midway changes s.live live → Kept changes s saved →
      Reaches (undo s.live error) Q { s with live, saved }) :
    Ends (changed faults changes undo) P (fun _ => Q) s := by
  -- what is reached before the rollback: the changes so far, saved or not
  let Before : Vps → Prop := fun s' => ∃ live saved, Midway changes s.live live ∧
    Kept changes s saved ∧ s' = { s with live, saved }
  have hsteps : Ends (do wg_set changes faults.wg
                         save faults.save)
      (fun _ s' => s' = { s with live := applied changes s.live, saved := applied changes s.live })
      (fun _ => Before) s := by
    refine ends_bind.mpr (wg_set_ends ?_ fun n => ⟨_, s.saved, .forth n, .inl rfl, rfl⟩)
    exact ends_whole rfl ⟨_, s.saved, .all, .inl rfl, rfl⟩
      ⟨_, _, .all, .inr (.inr rfl), rfl⟩
  refine ends_get_bind.mpr (ends_recover.mpr (hsteps.mono ?_ ?_))
  · rintro _ _ rfl
    exact hdone
  · rintro stop _ ⟨live, saved, hl, hs, rfl⟩
    cases stop with
    | killed => exact hmid live saved hl hs
    | error e => exact ends_bind.mpr (Ends.mono (hundo live saved e hl hs) (fun _ _ h => h) fun _ _ h => h)

theorem roll_back_ends {faults : Faults} {what error : String} {previous : Interface}
    {finish : Managed Unit} {P : Unit → Vps → Prop} (hQ : Q s)
    (hback : ∀ n, Q { s with live := previous.take n }) (hlive : Q { s with live := previous })
    (hsaved : Q { s with live := previous, saved := previous })
    (hfinish : Ends finish P (fun _ => Q) { s with live := previous, saved := previous }) :
    Ends (roll_back faults what previous error finish) P (fun _ => Q) s := by
  have hsteps : Ends (do setconf faults.setconf previous
                         save faults.resave
                         finish) P (fun _ => Q) s := by
    refine ends_bind.mpr (ends_command_of ?_ (loading_of hQ hback))
    exact ends_bind.mpr (ends_whole hfinish hlive hsaved)
  refine ends_recover.mpr (hsteps.mono (fun _ _ h => h) ?_)
  intro stop s' h
  cases stop with
  | killed => exact h
  | error e => exact h

end

/-! ## Plans -/

/-- What an operation is about to do. -/
structure Plan where
  /-- the metadata that is written first -/
  next : Option FriendStore
  changes : List Change
  /-- the metadata that a rollback ends with -/
  undo : Option FriendStore

/-- The metadata is as before, or that of a given store. -/
def Written : Option FriendStore → Option String → Option String → Prop
  | none, old, new => new = old
  | some store, _, new => ∃ data, encode_store store = .ok data ∧ new = some data

/-- The states that a plan can end in. -/
inductive Moved (plan : Plan) (s : Vps) : Vps → Prop
  | untouched : Moved plan s s
  | midway {live saved : Interface} {metadata : Option String}
      (written : Written plan.next s.metadata metadata) (live_midway : Midway plan.changes s.live live)
      (saved_kept : Kept plan.changes s saved) : Moved plan s { s with live, saved, metadata }
  | undone {store : FriendStore} {data : String} (undo : plan.undo = some store)
      (encoded : encode_store store = .ok data) :
      Moved plan s { s with saved := s.live, metadata := some data }

/-- The metadata in a state, as operations work with it. -/
structure Loaded (s : Vps) (store : FriendStore) : Prop where
  read : read_store s.metadata = .ok store
  schema : store.schema = 2

/-- A tunnel address that no route covers. -/
structure FreeHost (live : Interface) (host : ℕ) : Prop where
  low : 2 ≤ host
  high : host ≤ 254
  free : ∀ p ∈ live.peers, ∀ n ∈ networks p.2, n.contains (tunnel host).addr = false

section

variable [Platform] (interface : String)

/-- A friend's record, with a name that is its own or given to it now. -/
def named (store : FriendStore) (public_key name : String) : List FriendRecord :=
  if has_record store public_key then set_name public_key name store.records
  else store.records ++ [⟨public_key, name, none⟩]

/-- A friend's record, with its address as the name of a new one. -/
def recorded (store : FriendStore) (public_key ip : String) : List FriendRecord :=
  if has_record store public_key then store.records
  else store.records ++ [⟨public_key, ip, none⟩]

/-- An owner is recorded once. -/
def with_owner (store : FriendStore) (public_key : String) : List String :=
  if public_key ∈ store.owners then store.owners else store.owners ++ [public_key]

/-- The plans of a command that may add the key `added`, or a peer of `legacy` without metadata, and
of which `created` is known when it creates a friend with a private key. -/
inductive Planned (added : Option String) (legacy : Vps → String → String → Prop)
    (created : String → FriendStore → Prop) (s : Vps) : Plan → Prop
  | friend {store : FriendStore} {name private_key : String} {host : ℕ} (loaded : Loaded s store)
      (new : added = some (pubkey private_key))
      (key : validate_peer_key (pubkey private_key) = .ok ())
      (valid : ∃ n, validate_name name = .ok n)
      (unique : active_name store (peers s.live store.owners) none name = false)
      (free : FreeHost s.live host) (generated : created private_key store) :
      Planned added legacy created s
        ⟨some { store with records := store.records ++ [⟨pubkey private_key, name, some private_key⟩] },
          [.set (pubkey private_key) [(tunnel host).toString]], some store⟩
  | renamed {store : FriendStore} {public_key name ip : String} (loaded : Loaded s store)
      (shape : peer_shape store (peers s.live store.owners) public_key = .ok (some ip))
      (valid : ∃ n, validate_name name = .ok n)
      (unique : active_name store (peers s.live store.owners) (some public_key) name = false) :
      Planned added legacy created s ⟨some { store with records := named store public_key name }, [], none⟩
  | revoked {store : FriendStore} {public_key ip : String} (loaded : Loaded s store)
      (shape : peer_shape store (peers s.live store.owners) public_key = .ok (some ip)) :
      Planned added legacy created s ⟨some { store with records := recorded store public_key ip },
        [.remove public_key], some store⟩
  | owner {store : FriendStore} {public_key : String} {host : ℕ} {routes : List Net}
      (loaded : Loaded s store) (new : added = some public_key)
      (key : validate_peer_key public_key = .ok ()) (low : 2 ≤ host) (high : host ≤ 254)
      (assigned : owner_routes interface s.warp (tunnel host) = .ok routes)
      (available : ensure_routes_available s.live public_key routes = .ok ())
      (unrecorded : has_record store public_key = false)
      (unclassified : public_key ∈ store.owners ∨ public_key ∉ s.live.keys) :
      Planned added legacy created s ⟨some { store with owners := with_owner store public_key },
        [.set public_key (routes.map Net.toString)],
        if public_key ∈ store.owners then none else some store⟩
  | warp {store : FriendStore} {changes : List Change} (loaded : Loaded s store)
      (routes : warp_changes s.live store = .ok changes) : Planned added legacy created s ⟨none, changes, none⟩
  | owner_removed {store : FriendStore} {public_key : String} (loaded : Loaded s store)
      (owner : public_key ∈ store.owners) :
      Planned added legacy created s ⟨none, [.remove public_key], none⟩
  | peer {public_key : String} {host : ℕ} (new : added = some public_key)
      (peer : legacy s public_key (tunnel host).toString)
      (key : validate_peer_key public_key = .ok ()) (low : 2 ≤ host) (high : host ≤ 254)
      (available : ensure_routes_available s.live public_key [tunnel host] = .ok ()) :
      Planned added legacy created s ⟨none, [.set public_key [(tunnel host).toString]], none⟩
  | peer_removed {public_key : String} : Planned added legacy created s ⟨none, [.remove public_key], none⟩

/-- One thing that an operation does. -/
inductive Shift (added : Option String) (legacy : Vps → String → String → Prop)
    (created : String → FriendStore → Prop) : Vps → Vps → Prop
  | migrated {s : Vps} {old store : FriendStore} {data : String}
      (read : read_store s.metadata = .ok old) (schema : old.schema = 1)
      (migrated : migrate s.metadata.isNone s.live old = .ok store)
      (encoded : encode_store store = .ok data) : Shift added legacy created s (publish data s)
  | planned {s s' : Vps} {plan : Plan} (planned : Planned interface added legacy created s plan)
      (moved : Moved plan s s') : Shift added legacy created s s'
  | saved {s : Vps} : Shift added legacy created s (store_live s)
  | halted {s : Vps} {n : ℕ} : Shift added legacy created s { s with live := s.live.take n }
  | warp {s : Vps} {network : Option String} : Shift added legacy created s { s with warp := network }

/-- Several of them, one after the other. -/
abbrev Shifts (added : Option String) (legacy : Vps → String → String → Prop)
    (created : String → FriendStore → Prop) : Vps → Vps → Prop :=
  Relation.ReflTransGen (Shift interface added legacy created)

end

/-! ## Peers -/

theorem find_peers {live : Interface} {owners : List String} {public_key : String} :
    (peers live owners).find? (fun p => p.1 = public_key) =
      (live.peers.find? fun p => p.1 = public_key).map fun p => (p.1, peer_kind owners p) := by
  rw [peers, List.find?_map]
  rfl

theorem find_peer_none {live : Interface} {public_key : String} :
    live.peers.find? (fun p => p.1 = public_key) = none ↔ public_key ∉ live.keys := by
  rw [List.find?_eq_none, WireGuard.Interface.mem_keys]
  constructor
  · rintro h ⟨routes, hp⟩
    exact h _ hp (decide_eq_true rfl)
  · intro h p hp hk
    exact h ⟨p.2, by rwa [← of_decide_eq_true hk]⟩

theorem find_peer_some {live : Interface} {public_key : String} {p : String × List String} :
    live.peers.find? (fun p => p.1 = public_key) = some p ↔ p.1 = public_key ∧ p ∈ live.peers := by
  constructor
  · intro h
    exact ⟨by simpa using List.find?_some h, List.mem_of_find?_eq_some h⟩
  · rintro ⟨rfl, hp⟩
    cases hf : live.peers.find? fun q => q.1 = p.1 with
    | none => exact absurd (WireGuard.Interface.mem_keys.mpr ⟨p.2, hp⟩) (find_peer_none.mp hf)
    | some q =>
      have hq : q.1 = p.1 := by simpa using List.find?_some hf
      have hmem := List.mem_of_find?_eq_some hf
      have he : q.2 = p.2 := WireGuard.Interface.routes_unique (hq ▸ hmem) hp
      rw [show q = p from Prod.ext hq he]

theorem classify_friend_eq {routes : List String} {ip : String} :
    classify_friend (fields routes) = .friend ip ↔
      ∃ route host, routes = [route] ∧ validate_tunnel_ip route = .ok (tunnel host) ∧
        2 ≤ host ∧ host ≤ 254 ∧ ip = (tunnel host).toString := by
  have hone : ∀ route, classify_friend [route] = .friend ip ↔
      ∃ host, validate_tunnel_ip route = .ok (tunnel host) ∧
        2 ≤ host ∧ host ≤ 254 ∧ ip = (tunnel host).toString := by
    intro route
    rw [classify_friend]
    cases hv : validate_tunnel_ip route with
    | error e => simp
    | ok network =>
      obtain ⟨-, host, hlo, hhi, rfl⟩ := validate_tunnel_ip_eq_ok.mp hv
      simp only [PeerKind.friend.injEq, Except.ok.injEq]
      constructor
      · rintro rfl
        exact ⟨host, rfl, hlo, hhi, rfl⟩
      · rintro ⟨host', he, -, -, rfl⟩
        rw [he]
  match routes with
  | [] =>
    have hnone : classify_friend (fields []) = .other := by decide +kernel
    rw [hnone]
    simp
  | [route] =>
    have hf : fields [route] = [route] := rfl
    rw [hf, hone]
    simp
  | a :: b :: routes =>
    have hf : classify_friend (fields (a :: b :: routes)) = .other := rfl
    rw [hf]
    simp

/-- A key with a friend's shape, and the address it goes by. -/
structure FriendShape (live : Interface) (owners : List String) (public_key ip : String) :
    Prop where
  unowned : public_key ∉ owners
  shape : ∃ routes, (public_key, routes) ∈ live.peers ∧ classify_friend (fields routes) = .friend ip

theorem mem_peers_friend {live : Interface} {owners : List String} {public_key ip : String} :
    (public_key, PeerKind.friend ip) ∈ peers live owners ↔
      FriendShape live owners public_key ip := by
  constructor
  · intro h
    obtain ⟨p, hp, he⟩ := List.mem_map.mp h
    rw [Prod.mk.injEq] at he
    obtain ⟨rfl, hk⟩ := he
    unfold peer_kind at hk
    split_ifs at hk with ho
    exact ⟨ho, p.2, hp, hk⟩
  · rintro ⟨ho, routes, hp, hk⟩
    refine List.mem_map.mpr ⟨(public_key, routes), hp, ?_⟩
    rw [peer_kind, if_neg ho, hk]

theorem peer_shape_ok {store : FriendStore} {live : Interface} {public_key : String}
    {shape : Option String} (h : peer_shape store (peers live store.owners) public_key = .ok shape) :
    validate_peer_key public_key = .ok () ∧ public_key ∉ store.owners ∧
      match shape with
      | none => public_key ∉ live.keys
      | some ip => FriendShape live store.owners public_key ip := by
  simp only [peer_shape, bind_eq_ok, bail_if_eq_ok, decide_eq_false_iff_not, find_peers] at h
  obtain ⟨_, hkey, _, ho, h⟩ := h
  refine ⟨hkey, ho, ?_⟩
  cases hf : live.peers.find? fun p => p.1 = public_key with
  | none =>
    rw [hf] at h
    cases h
    exact find_peer_none.mp hf
  | some p =>
    obtain ⟨rfl, hp⟩ := find_peer_some.mp hf
    rw [hf, Option.map_some, peer_kind, if_neg ho] at h
    cases hk : classify_friend (fields p.2) with
    | friend ip =>
      rw [hk] at h
      cases h
      exact ⟨ho, p.2, hp, hk⟩
    | owner => rw [hk] at h; cases h
    | other => rw [hk] at h; cases h

/-! ## Loading -/

theorem mem_legacy_owners {live : Interface} {public_key : String} :
    public_key ∈ legacy_owners live ↔
      ∃ routes, (public_key, routes) ∈ live.peers ∧ CLIENT_SUBNET ∈ fields routes := by
  simp [legacy_owners]

theorem legacy_owners_nodup (live : Interface) : (legacy_owners live).Nodup :=
  live.nodup.sublist (List.filter_sublist.map _)

theorem has_record_eq_false {store : FriendStore} {public_key : String} :
    has_record store public_key = false ↔
      public_key ∉ store.records.map FriendRecord.public_key := by
  simp [has_record]

/-- What a migration keeps and finds. -/
structure Migrated (missing : Bool) (live : Interface) (old store : FriendStore) : Prop where
  schema : store.schema = 2
  records : store.records = old.records
  owners : store.owners = legacy_owners live
  keys : ∀ owner ∈ store.owners, validate_peer_key owner = .ok ()
  unrecorded : ∀ owner ∈ store.owners, has_record old owner = false

theorem migrate_eq_ok {missing : Bool} {live : Interface} {old store : FriendStore}
    (h : migrate missing live old = .ok store) : Migrated missing live old store := by
  simp only [migrate, bind_eq_ok, bail_if_eq_ok] at h
  obtain ⟨_, -, _, -, _, howners, h⟩ := h
  cases h
  have hall := Agent.forM_eq_ok.mp howners
  simp only [bind_eq_ok, bail_if_eq_ok] at hall
  refine ⟨rfl, rfl, rfl, fun owner ho => ?_, fun owner ho => ?_⟩
  · obtain ⟨_, hkey, -⟩ := hall owner ho
    exact hkey
  · obtain ⟨_, -, hrec⟩ := hall owner ho
    exact hrec

theorem Migrated.valid {missing : Bool} {live : Interface} {old store : FriendStore}
    (h : Migrated missing live old store) (hv : old.Valid) : store.Valid where
  records := h.records ▸ hv.records
  owners := h.keys
  distinct := by
    rw [h.records]
    refine List.nodup_append.mpr ⟨(List.nodup_append.mp hv.distinct).1, ?_, ?_⟩
    · rw [h.owners]
      exact legacy_owners_nodup live
    · rintro a ha b hb rfl
      exact has_record_eq_false.mp (h.unrecorded a hb) ha

section

variable [Platform] {interface : String} {faults : Faults} {added : Option String}
  {legacy : Vps → String → String → Prop} {created : String → FriendStore → Prop} {s : Vps}

/-- The metadata of a state, with the owners that a migration finds. -/
structure Descends (s : Vps) (store : FriendStore) : Prop where
  old : ∃ old, read_store s.metadata = .ok old ∧ store.records = old.records ∧
    (store.owners = old.owners ∨ store.owners = legacy_owners s.live)

/-- The store that is worked with, after a migration if there was one. -/
structure LoadedFrom (interface : String) (added : Option String)
    (legacy : Vps → String → String → Prop) (created : String → FriendStore → Prop) (s : Vps)
    (store : FriendStore) (s' : Vps) : Prop where
  shifts : Shifts interface added legacy created s s'
  loaded : Loaded s' store
  live : s'.live = s.live
  warp : s'.warp = s.warp
  descends : Descends s store

theorem load_store_ends (interface : String) (faults : Faults) (added : Option String)
    (legacy : Vps → String → String → Prop) (created : String → FriendStore → Prop) (s : Vps) :
    Ends (load_store interface faults) (LoadedFrom interface added legacy created s)
      (fun _ => Shifts interface added legacy created s) s := by
  have hs : Shifts interface added legacy created s s := .refl
  refine ends_lift_bind hs fun _ _ => ends_query_bind hs (ends_get_bind.mpr ?_)
  refine ends_lift_bind hs fun store hread => ?_
  by_cases h1 : store.schema = 1
  · rw [if_pos h1]
    refine ends_lift_bind hs fun next hnext => ends_bind.mpr (write_store_ends hs ?_)
    intro data hdata
    have hshift : Shifts interface added legacy created s (publish data s) :=
      .single (.migrated hread h1 hnext hdata)
    have hm := migrate_eq_ok hnext
    exact ⟨⟨hshift, ⟨read_store_encode hm.schema (hm.valid (read_store_valid hread)) hdata,
      hm.schema⟩, rfl, rfl, ⟨store, hread, hm.records, .inr hm.owners⟩⟩, hshift⟩
  · rw [if_neg h1]
    have h2 := (read_store_schema hread).resolve_left fun h => h1 h.1
    exact ⟨hs, ⟨hread, h2⟩, rfl, rfl, ⟨store, hread, rfl, .inl rfl⟩⟩

theorem ends_load_bind {α : Type} {f : FriendStore → Managed α} {P : α → Vps → Prop}
    (hf : ∀ store s', LoadedFrom interface added legacy created s store s' →
      Ends (f store) P (fun _ => Shifts interface added legacy created s) s') :
    Ends (load_store interface faults >>= f) P (fun _ => Shifts interface added legacy created s) s :=
  ends_bind.mpr ((load_store_ends interface faults added legacy created s).mono hf fun _ _ h => h)

end

theorem read_friend_name_eq_ok {input name : String} (h : read_friend_name input = .ok name) :
    ∃ n, validate_name name = .ok n := by
  simp only [read_friend_name, bind_eq_ok] at h
  obtain ⟨_, -, _, -, h⟩ := h
  exact ⟨name, validate_name_twice h⟩

/-! ## Carrying out a plan -/

section

variable {interface : String} {faults : Faults} {plan : Plan} {s : Vps} {metadata : Option String}
  {live saved : Interface}

theorem moved_restored (hw : Written plan.next s.metadata metadata) :
    Moved plan s { s with saved := s.live, metadata } := .midway hw .start (.inr (.inl rfl))

theorem undo_reaches {store : FriendStore} (hw : Written plan.next s.metadata metadata)
    (hu : plan.undo = some store) :
    Reaches (write_store interface faults.undo store) (Moved plan s)
      { s with saved := s.live, metadata } :=
  write_store_ends (moved_restored hw) fun _ hdata => ⟨.undone hu hdata, .undone hu hdata⟩

theorem rolled_back {what error : String} {finish : Managed Unit} {P : Unit → Vps → Prop}
    (hw : Written plan.next s.metadata metadata) (hl : Midway plan.changes s.live live)
    (hs : Kept plan.changes s saved)
    (hfinish : Ends finish P (fun _ => Moved plan s) { s with saved := s.live, metadata }) :
    Ends (roll_back faults what s.live error finish) P (fun _ => Moved plan s)
      { s with live, saved, metadata } :=
  roll_back_ends (.midway hw hl hs) (fun n => .midway hw (.back n) hs) (.midway hw .start hs)
    (moved_restored hw) hfinish

/-- **A plan's changes**, once its metadata is written. -/
theorem changed_moved {changes : List Change} {undo : Interface → String → Managed Unit}
    (hw : Written plan.next s.metadata metadata) (hc : plan.changes = changes)
    (hundo : ∀ live saved error, Midway plan.changes s.live live → Kept plan.changes s saved →
      Reaches (undo s.live error) (Moved plan s) { s with live, saved, metadata }) :
    Reaches (changed faults changes undo) (Moved plan s) { s with metadata } :=
  hc ▸ changed_ends (.midway hw .all (.inr (.inr rfl))) (fun _ _ hl hs => .midway hw hl hs) hundo

theorem written_moved {outcome : Outcome} {store : FriendStore} (hn : plan.next = some store) :
    Reaches (write_store interface outcome store) (Moved plan s) s := by
  refine write_store_ends .untouched fun data hdata => ?_
  have hw : Written plan.next s.metadata (some data) := by
    rw [hn]
    exact ⟨data, hdata, rfl⟩
  exact ⟨.midway hw .start (.inl rfl), .midway hw .start (.inl rfl)⟩

/-- **A plan that writes its metadata first**, with what comes after it. -/
theorem write_moved {α : Type} {outcome : Outcome} {store : FriendStore} {rest : Managed α}
    (hn : plan.next = some store)
    (hrest : ∀ data, Written plan.next s.metadata (some data) →
      Reaches rest (Moved plan s) { s with metadata := some data }) :
    Reaches (do write_store interface outcome store
                rest) (Moved plan s) s := by
  refine ends_bind.mpr (write_store_ends .untouched fun data hdata => ?_)
  have hw : Written plan.next s.metadata (some data) := by
    rw [hn]
    exact ⟨data, hdata, rfl⟩
  exact ⟨hrest data hw, .midway hw .start (.inl rfl)⟩

end

/-! ## The operations -/

theorem allocate_free {live : Interface} {network : Net}
    (h : allocate_tunnel_ip live = .ok network) :
    ∃ host, network = tunnel host ∧ FreeHost live host := by
  obtain ⟨host, hlo, hhi, hn, hfree⟩ := allocate_tunnel_ip_eq_ok h
  exact ⟨host, hn, hlo, hhi, hfree⟩

section

variable [Platform] {interface : String} {faults : Faults} {added : Option String}
  {legacy : Vps → String → String → Prop} {created : String → FriendStore → Prop} {s : Vps}

theorem Reaches.planned {α : Type} {m : Managed α} {plan : Plan} {s' : Vps}
    (hs : Shifts interface added legacy created s s') (hp : Planned interface added legacy created s' plan)
    (h : Reaches m (Moved plan s') s') : Reaches m (Shifts interface added legacy created s) s' :=
  h.mono fun _ hm => hs.tail (.planned hp hm)

theorem create_shifts {endpoint name private_key : String} (hname : ∃ n, validate_name name = .ok n)
    (hadded : added = some (pubkey private_key))
    (hcreated : ∀ store, Descends s store → created private_key store) :
    Reaches (create interface faults endpoint name private_key)
      (Shifts interface added legacy created s) s := by
  refine ends_load_bind fun store s' h => ?_
  refine ends_query_bind h.shifts (ends_get_bind.mpr ?_)
  refine ends_unless h.shifts fun hunique => ?_
  refine ends_lift_bind h.shifts fun _ hkey => ends_lift_bind h.shifts fun network hnet => ?_
  obtain ⟨host, rfl, hfree⟩ := allocate_free hnet
  obtain ⟨plan, hplan, hn, hc, hu⟩ : ∃ plan, Planned interface added legacy created s' plan ∧
      plan.next = some { store with
        records := store.records ++ [⟨pubkey private_key, name, some private_key⟩] } ∧
      plan.changes = [.set (pubkey private_key) [(tunnel host).toString]] ∧ plan.undo = some store :=
    ⟨_, .friend h.loaded hadded hkey hname (Bool.eq_false_of_not_eq_true hunique) hfree
      (hcreated store h.descends), rfl, rfl, rfl⟩
  refine Reaches.planned h.shifts hplan (write_moved hn fun data hw => ?_)
  refine Reaches.bind (changed_moved hw hc fun live saved error hl hs => ?_) fun _ _ hm => hm
  exact rolled_back hw hl hs (undo_reaches hw hu)

theorem rename_shifts {public_key name : String} (hname : ∃ n, validate_name name = .ok n) :
    Reaches (rename interface faults public_key name) (Shifts interface added legacy created s) s := by
  refine ends_load_bind fun store s' h => ?_
  refine ends_query_bind h.shifts (ends_get_bind.mpr ?_)
  refine ends_lift_bind h.shifts fun current hshape => ?_
  refine ends_unless h.shifts fun hactive => ends_unless h.shifts fun hunique => ?_
  cases current with
  | none => exact absurd rfl hactive
  | some ip =>
    obtain ⟨plan, hplan, hn, hc⟩ : ∃ plan, Planned interface added legacy created s' plan ∧
        plan.next = some { store with records := named store public_key name } ∧
        plan.changes = [] :=
      ⟨_, .renamed h.loaded hshape hname (Bool.eq_false_of_not_eq_true hunique), rfl, rfl⟩
    exact Reaches.planned h.shifts hplan (written_moved hn)

theorem save_shifts {outcome : Outcome} {s' : Vps} (hs : Shifts interface added legacy created s s') :
    Reaches (save outcome) (Shifts interface added legacy created s) s' :=
  ends_whole (hs.tail .saved) hs (hs.tail .saved)

theorem revoke_shifts {public_key : String} :
    Reaches (revoke interface faults public_key) (Shifts interface added legacy created s) s := by
  refine ends_load_bind fun store s' h => ?_
  refine ends_query_bind h.shifts (ends_get_bind.mpr ?_)
  refine ends_lift_bind h.shifts fun current hshape => ?_
  cases current with
  | none =>
    by_cases hr : has_record store public_key = true
    · simp only [if_pos hr]
      exact save_shifts h.shifts
    · simp only [if_neg hr]
      exact h.shifts
  | some ip =>
    obtain ⟨plan, hplan, hn, hc, hu⟩ : ∃ plan, Planned interface added legacy created s' plan ∧
        plan.next = some { store with records := recorded store public_key ip } ∧
        plan.changes = [.remove public_key] ∧ plan.undo = some store :=
      ⟨_, .revoked h.loaded hshape, rfl, rfl, rfl⟩
    refine Reaches.planned h.shifts hplan (write_moved hn fun data hw => ?_)
    exact changed_moved hw hc fun live saved error hl hs =>
      rolled_back hw hl hs (undo_reaches hw hu)

theorem profile_shifts {public_key endpoint : String} :
    Reaches (profile interface faults public_key endpoint) (Shifts interface added legacy created s) s := by
  refine ends_load_bind fun store s' h => ?_
  refine ends_query_bind h.shifts (ends_get_bind.mpr ?_)
  refine ends_lift_bind h.shifts fun current hshape => ?_
  cases current with
  | none => exact h.shifts
  | some ip =>
    simp only
    cases store.records.find? fun record => record.public_key = public_key with
    | none => exact h.shifts
    | some record =>
      simp only
      cases record.private_key with
      | none => exact h.shifts
      | some private_key => exact ends_unless h.shifts fun _ => h.shifts

theorem add_router_peer_shifts {public_key tunnel_ip : String} (hadded : added = some public_key)
    {s₀ : Vps} (hs₀ : Shifts interface added legacy created s₀ s) :
    Reaches (add_router_peer interface faults public_key tunnel_ip)
      (Shifts interface added legacy created s₀) s := by
  refine ends_lift_bind hs₀ fun _ hkey => ends_lift_bind hs₀ fun network hnet => ?_
  obtain ⟨-, host, hlo, hhi, rfl⟩ := validate_tunnel_ip_eq_ok.mp hnet
  refine ends_get_bind.mpr (ends_lift_bind hs₀ fun routes hroutes => ?_)
  refine ends_lift_bind hs₀ fun _ havail => ?_
  refine ends_bind.mpr ((load_store_ends interface faults added legacy created s).mono ?_
    fun _ _ h => hs₀.trans h)
  intro store s' h
  have hs' := hs₀.trans h.shifts
  refine ends_query_bind hs' (ends_unless hs' fun hnew => ?_)
  rw [Bool.or_eq_true, not_or, Bool.and_eq_true, not_and] at hnew
  have hunrec : has_record store public_key = false := Bool.eq_false_of_not_eq_true hnew.1
  have hunclass : public_key ∈ store.owners ∨ public_key ∉ s'.live.keys := by
    by_cases ho : public_key ∈ store.owners
    · exact .inl ho
    · have hn := hnew.2 (by simpa using ho)
      rw [h.live]
      exact .inr (by simpa using hn)
  rw [← h.live] at havail
  rw [← h.warp] at hroutes
  obtain ⟨plan, hplan, hn, hc, hu⟩ : ∃ plan, Planned interface added legacy created s' plan ∧
      plan.next = some { store with owners := with_owner store public_key } ∧
      plan.changes = [.set public_key (routes.map Net.toString)] ∧
      plan.undo = if public_key ∈ store.owners then none else some store :=
    ⟨_, .owner h.loaded hadded hkey hlo hhi hroutes havail hunrec hunclass, rfl, rfl, rfl⟩
  refine Reaches.planned hs' hplan (write_moved hn fun data hw => ?_)
  refine changed_moved hw hc fun live saved error hl hs => ?_
  have hback : Ends (roll_back faults "router owner creation failed" s'.live error (pure ()))
      (fun _ s'' => s'' = { s' with saved := s'.live, metadata := some data })
      (fun _ => Moved plan s') { s' with live, saved, metadata := some data } :=
    rolled_back hw hl hs (ends_pure.mpr rfl)
  refine ends_bind.mpr (hback.mono ?_ fun _ _ hm => hm)
  rintro _ _ rfl
  by_cases ho : public_key ∈ store.owners
  · simp only [if_pos ho]
    exact moved_restored hw
  · simp only [if_neg ho] at hu ⊢
    exact undo_reaches hw hu

theorem create_router_profile_shifts {endpoint private_key : String}
    (hadded : added = some (pubkey private_key)) :
    Reaches (create_router_profile interface faults endpoint private_key)
      (Shifts interface added legacy created s) s := by
  have hload := load_store_ends interface faults.first added legacy created s
  refine ends_bind.mpr (ends_bind.mpr (hload.mono ?_ fun _ _ h => h))
  intro store s' h
  refine ends_query_bind h.shifts (ends_get_bind.mpr ?_)
  refine ends_lift_bind h.shifts fun _ _ => ends_lift_bind h.shifts fun network _ => ?_
  exact Reaches.bind (add_router_peer_shifts hadded h.shifts) fun _ _ h => h

theorem warp_routes_ends {s₀ : Vps} (hs₀ : Shifts interface added legacy created s₀ s) :
    Ends (warp_routes interface faults) (fun changes s' => Shifts interface added legacy created s₀ s' ∧
        ∃ store, Loaded s' store ∧ warp_changes s'.live store = .ok changes)
      (fun _ => Shifts interface added legacy created s₀) s := by
  refine ends_bind.mpr ((load_store_ends interface faults added legacy created s).mono ?_
    fun _ _ h => hs₀.trans h)
  intro store s' h
  have hs' := hs₀.trans h.shifts
  refine ends_query_bind hs' (ends_get_bind.mpr (ends_lift.mpr ⟨fun changes hc => ?_, fun _ _ => hs'⟩))
  exact ⟨hs', store, h.loaded, hc⟩

theorem authorize_warp_shifts {s₀ : Vps} (hs₀ : Shifts interface added legacy created s₀ s) :
    Reaches (authorize_warp interface faults) (Shifts interface added legacy created s₀) s := by
  refine ends_get_bind.mpr (ends_lift_bind hs₀ fun _ _ => ends_unless hs₀ fun _ => ?_)
  refine ends_bind.mpr ((warp_routes_ends hs₀).mono ?_ fun _ _ h => h)
  rintro changes s' ⟨hs', store, hload, hroutes⟩
  obtain ⟨plan, hplan, hn, hc⟩ : ∃ plan, Planned interface added legacy created s' plan ∧
      plan.next = none ∧ plan.changes = changes := ⟨_, .warp hload hroutes, rfl, rfl⟩
  have hw : Written plan.next s'.metadata s'.metadata := by
    rw [hn]
    rfl
  exact Reaches.planned hs' hplan (changed_moved hw hc fun live saved error hl hs =>
    rolled_back hw hl hs (moved_restored hw))

theorem remove_router_peer_shifts {public_key : String} :
    Reaches (remove_router_peer interface faults public_key) (Shifts interface added legacy created s) s := by
  refine ends_load_bind fun store s' h => ?_
  refine ends_query_bind h.shifts (ends_lift_bind h.shifts fun _ _ => ?_)
  refine ends_unless h.shifts fun howner => ?_
  obtain ⟨plan, hplan, hn, hc⟩ : ∃ plan, Planned interface added legacy created s' plan ∧
      plan.next = none ∧ plan.changes = [.remove public_key] :=
    ⟨_, .owner_removed h.loaded (not_not.mp howner), rfl, rfl⟩
  have hw : Written plan.next s'.metadata s'.metadata := by
    rw [hn]
    rfl
  exact Reaches.planned h.shifts hplan (changed_moved hw hc fun live saved error hl hs =>
    rolled_back hw hl hs (moved_restored hw))

/-! ## Commands -/

/-- What is known when a command creates a friend: its private key, and the metadata. -/
def Creates (command : Command) (s : Vps) (private_key : String) (store : FriendStore) : Prop :=
  (∃ endpoint input, command = .create_friend endpoint input private_key) ∧ Descends s store

/-- The peer that a command adds without metadata, in the state that it begins with. -/
def Adds (command : Command) (s s' : Vps) (public_key ip : String) : Prop :=
  s' = s ∧ command.peer s = some (public_key, ip)

theorem add_peer_shifts {public_key tunnel_ip : String} (hadded : added = some public_key)
    (hlegacy : ∀ network, validate_tunnel_ip tunnel_ip = .ok network →
      accepted s public_key network = .ok (public_key, network.toString) →
        legacy s public_key network.toString) :
    Reaches (add_peer faults public_key tunnel_ip) (Shifts interface added legacy created s) s := by
  have hs : Shifts interface added legacy created s s := .refl
  refine ends_lift_bind hs fun _ hkey => ends_lift_bind hs fun network hnet => ?_
  obtain ⟨-, host, hlo, hhi, rfl⟩ := validate_tunnel_ip_eq_ok.mp hnet
  refine ends_query_bind hs (ends_get_bind.mpr (ends_lift_bind hs fun _ havail => ?_))
  have haccepted : accepted s public_key (tunnel host) =
      .ok (public_key, (tunnel host).toString) := by
    rw [accepted, hkey, havail]
    rfl
  obtain ⟨plan, hplan, hn, hc⟩ : ∃ plan, Planned interface added legacy created s plan ∧
      plan.next = none ∧ plan.changes = [.set public_key [(tunnel host).toString]] :=
    ⟨_, .peer hadded (hlegacy _ hnet haccepted) hkey hlo hhi havail, rfl, rfl⟩
  have hw : Written plan.next s.metadata s.metadata := by
    rw [hn]
    rfl
  exact Reaches.planned hs hplan (changed_moved hw hc fun live saved error hl hs =>
    rolled_back hw hl hs (moved_restored hw))

theorem remove_peer_shifts {public_key : String} :
    Reaches (remove_peer faults public_key) (Shifts interface added legacy created s) s := by
  obtain ⟨plan, hplan, hn, hc⟩ : ∃ plan, Planned interface added legacy created s plan ∧
      plan.next = none ∧ plan.changes = [.remove public_key] := ⟨_, .peer_removed, rfl, rfl⟩
  have hw : Written plan.next s.metadata s.metadata := by
    rw [hn]
    rfl
  refine Reaches.planned (.refl) hplan (ends_bind.mpr ?_)
  rw [← hc]
  refine wg_set_ends ?_ fun n => .midway hw (.forth n) (.inl rfl)
  exact ends_whole (.midway hw .all (.inr (.inr rfl))) (.midway hw .all (.inl rfl))
    (.midway hw .all (.inr (.inr rfl)))

theorem restart_shifts : Reaches (restart interface faults) (Shifts interface added legacy created s) s := by
  refine ends_lift_bind .refl fun _ _ => ends_bind.mpr ?_
  have hs : Shifts interface added legacy created s (store_live s) := .single .saved
  -- what was saved just now is loaded again, or a part of it
  have hstart : Ends (do command faults.service "systemctl restart failed" restarting reload
                         query faults.relay "systemctl restart failed" : Managed Unit)
      (fun _ => Shifts interface added legacy created s) (fun _ => Shifts interface added legacy created s)
      (store_live s) := by
    refine ends_bind.mpr (ends_command_of ?_ (loading_of hs fun n => hs.tail .halted))
    exact ends_query_of hs fun _ => hs
  exact ends_whole hstart .refl hs

theorem warp_command_shifts {s' : Vps} (hs : Shifts interface added legacy created s s') :
    Reaches (warp_command faults) (Shifts interface added legacy created s) s' :=
  ends_whole (hs.tail .warp) hs (hs.tail .warp)

theorem enable_warp_shifts {accept_terms : Bool} :
    Reaches (enable_warp interface faults accept_terms) (Shifts interface added legacy created s) s := by
  refine ends_unless .refl fun _ => ends_bind.mpr (ends_bind.mpr ?_)
  refine (warp_routes_ends .refl).mono ?_ fun _ _ h => h
  rintro changes s' ⟨hs', -⟩
  exact Reaches.bind (warp_command_shifts hs') fun _ _ hs'' => authorize_warp_shifts hs''

theorem status_shifts :
    Reaches (status interface faults) (Shifts interface added legacy created s) s := by
  refine ends_load_bind fun store s' h => ?_
  refine ends_query_bind h.shifts (ends_get_bind.mpr ?_)
  have hwarp : Reaches (warp_status interface faults) (Shifts interface added legacy created s) s' := by
    refine ends_get_bind.mpr (ends_lift_bind h.shifts fun prepared _ => ?_)
    cases prepared with
    | false => exact h.shifts
    | true =>
      refine ends_query_bind h.shifts (ends_lift_bind h.shifts fun status _ => ?_)
      exact ends_unless h.shifts fun _ => h.shifts
  exact hwarp.bind fun _ _ h => h

theorem add_legacy_shifts {owner : Bool} {public_key tunnel_ip : String}
    (hadded : added = some public_key)
    (hlegacy : owner = false → ∀ network, validate_tunnel_ip tunnel_ip = .ok network →
      accepted s public_key network = .ok (public_key, network.toString) →
        legacy s public_key network.toString) :
    Reaches (add_legacy interface faults owner public_key tunnel_ip)
      (Shifts interface added legacy created s) s := by
  cases owner with
  | false => exact add_peer_shifts hadded (hlegacy rfl)
  | true => exact add_router_peer_shifts hadded .refl

theorem create_profile_shifts {endpoint private_key : String} {tunnel_ip subnet : Option String} :
    let command := Command.create_profile endpoint tunnel_ip subnet private_key
    Reaches (create_profile interface faults endpoint tunnel_ip subnet private_key)
      (Shifts interface command.added (Adds command s) (Creates command s) s) s := by
  intro command
  refine ends_lift_bind .refl fun _ hend => ends_lift_bind .refl fun owner howner => ?_
  refine ends_query_bind .refl (ends_get_bind.mpr ?_)
  cases tunnel_ip with
  | some tunnel_ip =>
    refine ends_bind.mpr (ends_pure.mpr (Reaches.bind (add_legacy_shifts rfl ?_) fun _ _ h => h))
    rintro rfl network hnet haccepted
    cases legacy_owner_eq_false howner
    refine ⟨rfl, ?_⟩
    rw [Command.peer, hend, hnet]
    show (accepted s _ network).toOption = _
    rw [haccepted]
    rfl
  | none =>
    refine ends_lift_bind .refl fun network hnet => ?_
    refine ends_bind.mpr (ends_pure.mpr (Reaches.bind (add_legacy_shifts rfl ?_) fun _ _ h => h))
    rintro rfl network' hnet' haccepted
    cases legacy_owner_eq_false howner
    obtain ⟨host, rfl, hfree⟩ := allocate_free hnet
    rw [validate_tunnel_ip_tunnel hfree.low hfree.high] at hnet'
    cases hnet'
    refine ⟨rfl, ?_⟩
    rw [Command.peer, hend, hnet]
    show (accepted s _ (tunnel host)).toOption = _
    rw [haccepted]
    rfl

/-- **What a command makes of the server**, however it ends. -/
theorem dispatch_shifts (command : Command) :
    Shifts interface command.added (Adds command s) (Creates command s) s
      ((dispatch interface faults command).exec s).2 := by
  have h : Reaches (dispatch interface faults command)
      (Shifts interface command.added (Adds command s) (Creates command s) s) s := by
    cases command with
    | add_peer public_key tunnel_ip subnet =>
      refine ends_query_bind .refl (ends_lift_bind .refl fun owner howner => ?_)
      refine Reaches.bind (add_legacy_shifts rfl ?_) fun _ _ h => h
      rintro rfl network hnet haccepted
      cases legacy_owner_eq_false howner
      refine ⟨rfl, ?_⟩
      rw [Command.peer, hnet]
      show (accepted s public_key network).toOption = _
      rw [haccepted]
      rfl
    | create_profile endpoint tunnel_ip subnet private_key =>
      exact ends_query_bind .refl create_profile_shifts
    | remove_peer public_key subnet =>
      refine ends_query_bind .refl (ends_lift_bind .refl fun owner _ => ?_)
      cases owner with
      | false => exact Reaches.bind remove_peer_shifts fun _ _ h => h
      | true => exact Reaches.bind remove_router_peer_shifts fun _ _ h => h
    | create_router_profile endpoint private_key =>
      exact ends_lift_bind .refl fun _ _ => ends_query_bind .refl (create_router_profile_shifts rfl)
    | remove_router_peer public_key =>
      exact ends_query_bind .refl (Reaches.bind remove_router_peer_shifts fun _ _ h => h)
    | capabilities => exact .refl
    | managed_status =>
      exact ends_query_bind .refl (Reaches.bind status_shifts fun _ _ h => h)
    | create_friend endpoint input private_key =>
      refine ends_lift_bind .refl fun _ _ => ends_lift_bind .refl fun name hname => ?_
      exact ends_query_bind .refl (create_shifts (read_friend_name_eq_ok hname) rfl
        fun _ hold => ⟨⟨endpoint, input, rfl⟩, hold⟩)
    | rename_friend public_key input =>
      refine ends_lift_bind .refl fun name hname => ends_query_bind .refl ?_
      exact Reaches.bind (rename_shifts (read_friend_name_eq_ok hname)) fun _ _ h => h
    | revoke_friend public_key =>
      exact ends_query_bind .refl (Reaches.bind revoke_shifts fun _ _ h => h)
    | friend_profile public_key endpoint =>
      exact ends_lift_bind .refl fun _ _ => ends_query_bind .refl profile_shifts
    | restart_vpn => exact ends_query_bind .refl (Reaches.bind restart_shifts fun _ _ h => h)
    | enable_warp accept_terms =>
      exact ends_query_bind .refl (Reaches.bind enable_warp_shifts fun _ _ h => h)
    | disable_warp =>
      exact ends_query_bind .refl (Reaches.bind (warp_command_shifts .refl) fun _ _ h => h)
  exact Ends.state h

end

end Gofro.Server
