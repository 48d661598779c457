import GofroRouter.Server.Atomic
import GofroRouter.Server.Names

/-!
# The registry of friends

What a server is for, seen from outside: a registry of friends under their keys, each with a name,
revoked or not, and with a profile that can be handed out or not. The metadata and the live
interface together represent a registry, the one that a status lists.

* `Friend`, `Registry`: the abstract registry, with `created`, `renamed` and `revoked`.
* `view`: the registry of a store and an interface. **`mem_listed_iff`**: it is what is listed.
* **`commands_refined`**: what a command that succeeds does to the registry.
* **`registry_runs`**: runs of commands, some of which fail.
-/

namespace Gofro.Server

open Text Fallible
open Ipv4 (Net)
open Platform (pubkey)
open Gofro.Agent (bail_if bail_if_eq_ok bind_eq_ok)

/-! ## Registries -/

/-- What the registry has about a friend. -/
structure Friend where
  name : String
  revoked : Bool
  can_share : Bool
deriving DecidableEq

/-- Friends under their keys. -/
abbrev Registry := String → Option Friend

namespace Registry

/-- A new friend, with a profile. -/
def created (public_key name : String) (registry : Registry) : Registry :=
  Function.update registry public_key (some ⟨name, false, true⟩)

def renamed (public_key name : String) (registry : Registry) : Registry :=
  Function.update registry public_key ((registry public_key).map fun friend => { friend with name })

/-- A revoked friend stays listed, without a profile. -/
def revoked (public_key : String) (registry : Registry) : Registry :=
  Function.update registry public_key
    ((registry public_key).map fun friend => ⟨friend.name, true, false⟩)

end Registry

/-! ## The registry of a server -/

/-- The record with a key. -/
def record_of (store : FriendStore) (public_key : String) : Option FriendRecord :=
  store.records.find? fun record => record.public_key = public_key

/-- What the live peer with a key is. -/
def kind_of (live : Interface) (owners : List String) (public_key : String) : Option PeerKind :=
  ((peers live owners).find? fun p => p.1 = public_key).map Prod.snd

/-- The friend with this record and this peer. -/
def shown : Option FriendRecord → Option PeerKind → Option Friend
  | some record, none => some ⟨record.name, true, false⟩
  | some record, some (.friend _) => some ⟨record.name, false, record.private_key.isSome⟩
  | none, some (.friend ip) => some ⟨ip, false, false⟩
  | _, _ => none

/-- The registry that metadata and interface stand for. -/
def view (store : FriendStore) (live : Interface) : Registry := fun public_key =>
  shown (record_of store public_key) (kind_of live store.owners public_key)

variable {store : FriendStore} {live : Interface} {owners : List String} {public_key : String}

theorem kind_of_eq_some {kind : PeerKind} : kind_of live owners public_key = some kind ↔
    ∃ routes, (public_key, routes) ∈ live.peers ∧ kind = peer_kind owners (public_key, routes) := by
  rw [kind_of, find_peers, Option.map_map]
  constructor
  · intro h
    obtain ⟨p, hp, rfl⟩ := Option.map_eq_some_iff.mp h
    obtain ⟨rfl, hmem⟩ := find_peer_some.mp hp
    exact ⟨p.2, hmem, rfl⟩
  · rintro ⟨routes, hmem, rfl⟩
    rw [find_peer_some.mpr ⟨rfl, hmem⟩]
    rfl

theorem kind_of_eq_none : kind_of live owners public_key = none ↔ public_key ∉ live.keys := by
  rw [kind_of, find_peers, Option.map_map, Option.map_eq_none_iff]
  exact find_peer_none

theorem kind_of_congr {J : Interface} {owners' : List String} {key : String}
    (h : ∀ kind, (∃ routes, (key, routes) ∈ J.peers ∧ kind = peer_kind owners' (key, routes)) ↔
      ∃ routes, (key, routes) ∈ live.peers ∧ kind = peer_kind owners (key, routes)) :
    kind_of J owners' key = kind_of live owners key := by
  ext kind
  rw [kind_of_eq_some, kind_of_eq_some, h]

theorem record_of_key {record : FriendRecord} (h : record_of store public_key = some record) :
    record.public_key = public_key ∧ record ∈ store.records :=
  ⟨by simpa using List.find?_some h, List.mem_of_find?_eq_some h⟩

theorem record_of_eq_none : record_of store public_key = none ↔
    has_record store public_key = false := by
  rw [record_of, List.find?_eq_none, has_record, List.any_eq_false]

theorem record_of_mem (hv : store.Valid) {record : FriendRecord} (h : record ∈ store.records) :
    record_of store record.public_key = some record := by
  cases hf : record_of store record.public_key with
  | none =>
    rw [record_of_eq_none, has_record, List.any_eq_false] at hf
    exact absurd (decide_eq_true rfl) (hf record h)
  | some other =>
    obtain ⟨hkey, hmem⟩ := record_of_key hf
    have hnodup := (List.nodup_append.mp hv.distinct).1
    rw [List.inj_on_of_nodup_map hnodup hmem h hkey]

theorem recorded_peer_eq {record : FriendRecord} :
    recorded_peer (peers live owners) record = (shown (some record)
      (kind_of live owners record.public_key)).map fun friend =>
        ⟨record.public_key, friend.name, friend.revoked, friend.can_share⟩ := by
  rw [recorded_peer, ← kind_of]
  cases kind_of live owners record.public_key with
  | none => rfl
  | some kind => cases kind <;> rfl

/-- **The list of a status is the registry.** -/
theorem mem_listed_iff (hv : store.Valid) {peer : FriendPeer} :
    peer ∈ listed store (peers live store.owners) ↔
      view store live peer.public_key = some ⟨peer.name, peer.revoked, peer.can_share⟩ := by
  rw [mem_listed, view]
  constructor
  · rintro (⟨record, hr, hp⟩ | ⟨p, hp, hu⟩)
    · rw [recorded_peer_eq] at hp
      obtain ⟨friend, hfriend, rfl⟩ := Option.map_eq_some_iff.mp hp
      rw [record_of_mem hv hr, hfriend]
    · obtain ⟨ip, hk, hno, rfl⟩ := unrecorded_peer_eq_some.mp hu
      obtain ⟨key, kind⟩ := p
      obtain rfl : kind = .friend ip := hk
      obtain ⟨hunowned, routes, hmem, hclass⟩ := mem_peers_friend.mp hp
      have hkind : kind_of live store.owners key = some (.friend ip) :=
        kind_of_eq_some.mpr ⟨routes, hmem, by rw [peer_kind, if_neg hunowned, hclass]⟩
      rw [record_of_eq_none.mpr hno, hkind]
      rfl
  · intro h
    cases hr : record_of store peer.public_key with
    | some record =>
      obtain ⟨hkey, hmem⟩ := record_of_key hr
      refine .inl ⟨record, hmem, ?_⟩
      rw [recorded_peer_eq, hkey, ← hr, h]
      rfl
    | none =>
      rw [hr] at h
      cases hk : kind_of live store.owners peer.public_key with
      | none =>
        rw [hk] at h
        cases h
      | some kind =>
        rw [hk] at h
        cases kind with
        | owner => cases h
        | other => cases h
        | friend ip =>
          obtain ⟨routes, hmem, hkind⟩ := kind_of_eq_some.mp hk
          refine .inr ⟨(peer.public_key, .friend ip), List.mem_map.mpr ⟨_, hmem, by rw [← hkind]⟩, ?_⟩
          rw [unrecorded_peer_eq_some]
          refine ⟨ip, rfl, record_of_eq_none.mp hr, ?_⟩
          obtain ⟨key, name, revoked, can_share⟩ := peer
          cases Option.some.inj h
          rfl

/-! ## Changes of peers -/

theorem kind_of_set {routes : List String} {key : String}
    (hfree : ∀ p ∈ live.peers, p.1 ≠ key → ∀ r ∈ routes, r ∉ p.2) :
    kind_of (live.set key routes) owners public_key =
      if public_key = key then some (peer_kind owners (key, routes))
      else kind_of live owners public_key := by
  split_ifs with hk
  · subst hk
    exact kind_of_eq_some.mpr ⟨routes, WireGuard.Interface.mem_set.mpr (.inl rfl), rfl⟩
  · refine kind_of_congr fun kind => exists_congr fun rs => and_congr_left fun _ => ?_
    rw [WireGuard.Interface.mem_set_of_free hfree]
    exact ⟨fun h => h.elim (fun he => absurd (Prod.mk.inj he).1 hk) And.right, fun h => .inr ⟨hk, h⟩⟩

theorem kind_of_remove {key : String} :
    kind_of (live.remove key) owners public_key =
      if public_key = key then none else kind_of live owners public_key := by
  split_ifs with hk
  · subst hk
    exact kind_of_eq_none.mpr WireGuard.Interface.not_mem_keys_remove
  · refine kind_of_congr fun kind => exists_congr fun rs => and_congr_left fun _ => ?_
    rw [WireGuard.Interface.mem_remove]
    exact ⟨And.left, fun h => ⟨h, hk⟩⟩

theorem kind_of_owner (h : public_key ∈ owners) :
    kind_of live owners public_key = if public_key ∈ live.keys then some .owner else none := by
  split_ifs with hk
  · obtain ⟨routes, hmem⟩ := WireGuard.Interface.mem_keys.mp hk
    exact kind_of_eq_some.mpr ⟨routes, hmem, by rw [peer_kind, if_pos h]⟩
  · exact kind_of_eq_none.mpr hk

/-- **Routes that are given to a live owner** change no kind, if nobody but owners loses any. -/
theorem kind_of_set_owner {routes : List String} {key : String} (howner : key ∈ owners)
    (hlive : key ∈ live.keys)
    (hfree : ∀ q ∈ live.peers, q.1 ≠ key → q.1 ∉ owners → ∀ r ∈ routes, r ∉ q.2) :
    kind_of (live.set key routes) owners public_key = kind_of live owners public_key := by
  have hkeys : public_key ∈ (live.set key routes).keys ↔ public_key ∈ live.keys := by
    rw [WireGuard.Interface.mem_keys_set]
    exact or_iff_right_of_imp fun he => he ▸ hlive
  by_cases ho : public_key ∈ owners
  · rw [kind_of_owner ho, kind_of_owner ho]
    simp only [hkeys]
  · have hne : public_key ≠ key := fun he => ho (he ▸ howner)
    refine kind_of_congr fun kind => exists_congr fun rs => and_congr_left fun _ => ?_
    have hkeep : ∀ old, (public_key, old) ∈ live.peers → old.filter (· ∉ routes) = old := by
      intro old hold
      apply List.filter_eq_self.mpr
      intro r hr
      rw [decide_eq_true_eq]
      exact fun hin => hfree _ hold hne ho r hin hr
    rw [WireGuard.Interface.mem_set]
    constructor
    · rintro (he | ⟨-, old, hold, hrs⟩)
      · exact absurd (Prod.mk.inj he).1 hne
      · rw [hkeep old hold] at hrs
        rwa [← hrs] at hold
    · exact fun hmem => .inr ⟨hne, rs, hmem, (hkeep rs hmem).symm⟩

theorem kind_of_applied {changes : List Change} (hgentle : Gentle owners live changes)
    (howners : ∀ change ∈ changes, ∃ key routes, change = .set key routes ∧ key ∈ owners ∧
      key ∈ live.keys) :
    kind_of (applied changes live) owners public_key = kind_of live owners public_key := by
  induction changes generalizing live with
  | nil => rfl
  | cons change changes ih =>
    obtain ⟨⟨key, routes, rfl, howner, hlive⟩, hrest⟩ := List.forall_mem_cons.mp howners
    have hfirst : Gentle owners live [.set key routes] := fun k rs hc =>
      hgentle k rs (List.mem_cons.mpr (.inl (List.mem_singleton.mp hc)))
    have hgentle' : Gentle owners (live.set key routes) changes := by
      intro k rs hc q hq hne hunowned
      rcases hfirst.one hq hunowned with rfl | ⟨-, hin⟩
      · exact absurd howner hunowned
      · exact hgentle k rs (List.mem_cons_of_mem _ hc) q hin hne hunowned
    show kind_of (applied changes (live.set key routes)) owners public_key = _
    rw [ih hgentle' fun change hc => ?_]
    · exact kind_of_set_owner howner hlive fun q hq hne hunowned =>
        hgentle key routes List.mem_cons_self q hq hne hunowned
    · obtain ⟨k, rs, hset, ho, hk⟩ := hrest change hc
      exact ⟨k, rs, hset, ho, WireGuard.Interface.mem_keys_set.mpr (.inr hk)⟩

/-! ## Changes of records -/

theorem record_of_append {record : FriendRecord} (h : has_record store record.public_key = false) :
    record_of { store with records := store.records ++ [record] } public_key =
      if public_key = record.public_key then some record else record_of store public_key := by
  show (store.records ++ [record]).find? _ = _
  rw [List.find?_append, List.find?_singleton]
  by_cases hk : public_key = record.public_key
  · rw [if_pos hk, if_pos (by simpa using hk.symm), hk, ← record_of, record_of_eq_none.mpr h]
    rfl
  · rw [if_neg hk, if_neg (by simpa using Ne.symm hk)]
    exact Option.or_none

theorem record_of_set_name {key name : String} :
    record_of { store with records := set_name key name store.records } public_key =
      if public_key = key then (record_of store key).map fun record => { record with name }
      else record_of store public_key := by
  split_ifs with hk
  · subst hk
    show (set_name public_key name store.records).find? _ = (store.records.find? _).map _
    induction store.records with
    | nil => rfl
    | cons record records ih =>
      rw [set_name]
      split_ifs with hr
      · rw [List.find?_cons_of_pos (by simpa using hr), List.find?_cons_of_pos (by simpa using hr)]
        rfl
      · rw [List.find?_cons_of_neg (by simpa using hr), List.find?_cons_of_neg (by simpa using hr), ih]
  · exact find_set_name_ne hk _

theorem record_of_named {key name : String} :
    record_of { store with records := named store key name } public_key =
      if public_key = key then
        some (((record_of store key).map fun record => { record with name }).getD ⟨key, name, none⟩)
      else record_of store public_key := by
  unfold named
  split_ifs with hr hk hk
  · rw [record_of_set_name, if_pos hk]
    cases hf : record_of store key with
    | none => rw [record_of_eq_none.mp hf] at hr; cases hr
    | some record => rfl
  · rw [record_of_set_name, if_neg hk]
  · have hnone := Bool.eq_false_of_not_eq_true hr
    rw [record_of_append hnone, if_pos hk, record_of_eq_none.mpr hnone]
    rfl
  · rw [record_of_append (Bool.eq_false_of_not_eq_true hr), if_neg hk]

theorem record_of_recorded {key ip : String} :
    record_of { store with records := recorded store key ip } public_key =
      if public_key = key then some ((record_of store key).getD ⟨key, ip, none⟩)
      else record_of store public_key := by
  unfold recorded
  split_ifs with hr hk hk
  · rw [hk]
    cases hf : record_of store key with
    | none => rw [record_of_eq_none.mp hf] at hr; cases hr
    | some record => rfl
  · rfl
  · have hnone := Bool.eq_false_of_not_eq_true hr
    rw [record_of_append hnone, if_pos hk, record_of_eq_none.mpr hnone]
    rfl
  · rw [record_of_append (Bool.eq_false_of_not_eq_true hr), if_neg hk]

/-! ## Registries after a change -/

theorem view_created {private_key name : String} {host : ℕ}
    (hunrecorded : has_record store public_key = false) (hunowned : public_key ∉ store.owners)
    (hlo : 2 ≤ host) (hhi : host ≤ 254)
    (hfree : ∀ p ∈ live.peers, p.1 ≠ public_key → ∀ r ∈ [(tunnel host).toString], r ∉ p.2) :
    view { store with records := store.records ++ [⟨public_key, name, some private_key⟩] }
        (live.set public_key [(tunnel host).toString]) =
      (view store live).created public_key name := by
  have hclass : classify_friend (fields [(tunnel host).toString]) =
      .friend (tunnel host).toString :=
    classify_friend_eq.mpr ⟨_, host, rfl, validate_tunnel_ip_tunnel hlo hhi, hlo, hhi, rfl⟩
  funext key
  rw [view, record_of_append hunrecorded, kind_of_set hfree, Registry.created, Function.update_apply]
  split_ifs with hk
  · rw [peer_kind, if_neg hunowned, hclass]
    rfl
  · rfl

theorem view_named {ip name : String} (hs : FriendShape live store.owners public_key ip) :
    view { store with records := named store public_key name } live =
      (view store live).renamed public_key name := by
  obtain ⟨hunowned, routes, hmem, hclass⟩ := hs
  have hkind : kind_of live store.owners public_key = some (.friend ip) :=
    kind_of_eq_some.mpr ⟨routes, hmem, by rw [peer_kind, if_neg hunowned, hclass]⟩
  funext key
  rw [view, record_of_named, Registry.renamed, Function.update_apply]
  split_ifs with hk
  · rw [hk, view, hkind]
    cases record_of store public_key <;> rfl
  · rfl

theorem view_recorded {ip : String} (hs : FriendShape live store.owners public_key ip) :
    view { store with records := recorded store public_key ip } (live.remove public_key) =
      (view store live).revoked public_key := by
  obtain ⟨hunowned, routes, hmem, hclass⟩ := hs
  have hkind : kind_of live store.owners public_key = some (.friend ip) :=
    kind_of_eq_some.mpr ⟨routes, hmem, by rw [peer_kind, if_neg hunowned, hclass]⟩
  funext key
  rw [view, record_of_recorded, kind_of_remove, Registry.revoked, Function.update_apply]
  split_ifs with hk
  · rw [view, hkind]
    cases record_of store public_key <;> rfl
  · rfl

theorem view_revoked (hlive : public_key ∉ live.keys) :
    (view store live).revoked public_key = view store live := by
  rw [Registry.revoked, Function.update_eq_self_iff, view, kind_of_eq_none.mpr hlive]
  cases record_of store public_key <;> rfl

theorem view_with_owner {routes : List String} (hunrecorded : has_record store public_key = false)
    (hnew : public_key ∈ store.owners ∨ public_key ∉ live.keys)
    (hfree : ∀ p ∈ live.peers, p.1 ≠ public_key → ∀ r ∈ routes, r ∉ p.2) :
    view { store with owners := with_owner store public_key } (live.set public_key routes) =
      view store live := by
  have hmem : ∀ key, key ∈ with_owner store public_key ↔ key ∈ store.owners ∨ key = public_key := by
    intro key
    unfold with_owner
    split_ifs with ho
    · exact ⟨.inl, fun h => h.elim id fun he => he ▸ ho⟩
    · rw [List.mem_append, List.mem_singleton]
  funext key
  show shown (record_of store key) (kind_of (live.set public_key routes) _ key) =
    shown (record_of store key) (kind_of live store.owners key)
  rw [kind_of_set hfree]
  split_ifs with hk
  · subst hk
    rw [record_of_eq_none.mpr hunrecorded, peer_kind, if_pos ((hmem key).mpr (.inr rfl))]
    rcases hnew with ho | hlive
    · rw [kind_of_owner ho]
      split_ifs <;> rfl
    · rw [kind_of_eq_none.mpr hlive]
      rfl
  · have hkind : kind_of live (with_owner store public_key) key = kind_of live store.owners key := by
      refine kind_of_congr fun kind => exists_congr fun rs => and_congr_right fun _ => ?_
      simp only [peer_kind, hmem, hk, or_false]
    rw [hkind]

theorem view_owner_removed (hv : store.Valid) (howner : public_key ∈ store.owners) :
    view store (live.remove public_key) = view store live := by
  funext key
  rw [view, view, kind_of_remove]
  split_ifs with hk
  · subst hk
    have hnone : record_of store key = none := by
      rw [record_of_eq_none, has_record_eq_false]
      exact fun hrec => (List.nodup_append.mp hv.distinct).2.2 _ hrec _ howner rfl
    rw [hnone, kind_of_owner howner]
    split_ifs <;> rfl
  · rfl

/-! ## One operation -/

/-- The registry of a state. -/
def Shows (s : Vps) (registry : Registry) : Prop :=
  ∃ store, current_store s = .ok store ∧ view store s.live = registry

/-- Changes of peers that have been saved. -/
def settled (changes : List Change) (s : Vps) : Vps :=
  { s with live := applied changes s.live, saved := applied changes s.live }

/-- What becomes of a registry, with what is kept beside it. -/
structure Refines (s s' : Vps) (change : Registry → Registry) : Prop where
  shows : ∀ registry, Shows s registry → Shows s' (change registry)
  saved : s.saved = s.live → s'.saved = s'.live
  distinct : Distinct s.live → Distinct s'.live

/-- An operation that changes a registry so, if it succeeds. -/
def Performs [Platform] {α : Type} (m : Managed α) (change : Registry → Registry) (s : Vps) : Prop :=
  Ends m (fun _ s' => Refines s s' change) (fun _ _ => True) s

section

variable [Platform] {interface : String} {faults : Faults} {s s' s'' : Vps}
  {change : Registry → Registry}

omit [Platform] in
theorem Refines.of_same (hlive : s'.live = s.live) (hsaved : s'.saved = s.saved)
    (hstore : current_store s' = current_store s) : Refines s s' id where
  shows := fun _ ⟨store, hread, hview⟩ => ⟨store, hstore.trans hread, by rw [hlive]; exact hview⟩
  saved := fun h => by rw [hlive, hsaved, h]
  distinct := fun h => by rwa [hlive]

omit [Platform] in
theorem Refines.trans {change' : Registry → Registry} (h : Refines s s' change)
    (h' : Refines s' s'' change') : Refines s s'' fun registry => change' (change registry) where
  shows := fun registry hs => h'.shows _ (h.shows registry hs)
  saved := fun hs => h'.saved (h.saved hs)
  distinct := fun hd => h'.distinct (h.distinct hd)

omit [Platform] in
theorem At.refines (h : At interface s store s') : Refines s s' id :=
  .of_same h.live h.saved h.restored.store

omit [Platform] in
theorem At.shows (h : At interface s store s') {next : FriendStore} {live : Interface}
    (hloaded : Loaded s'' next) (hlive : s''.live = live)
    (hview : view next live = change (view store s.live)) (registry : Registry)
    (hs : Shows s registry) : Shows s'' (change registry) := by
  obtain ⟨store', hcurrent, rfl⟩ := hs
  cases Except.ok.inj (hcurrent.symm.trans h.current)
  exact ⟨next, hloaded.current, by rw [hlive, hview]⟩

omit [Platform] in
theorem At.distinct (h : At interface s store s') (hd : Distinct s.live) : Distinct s'.live := by
  rwa [h.live]

omit [Platform] in
theorem At.written (h : At interface s store s') {next : FriendStore} (hv : next.Valid)
    (hschema : next.schema = 2) {data : String} (hdata : encode_store next = .ok data)
    {changes : List Change} (hview : view next (applied changes s.live) = change (view store s.live)) :
    Refines s (settled changes (publish data s')) change where
  shows := h.shows ⟨read_store_encode hschema hv hdata, hschema⟩
    (congrArg (applied changes) h.live) hview
  saved := fun _ => rfl
  distinct := fun hd => (h.distinct hd).applied changes

omit [Platform] in
theorem At.settled (h : At interface s store s') {changes : List Change}
    (hview : view store (applied changes s.live) = view store s.live) :
    Refines s (Server.settled changes s') id where
  shows := h.shows ⟨h.loaded.read, h.loaded.schema⟩ (congrArg (applied changes) h.live) hview
  saved := fun _ => rfl
  distinct := fun hd => (h.distinct hd).applied changes

omit [Platform] in
theorem load_done : Ends (load_store interface faults) (At interface s) (fun _ _ => True) s :=
  load_store_undone.mono (fun _ _ h => h) fun _ _ _ => trivial

omit [Platform] in
theorem changed_done {changes : List Change} {undo : Interface → String → Managed Unit} :
    Ends (changed faults changes undo) (fun _ s' => s' = settled changes s) (fun _ _ => True) s :=
  changed_ends rfl (fun _ _ _ _ => trivial) fun _ _ _ _ _ => ends_trivial

omit [Platform] in
theorem write_done {outcome : Outcome} {next : FriendStore} :
    Ends (write_store interface outcome next)
      (fun _ s' => ∃ data, encode_store next = .ok data ∧ s' = publish data s) (fun _ _ => True) s :=
  write_store_ends trivial fun data hdata => ⟨⟨data, hdata, rfl⟩, trivial⟩

omit [Platform] in
theorem written_done {outcome : Outcome} {next : FriendStore} {changes : List Change}
    {undo : Interface → String → Managed Unit} (h : At interface s store s') (hv : next.Valid)
    (hschema : next.schema = 2)
    (hview : view next (applied changes s.live) = change (view store s.live)) :
    Ends (do write_store interface outcome next
             changed faults changes undo) (fun _ s'' => Refines s s'' change) (fun _ _ => True) s' := by
  refine write_done.bind ?_
  rintro _ _ ⟨data, hdata, rfl⟩
  refine changed_done.imp ?_
  rintro _ _ rfl
  exact h.written hv hschema hdata hview

omit [Platform] in
theorem descends_of_current (h : current_store s = .ok store) : Descends s store := by
  simp only [current_store, bind_eq_ok] at h
  obtain ⟨old, hread, h⟩ := h
  split at h
  · have hm := migrate_eq_ok h
    exact ⟨_, hread, hm.records, .inr hm.owners⟩
  · cases h
    exact ⟨_, hread, rfl, .inl rfl⟩

/-- **A friend is created.** -/
theorem create_performs {endpoint name private_key : String} (hunused : Unused s private_key)
    (hname : ∃ n, validate_name name = .ok n) :
    Performs (create interface faults endpoint name private_key)
      (Registry.created (pubkey private_key) name) s := by
  refine load_done.bind fun store s' h => ?_
  refine ends_query_bind trivial (ends_get_bind.mpr (ends_unless trivial fun _ => ?_))
  refine ends_lift_bind trivial fun _ hkey => ends_lift_bind trivial fun network hnet => ?_
  obtain ⟨host, rfl, hfree⟩ := allocate_free hnet
  have hnew := hunused.new_key (descends_of_current h.current)
  have hrecord : FriendRecord.Valid ⟨pubkey private_key, name, some private_key⟩ :=
    ⟨hkey, hname, by rintro _ ⟨⟩; exact hnew.valid⟩
  have hv := (read_store_valid h.loaded.read).add_record hrecord hnew.unrecorded hnew.unowned
  have hview : view
      { store with records := store.records ++ [⟨pubkey private_key, name, some private_key⟩] }
      (applied [.set (pubkey private_key) [(tunnel host).toString]] s.live) =
        (view store s.live).created (pubkey private_key) name := by
    refine view_created hnew.unrecorded hnew.unowned hfree.low hfree.high fun q hq _ => ?_
    rw [← h.live] at hq
    exact free_host_gentle hfree hq
  refine write_done.bind ?_
  rintro _ _ ⟨data, hdata, rfl⟩
  refine changed_done.bind ?_
  rintro _ _ rfl
  exact h.written hv h.loaded.schema hdata hview

theorem rename_performs {public_key name : String} (hname : ∃ n, validate_name name = .ok n) :
    Performs (rename interface faults public_key name) (Registry.renamed public_key name) s := by
  refine load_done.bind fun store s' h => ?_
  refine ends_query_bind trivial (ends_get_bind.mpr (ends_lift_bind trivial fun current hshape => ?_))
  refine ends_unless trivial fun hactive => ends_unless trivial fun hunique => ?_
  cases current with
  | none => exact absurd rfl hactive
  | some ip =>
    have hplanned : Planned interface none (fun _ _ _ => False) (fun _ _ => False) s'
        ⟨some { store with records := named store public_key name }, [], none⟩ :=
      .renamed h.loaded hshape hname (Bool.eq_false_of_not_eq_true hunique)
    have hv := hplanned.next_valid (fun _ _ => False.elim) rfl
    have hfriend : FriendShape s.live store.owners public_key ip :=
      h.live ▸ (peer_shape_ok hshape).2.2
    refine write_done.imp ?_
    rintro _ _ ⟨data, hdata, rfl⟩
    let next : FriendStore := { store with records := named store public_key name }
    have hschema : next.schema = 2 := h.loaded.schema
    have hloaded : Loaded (publish data s') next := ⟨read_store_encode hschema hv hdata, hschema⟩
    refine ⟨h.shows hloaded h.live (view_named hfriend), fun hs => ?_, h.distinct⟩
    exact h.saved.trans (hs.trans h.live.symm)

theorem revoke_performs {public_key : String} :
    Performs (revoke interface faults public_key) (Registry.revoked public_key) s := by
  refine load_done.bind fun store s' h => ?_
  refine ends_query_bind trivial (ends_get_bind.mpr (ends_lift_bind trivial fun current hshape => ?_))
  cases current with
  | none =>
    have hgone : public_key ∉ s.live.keys := h.live ▸ (peer_shape_ok hshape).2.2
    have hloaded : Loaded (store_live s') store := ⟨h.loaded.read, h.loaded.schema⟩
    have hsaved : Refines s (store_live s') (Registry.revoked public_key) :=
      ⟨h.shows hloaded h.live (view_revoked hgone).symm, fun _ => rfl, h.distinct⟩
    by_cases hr : has_record store public_key = true
    · simp only [if_pos hr]
      exact ends_whole hsaved trivial trivial
    · simp only [if_neg hr]
      exact trivial
  | some ip =>
    have hfriend : FriendShape s.live store.owners public_key ip :=
      h.live ▸ (peer_shape_ok hshape).2.2
    have hplanned : Planned interface none (fun _ _ _ => False) (fun _ _ => False) s'
        ⟨some { store with records := recorded store public_key ip }, [.remove public_key],
          some store⟩ := .revoked h.loaded hshape
    have hv := hplanned.next_valid (fun _ _ => False.elim) rfl
    exact written_done h hv h.loaded.schema (view_recorded hfriend)

theorem add_router_peer_performs {public_key tunnel_ip : String} :
    Performs (add_router_peer interface faults public_key tunnel_ip) id s := by
  refine ends_lift_bind trivial fun _ hkey => ends_lift_bind trivial fun network hnet => ?_
  refine ends_get_bind.mpr (ends_lift_bind trivial fun routes _ => ?_)
  refine ends_lift_bind trivial fun _ hfree => ?_
  refine load_done.bind fun store s' h => ?_
  refine ends_query_bind trivial (ends_unless trivial fun hnew => ?_)
  rw [Bool.or_eq_true, not_or] at hnew
  have hunrecorded := Bool.eq_false_of_not_eq_true hnew.1
  have hunclassified : public_key ∈ store.owners ∨ public_key ∉ s.live.keys := by
    by_cases ho : public_key ∈ store.owners
    · exact .inl ho
    · exact .inr (by simpa [ho] using hnew.2)
  have hv := (read_store_valid h.loaded.read).with_owner hkey hunrecorded
  have hview : view { store with owners := with_owner store public_key }
      (applied [.set public_key (routes.map Net.toString)] s.live) = view store s.live :=
    view_with_owner hunrecorded hunclassified fun q hq hne => available_gentle hfree hq hne
  refine written_done h hv h.loaded.schema ?_
  exact hview

theorem create_router_profile_performs {endpoint private_key : String} :
    Performs (create_router_profile interface faults endpoint private_key) id s := by
  have hload : Ends (discard (load_store interface faults.first) : Managed Unit)
      (fun _ s' => ∃ store, At interface s store s') (fun _ _ => True) s :=
    load_done.bind fun store _ h => ⟨store, h⟩
  refine hload.bind ?_
  rintro _ s' ⟨store, h⟩
  refine ends_query_bind trivial (ends_get_bind.mpr (ends_lift_bind trivial fun _ _ => ?_))
  refine ends_lift_bind trivial fun network _ => ?_
  refine add_router_peer_performs.bind fun _ s'' h' => ?_
  exact h.refines.trans h'

theorem remove_router_peer_performs {public_key : String} :
    Performs (remove_router_peer interface faults public_key) id s := by
  refine load_done.bind fun store s' h => ?_
  refine ends_query_bind trivial (ends_lift_bind trivial fun _ _ => ?_)
  refine ends_unless trivial fun howner => changed_done.imp ?_
  rintro _ _ rfl
  exact h.settled (view_owner_removed (read_store_valid h.loaded.read) (not_not.mp howner))

theorem profile_performs {public_key endpoint : String} :
    Performs (profile interface faults public_key endpoint) id s := by
  refine load_done.bind fun store s' h => ?_
  refine ends_query_bind trivial (ends_get_bind.mpr (ends_lift_bind trivial fun current _ => ?_))
  cases current with
  | none => trivial
  | some ip =>
    simp only
    cases store.records.find? fun record => record.public_key = public_key with
    | none => trivial
    | some record =>
      simp only
      cases record.private_key with
      | none => trivial
      | some private_key => exact ends_unless trivial fun _ => h.refines

theorem restart_performs : Performs (restart interface faults) id s := by
  have hsaved : Refines s (reload (store_live s)) id :=
    ⟨fun registry h => h, fun _ => rfl, fun hd => hd⟩
  refine ends_lift_bind trivial fun _ _ => ends_bind.mpr (ends_whole ?_ trivial trivial)
  refine ends_bind.mpr (ends_command_of ?_ fun _ => trivial)
  exact ends_query_of hsaved fun _ => trivial

theorem status_performs : Performs (status interface faults) id s := by
  refine load_done.bind fun store s' h => ?_
  refine ends_query_bind trivial (ends_get_bind.mpr (ends_bind.mpr ?_))
  have hwarp : Ends (warp_status interface faults) (fun _ => At interface s store)
      (fun _ _ => True) s' := by
    refine ends_get_bind.mpr (ends_lift_bind trivial fun prepared _ => ?_)
    cases prepared with
    | false => exact h
    | true =>
      refine ends_query_bind trivial (ends_lift_bind trivial fun status _ => ?_)
      exact ends_unless trivial fun _ => h
  exact hwarp.imp fun _ _ h => h.refines

theorem warp_command_performs : Performs (warp_command faults) id s :=
  ends_whole (.of_same rfl rfl rfl) trivial trivial

omit [Platform] in
theorem warp_routes_done : Ends (warp_routes interface faults) (fun changes s' => ∃ store,
    At interface s store s' ∧ warp_changes s.live store = .ok changes) (fun _ _ => True) s := by
  refine load_done.bind fun store s' h => ?_
  refine ends_query_bind trivial (ends_get_bind.mpr (ends_lift.mpr ⟨fun changes hc => ?_, ?_⟩))
  · exact ⟨store, h, h.live ▸ hc⟩
  · exact fun _ _ => trivial

theorem authorize_warp_performs (hd : Distinct s.live) :
    Performs (authorize_warp interface faults) id s := by
  refine ends_get_bind.mpr (ends_lift_bind trivial fun _ _ => ends_unless trivial fun _ => ?_)
  refine warp_routes_done.bind ?_
  rintro changes s' ⟨store, h, hchanges⟩
  refine changed_done.imp ?_
  rintro _ _ rfl
  refine h.settled (funext fun key => ?_)
  have howners : ∀ change ∈ changes, ∃ key routes, change = .set key routes ∧
      key ∈ store.owners ∧ key ∈ s.live.keys := by
    intro change hc
    obtain ⟨p, hp, howner, routes, -, rfl⟩ := mem_warp_changes hchanges hc
    exact ⟨p.1, routes, rfl, howner, WireGuard.Interface.mem_keys.mpr ⟨p.2, hp⟩⟩
  rw [view, view, kind_of_applied (warp_gentle hd hchanges) howners]

theorem enable_warp_performs (hd : Distinct s.live) {accept_terms : Bool} :
    Performs (enable_warp interface faults accept_terms) id s := by
  have hroutes : Ends (discard (warp_routes interface faults.first) : Managed Unit)
      (fun _ s' => Refines s s' id) (fun _ _ => True) s :=
    warp_routes_done.bind fun _ _ ⟨_, h, _⟩ => h.refines
  refine ends_unless trivial fun _ => hroutes.bind ?_
  intro _ s' h
  refine warp_command_performs.bind fun _ s'' h' => ?_
  have hboth := h.trans h'
  exact (authorize_warp_performs (hboth.distinct hd)).imp fun _ _ h'' => hboth.trans h''

/-! ## Commands -/

/-- What a command is for, seen from the registry. -/
def Command.registry : Command → Registry → Registry
  | .create_friend _ input private_key => match read_friend_name input with
    | .ok name => Registry.created (pubkey private_key) name
    | .error _ => id
  | .rename_friend public_key input => match read_friend_name input with
    | .ok name => Registry.renamed public_key name
    | .error _ => id
  | .revoke_friend public_key => Registry.revoked public_key
  | _ => id

/-- Not one of the commands that are kept for older clients. -/
def Command.Current : Command → Prop
  | .add_peer .. | .create_profile .. | .remove_peer .. => False
  | _ => True

theorem dispatch_performs (interface : String) {command : Command} (hc : command.Current)
    {faults : Faults} {s : Vps} (hd : Distinct s.live)
    (hfresh : Event.Fresh s (.run command faults)) :
    Performs (dispatch interface faults command) command.registry s := by
  have hunit : ∀ {m : Managed Unit}, Performs m id s →
      Performs (do m; return "") id s := fun h =>
    h.bind fun _ _ h => h
  cases command with
  | add_peer | create_profile | remove_peer => exact hc.elim
  | create_router_profile endpoint private_key =>
    refine ends_lift_bind trivial fun _ _ => ends_query_bind trivial ?_
    exact create_router_profile_performs
  | remove_router_peer public_key =>
    exact ends_query_bind trivial (hunit remove_router_peer_performs)
  | capabilities => exact Refines.of_same rfl rfl rfl
  | managed_status =>
    exact ends_query_bind trivial
      (status_performs.bind fun _ _ h => h)
  | create_friend endpoint input private_key =>
    refine ends_lift_bind trivial fun _ _ => ends_lift_bind trivial fun name hname => ?_
    refine ends_query_bind trivial ?_
    have h : Performs (create interface faults endpoint name private_key)
        (Registry.created (pubkey private_key) name) s :=
      create_performs hfresh (read_friend_name_eq_ok hname)
    simp only [Command.registry, hname]
    exact h
  | rename_friend public_key input =>
    refine ends_lift_bind trivial fun name hname => ends_query_bind trivial ?_
    have h : Performs (rename interface faults public_key name)
        (Registry.renamed public_key name) s := rename_performs (read_friend_name_eq_ok hname)
    simp only [Command.registry, hname]
    exact h.bind fun _ _ h => h
  | revoke_friend public_key =>
    exact ends_query_bind trivial
      (revoke_performs.bind fun _ _ h => h)
  | friend_profile public_key endpoint =>
    exact ends_lift_bind trivial fun _ _ => ends_query_bind trivial profile_performs
  | restart_vpn => exact ends_query_bind trivial (hunit restart_performs)
  | enable_warp accept_terms =>
    exact ends_query_bind trivial (hunit (enable_warp_performs hd))
  | disable_warp => exact ends_query_bind trivial (hunit warp_command_performs)

/-- **A command that succeeds** does to the registry what it is for, and nothing else. -/
theorem commands_refined (interface : String) (command : Command) (hc : command.Current)
    {faults : Faults} {s s' : Vps} (hd : Distinct s.live)
    (hfresh : Event.Fresh s (.run command faults)) {output : String}
    (hok : (dispatch interface faults command).exec s = (.ok output, s')) :
    Refines s s' command.registry :=
  (dispatch_performs interface hc hd hfresh).ok hok

/-! ## Runs -/

/-- The commands of a run that succeed. -/
def succeeded (interface : String) : Vps → List (Command × Faults) → List Command
  | _, [] => []
  | s, command :: commands =>
    let rest := succeeded interface (Command.step interface s command) commands
    if ((dispatch interface command.2 command.1).exec s).1.isOk then command.1 :: rest else rest

/-- A command that is not killed, whose rollback goes through, whose metadata is not left half
written, and after which the service runs; a friend gets a new key. -/
structure Orderly (interface : String) (s : Vps) (command : Command × Faults) : Prop where
  current : command.1.Current
  fresh : Event.Fresh s (.run command.1 command.2)
  rolls_back : command.2.RollsBack
  unpublished : ¬ command.2.Published
  unhalted : ¬ command.2.Halted
  alive : ((dispatch interface command.2 command.1).exec s).1 ≠ .error .killed

/-- **One command of a run**: it does what it is for, or nothing. -/
theorem Orderly.step {interface : String} {s : Vps} {command : Command × Faults}
    (h : Orderly interface s command) (hs : s.saved = s.live) (hd : Distinct s.live) :
    Refines s (Command.step interface s command)
      (if ((dispatch interface command.2 command.1).exec s).1.isOk then command.1.registry else id) := by
  obtain ⟨command, faults⟩ := command
  have halive := h.alive
  rw [Command.step]
  rcases he : (dispatch interface faults command).exec s with ⟨stop | output, s'⟩
  · rw [he] at halive
    cases stop with
    | killed => exact absurd rfl halive
    | error e =>
      have hrollback : command.HasRollback := by
        cases command with
        | remove_peer => exact h.current.elim
        | _ => trivial
      have hleft : command.Leaves faults s s' :=
        (dispatch_undone interface hrollback h.rolls_back hs).error he
      rcases hleft with hr | ⟨hp, -⟩ | ⟨-, hh, -⟩
      · exact .of_same hr.live hr.saved hr.store
      · exact absurd hp h.unpublished
      · exact absurd hh h.unhalted
  · exact (dispatch_performs interface h.current hd h.fresh).ok he

/-- **Runs of commands.** The registry of a server is the abstract one after those commands that
succeeded; the ones that failed have changed nothing. -/
theorem registry_runs (interface : String) {s : Vps} {registry : Registry}
    (hshows : Shows s registry) (hs : s.saved = s.live) (hd : Distinct s.live)
    (commands : List (Command × Faults))
    (h : Along (Command.step interface) (Orderly interface) s commands) :
    Shows (run (Command.step interface) s commands)
      ((succeeded interface s commands).foldl (fun registry command => command.registry registry)
        registry) := by
  induction commands generalizing s registry with
  | nil => exact hshows
  | cons command commands ih =>
    obtain ⟨hfirst, hrest⟩ := h
    have hstep := hfirst.step hs hd
    have hnext := ih (hstep.shows _ hshows) (hstep.saved hs) (hstep.distinct hd) hrest
    rw [succeeded]
    split_ifs at hnext ⊢ with hok
    · exact hnext
    · exact hnext

end

/-- A revocation and a restart of the service. -/
def sample_friends : List (Command × Faults) :=
  [(.revoke_friend BOB, Faults.none), (.restart_vpn, Faults.none)]

/-- The revocation of the one friend. -/
theorem commands_refined_sample : letI := sample_platform
    Refines sample ((dispatch "gt0" Faults.none (.revoke_friend BOB)).exec sample).2
      (Command.registry (.revoke_friend BOB)) :=
  letI := sample_platform
  have he : ((dispatch "gt0" Faults.none (.revoke_friend BOB)).exec sample).1.isOk = true := by
    decide +kernel
  match hrun : (dispatch "gt0" Faults.none (.revoke_friend BOB)).exec sample with
  | (.ok _, _) => commands_refined "gt0" (.revoke_friend BOB) trivial distinct_sample.live trivial hrun
  | (.error _, _) => by rw [hrun] at he; cases he

theorem registry_runs_sample : letI := sample_platform
    Shows (run (Command.step "gt0") sample sample_friends)
      ((succeeded "gt0" sample sample_friends).foldl
        (fun registry command => command.registry registry) (view sample_store sample.live)) := by
  let _ := sample_platform
  have hunpublished : ¬ Faults.none.Published := fun ⟨_, h⟩ => nomatch h
  have hunhalted : ¬ Faults.none.Halted := fun ⟨_, h⟩ => nomatch h
  refine registry_runs "gt0" ⟨sample_store, by decide +kernel, rfl⟩ rfl distinct_sample.live _
    ⟨⟨trivial, trivial, ⟨rfl, rfl, rfl⟩, hunpublished, hunhalted, ?_⟩,
      ⟨trivial, trivial, ⟨rfl, rfl, rfl⟩, hunpublished, hunhalted, ?_⟩, trivial⟩
  · decide +kernel
  · decide +kernel

end Gofro.Server
