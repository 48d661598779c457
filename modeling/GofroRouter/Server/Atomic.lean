import GofroRouter.Server.Spec

/-!
# Failed commands are undone

A command that returns an error, and whose rollback went through, leaves the live peers, the saved
ones and the friend metadata as they were. Two failures break this: a metadata file that has been
renamed into place but whose directory sync fails stays, although the command gives up; and a service
that has stopped for a restart and does not start leaves no interface.

* `current_store`: the metadata as operations see it; a migration does not change it.
* `Faults.RollsBack`: the steps of a rollback succeed. `changed_undone`, `roll_back_undone`: what a
  change of peers leaves then.
* `encode_shorter`: metadata that is shorter than written metadata can be written.
* **`commands_atomic`**: what every command leaves that fails.
-/

namespace Gofro.Server

open Text Json Fallible
open Platform (pubkey)
open Gofro.Agent (bail_if bail_if_eq_ok bind_eq_ok)

/-! ## Errors -/

/-- An error that is returned leaves a state in `Q`; a killed program may leave any. -/
def Undone (Q : Vps → Prop) : Stop String → Vps → Prop
  | .error _, s => Q s
  | .killed, _ => True

section

variable {s : Vps} {Q Q' : Vps → Prop} {α β : Type} {P : α → Vps → Prop}

theorem Undone.mono (hQ : ∀ s', Q s' → Q' s') (stop : Stop String) (s' : Vps)
    (h : Undone Q stop s') : Undone Q' stop s' := by
  cases stop with
  | error e => exact hQ s' h
  | killed => trivial

theorem undone_lift {x : Except String α} {f : α → Managed β} {P : β → Vps → Prop} (hQ : Q s)
    (hf : ∀ a, x = .ok a → Ends (f a) P (Undone Q) s) : Ends (lift x >>= f) P (Undone Q) s :=
  ends_bind.mpr (ends_lift.mpr ⟨hf, fun _ _ => hQ⟩)

theorem undone_query {outcome : Outcome} {message : String} {f : Unit → Managed β}
    {P : β → Vps → Prop} (hQ : Q s) (hf : Ends (f ()) P (Undone Q) s) :
    Ends (query outcome message >>= f) P (Undone Q) s := by
  refine ends_bind.mpr (ends_query.mpr ?_)
  cases outcome with
  | done => exact hf
  | failed n => exact hQ
  | killed n => trivial

theorem undone_unless {c : Prop} [Decidable c] {message : String} {f : Managed β}
    {P : β → Vps → Prop} (hQ : Q s) (hf : ¬ c → Ends f P (Undone Q) s) :
    Ends (do if c then fail message
             f) P (Undone Q) s := by
  by_cases hc : c
  · simp only [if_pos hc]
    exact hQ
  · simp only [if_neg hc]
    exact hf hc

theorem undone_whole {outcome : Outcome} {message : String} {full : Vps → Vps}
    {P : Unit → Vps → Prop} (hP : P () (full s)) (hQ : Q s)
    (hfull : (∃ n, outcome = .failed (n + 1)) → Q (full s)) :
    Ends (command outcome message (whole full) full) P (Undone Q) s := by
  rw [ends_command]
  cases outcome with
  | done => exact hP
  | failed n =>
    cases n with
    | zero => exact hQ
    | succ n => exact hfull ⟨n, rfl⟩
  | killed n => trivial

end

/-! ## Metadata -/

/-- The metadata as operations see it, with the owners that a migration finds. -/
def current_store (s : Vps) : Except String FriendStore := do
  let store ← read_store s.metadata
  if store.schema = 1 then migrate s.metadata.isNone s.live store else pure store

theorem Loaded.current {s : Vps} {store : FriendStore} (h : Loaded s store) :
    current_store s = .ok store := by
  rw [current_store, h.read]
  show (if store.schema = 1 then _ else _) = _
  rw [if_neg (by rw [h.schema]; decide)]
  rfl

theorem byteLen_printItems_cons (v u : Value) (us : List Value) :
    byteLen (printItems (v :: u :: us)) =
      byteLen v.print + (','.utf8Size + byteLen (printItems (u :: us))) := by
  rw [printItems, byteLen_append]
  · rfl
  · simp

theorem printItems_append_le (vs ws : List Value) :
    byteLen (printItems vs) ≤ byteLen (printItems (vs ++ ws)) := by
  induction vs with
  | nil => exact Nat.zero_le _
  | cons v vs ih =>
    cases vs with
    | nil =>
      cases ws with
      | nil => exact le_rfl
      | cons w ws =>
        rw [List.cons_append, List.nil_append, byteLen_printItems_cons, printItems]
        exact Nat.le_add_right _ _
    | cons u us =>
      rw [List.cons_append, List.cons_append, byteLen_printItems_cons, byteLen_printItems_cons]
      exact Nat.add_le_add_left (Nat.add_le_add_left ih _) _

/-- A store with no fewer records and owners. -/
structure Shorter (store next : FriendStore) : Prop where
  schema : next.schema = store.schema
  records : store.records <+: next.records
  owners : store.owners <+: next.owners

/-- **A shorter store can be written**, if a longer one can. -/
theorem encode_shorter {store next : FriendStore} (h : Shorter store next) {data : String}
    (hdata : encode_store next = .ok data) : ∃ data, encode_store store = .ok data := by
  obtain ⟨records, hr⟩ := h.records
  obtain ⟨owners, ho⟩ := h.owners
  simp only [encode_store, bind_eq_ok, bail_if_eq_ok, decide_eq_false_iff_not, not_lt] at hdata ⊢
  obtain ⟨_, hlen, -⟩ := hdata
  refine ⟨_, (), le_trans ?_ hlen, rfl⟩
  have hrec := printItems_append_le (store.records.map FriendRecord.to_value)
    (records.map FriendRecord.to_value)
  have hown := printItems_append_le (store.owners.map text_value) (owners.map text_value)
  rw [← List.map_append, hr] at hrec
  rw [← List.map_append, ho] at hown
  simp only [len, to_string, String.toList_ofList, FriendStore.to_value, h.schema, Value.print,
    printMembers, byteLen, List.map_append, List.map_cons, List.sum_append, List.sum_cons,
    List.map_nil, List.sum_nil] at hrec hown ⊢
  omega

/-! ## Rollbacks -/

/-- The steps of a rollback succeed. -/
structure Faults.RollsBack (faults : Faults) : Prop where
  setconf : faults.setconf = .done
  resave : faults.resave = .done
  undo : faults.undo = .done

/-- The metadata write fails after the file is in place. -/
def Faults.Published (faults : Faults) : Prop := ∃ n, faults.write = .failed (n + 1)

/-- The restart of the service fails after it has stopped. -/
def Faults.Halted (faults : Faults) : Prop := ∃ n, faults.service = .failed (n + 1)

section

variable {s : Vps} {Q : Vps → Prop} {P : Unit → Vps → Prop} {faults : Faults}

/-- A rollback goes back to the live peers that it was given, and saves them. -/
theorem roll_back_undone (hr : faults.RollsBack) {what error : String} {previous : Interface}
    {finish : Managed Unit}
    (hfinish : Ends finish P (Undone Q) { s with live := previous, saved := previous }) :
    Ends (roll_back faults what previous error finish) P (Undone Q) s := by
  have hsteps : Ends (do setconf faults.setconf previous
                         save faults.resave
                         finish) P (Undone Q) s := by
    refine ends_bind.mpr ?_
    rw [setconf, hr.setconf]
    refine ends_command.mpr (ends_bind.mpr ?_)
    rw [save, hr.resave]
    exact ends_command.mpr hfinish
  refine ends_recover.mpr (hsteps.mono (fun _ _ h => h) ?_)
  intro stop s' h
  cases stop with
  | killed => trivial
  | error e => exact h

theorem changed_undone {changes : List Change} {undo : Interface → String → Managed Unit}
    (hundo : ∀ live saved error, Ends (undo s.live error) (fun _ => Q) (Undone Q)
      { s with live, saved }) :
    Ends (changed faults changes undo) (fun _ _ => True) (Undone Q) s := by
  let Before : Vps → Prop := fun s' => ∃ live saved, s' = { s with live, saved }
  have hsteps : Ends (do wg_set changes faults.wg
                         save faults.save) (fun _ => Before) (fun _ => Before) s := by
    refine ends_bind.mpr (wg_set_ends ?_ fun n => ⟨_, s.saved, rfl⟩)
    exact ends_whole ⟨_, _, rfl⟩ ⟨_, s.saved, rfl⟩ ⟨_, _, rfl⟩
  refine ends_get_bind.mpr (ends_recover.mpr (hsteps.mono (fun _ _ _ => trivial) ?_))
  rintro stop _ ⟨live, saved, rfl⟩
  cases stop with
  | killed => trivial
  | error e => exact Ends.bind (hundo live saved e) fun _ _ h => h

end

/-! ## What a failed command leaves -/

/-- The peers are as before, live and saved, and so is the metadata. -/
structure Restored (s s' : Vps) : Prop where
  live : s'.live = s.live
  saved : s'.saved = s.saved
  store : current_store s' = current_store s

theorem Restored.refl (s : Vps) : Restored s s := ⟨rfl, rfl, rfl⟩

/-- The peers are as before, but the metadata is `next` already. -/
structure Ahead (next : FriendStore) (s s' : Vps) : Prop where
  live : s'.live = s.live
  saved : s'.saved = s.saved
  written : ∃ data, encode_store next = .ok data ∧ s'.metadata = some data

section

variable [Platform]

/-- The metadata that a command writes over `store`. -/
def Command.Writes (s : Vps) (store next : FriendStore) : Command → Prop
  | .create_friend _ input private_key => ∃ name, read_friend_name input = .ok name ∧
      next = { store with
        records := store.records ++ [⟨pubkey private_key, name, some private_key⟩] }
  | .rename_friend public_key input => ∃ name, read_friend_name input = .ok name ∧
      next = { store with records := named store public_key name }
  | .revoke_friend public_key => ∃ ip, FriendShape s.live store.owners public_key ip ∧
      next = { store with records := recorded store public_key ip }
  | command => ∃ public_key, command.added = some public_key ∧
      next = { store with owners := with_owner store public_key }

/-- What may be left when a command fails that would write such metadata. -/
def Left (faults : Faults) (writes : FriendStore → FriendStore → Prop) (s s' : Vps) : Prop :=
  Restored s s' ∨ faults.Published ∧ ∃ store next, current_store s = .ok store ∧
    writes store next ∧ Ahead next s s'

/-- The store that is worked with: what `s` had, now in the state `s'` if it was migrated. -/
structure At (interface : String) (s : Vps) (store : FriendStore) (s' : Vps) : Prop where
  name : interface_name interface = .ok ()
  live : s'.live = s.live
  saved : s'.saved = s.saved
  warp : s'.warp = s.warp
  current : current_store s = .ok store
  loaded : Loaded s' store

variable {interface : String} {faults : Faults} {s s' : Vps} {store : FriendStore}
  {writes : FriendStore → FriendStore → Prop}

-- what is written is never computed here
attribute [local irreducible] encode_store

omit [Platform] in
theorem At.restored (h : At interface s store s') : Restored s s' :=
  ⟨h.live, h.saved, h.loaded.current.trans h.current.symm⟩

omit [Platform] in
theorem At.left (h : At interface s store s') : Left faults writes s s' := .inl h.restored

omit [Platform] in
theorem load_store_undone : Ends (load_store interface faults) (At interface s) (Undone (Restored s)) s := by
  rw [load_store]
  refine undone_lift (.refl s) fun _ hname => ?_
  refine undone_query (.refl s) (ends_get_bind.mpr ?_)
  refine undone_lift (.refl s) fun store hread => ?_
  by_cases h1 : store.schema = 1
  · rw [if_pos h1]
    refine undone_lift (.refl s) fun next hnext => ?_
    have hcurrent : current_store s = .ok next := by
      rw [current_store, hread]
      show (if store.schema = 1 then _ else _) = _
      rw [if_pos h1, hnext]
    have hat : ∀ data, encode_store next = .ok data → At interface s next (publish data s) := by
      intro data hdata
      have hm := migrate_eq_ok hnext
      exact ⟨hname, rfl, rfl, rfl, hcurrent, read_store_encode hm.schema (hm.valid (read_store_valid hread))
        hdata, hm.schema⟩
    refine Ends.bind (P := fun _ => At interface s next) ?_ fun _ _ h => h
    refine undone_lift (.refl s) fun _ _ => undone_lift (.refl s) fun data hdata => ?_
    exact undone_whole (hat data hdata) (.refl s) fun _ => (hat data hdata).restored
  · rw [if_neg h1]
    have h2 := (read_store_schema hread).resolve_left fun h => h1 h.1
    have hloaded : Loaded s store := ⟨hread, h2⟩
    exact ⟨hname, rfl, rfl, rfl, hloaded.current, hloaded⟩

omit [Platform] in
theorem undone_load {α : Type} {f : FriendStore → Managed α} {P : α → Vps → Prop}
    (hf : ∀ store s', At interface s store s' → Ends (f store) P (Undone (Left faults writes s)) s') :
    Ends (load_store interface faults >>= f) P (Undone (Left faults writes s)) s :=
  ends_bind.mpr (load_store_undone.mono hf (Undone.mono fun _ h => .inl h))

omit [Platform] in
theorem write_undone {next : FriendStore} (h : At interface s store s') (hw : writes store next) :
    Ends (write_store interface faults.write next)
      (fun _ s'' => ∃ data, encode_store next = .ok data ∧ s'' = publish data s')
      (Undone (Left faults writes s)) s' := by
  rw [write_store]
  refine undone_lift h.left fun _ _ => ?_
  refine undone_lift h.left fun data hdata => ?_
  refine undone_whole ⟨data, hdata, rfl⟩ h.left fun hp => .inr ⟨hp, store, next, h.current, hw, ?_⟩
  exact ⟨h.live, h.saved, data, hdata, rfl⟩

omit [Platform] in
theorem undone_write {α : Type} {next : FriendStore} {rest : Managed α} {P : α → Vps → Prop}
    (h : At interface s store s') (hw : writes store next)
    (hrest : ∀ data, encode_store next = .ok data →
      Ends rest P (Undone (Left faults writes s)) (publish data s')) :
    Ends (do write_store interface faults.write next
             rest) P (Undone (Left faults writes s)) s' := by
  refine Ends.bind (write_undone h hw) ?_
  rintro _ _ ⟨data, hdata, rfl⟩
  exact hrest data hdata

omit [Platform] in
theorem undo_undone (h : At interface s store s') (hs : s.saved = s.live) (hr : faults.RollsBack)
    {next : FriendStore} (hn : Shorter store next) {data : String}
    (hdata : encode_store next = .ok data) :
    Ends (write_store interface faults.undo store) (fun _ => Left faults writes s)
      (Undone (Left faults writes s)) { s' with saved := s'.live, metadata := some data } := by
  obtain ⟨data', hdata'⟩ := encode_shorter hn hdata
  have hback : Left faults writes s
      (publish data' { s' with saved := s'.live, metadata := some data }) := by
    have hloaded : Loaded (publish data' s') store :=
      ⟨read_store_encode h.loaded.schema (read_store_valid h.loaded.read) hdata', h.loaded.schema⟩
    exact .inl ⟨h.live, h.live.trans hs.symm, hloaded.current.trans h.current.symm⟩
  rw [write_store, h.name, hdata', hr.undo]
  exact hback

omit [Platform] in
/-- A change of peers, once the metadata is loaded, whose rollback leaves the metadata alone. -/
theorem peers_undone (h : At interface s store s') (hs : s.saved = s.live) (hr : faults.RollsBack)
    {changes : List Change} {what : String} :
    Ends (changed faults changes fun previous error =>
      roll_back faults what previous error (pure ())) (fun _ _ => True)
      (Undone (Left faults writes s)) s' :=
  changed_undone fun _ _ _ => roll_back_undone hr
    (ends_pure.mpr (.inl ⟨h.live, h.live.trans hs.symm, h.restored.store⟩))

omit [Platform] in
theorem record_undone (h : At interface s store s') (hs : s.saved = s.live) (hr : faults.RollsBack)
    {changes : List Change} {what : String} {next : FriendStore} (hn : Shorter store next)
    (hw : writes store next) :
    Ends (do write_store interface faults.write next
             changed faults changes fun previous error =>
               roll_back faults what previous error (write_store interface faults.undo store))
      (fun _ _ => True) (Undone (Left faults writes s)) s' :=
  undone_write h hw fun _ hdata => changed_undone fun _ _ _ =>
    roll_back_undone hr (undo_undone h hs hr hn hdata)

/-! ## The commands -/

theorem create_undone (hs : s.saved = s.live) (hr : faults.RollsBack)
    {endpoint name private_key : String}
    (hw : ∀ store, writes store { store with
      records := store.records ++ [⟨pubkey private_key, name, some private_key⟩] }) :
    Ends (create interface faults endpoint name private_key) (fun _ _ => True)
      (Undone (Left faults writes s)) s := by
  refine undone_load fun store s' h => ?_
  refine undone_query h.left (ends_get_bind.mpr (undone_unless h.left fun _ => ?_))
  refine undone_lift h.left fun _ _ => undone_lift h.left fun network _ => ?_
  have hn : Shorter store { store with
      records := store.records ++ [⟨pubkey private_key, name, some private_key⟩] } :=
    ⟨rfl, List.prefix_append _ _, List.prefix_rfl⟩
  refine undone_write h (hw store) fun data hdata => ?_
  refine Ends.bind (changed_undone fun _ _ _ => ?_) fun _ _ h => h
  exact roll_back_undone hr (undo_undone h hs hr hn hdata)

theorem rename_undone {public_key name : String}
    (hw : ∀ store, writes store { store with records := named store public_key name }) :
    Ends (rename interface faults public_key name) (fun _ _ => True)
      (Undone (Left faults writes s)) s := by
  refine undone_load fun store s' h => ?_
  refine undone_query h.left (ends_get_bind.mpr (undone_lift h.left fun _ _ => ?_))
  refine undone_unless h.left fun _ => undone_unless h.left fun _ => ?_
  exact (write_undone h (hw store)).mono (fun _ _ _ => trivial) fun _ _ h => h

omit [Platform] in
theorem recorded_shorter (store : FriendStore) (public_key ip : String) :
    Shorter store { store with records := recorded store public_key ip } := by
  refine ⟨rfl, ?_, List.prefix_rfl⟩
  unfold recorded
  split_ifs
  · exact List.prefix_rfl
  · exact List.prefix_append _ _

omit [Platform] in
theorem revoke_undone (hs : s.saved = s.live) (hr : faults.RollsBack) {public_key : String}
    (hw : ∀ store ip, FriendShape s.live store.owners public_key ip →
      writes store { store with records := recorded store public_key ip }) :
    Ends (revoke interface faults public_key) (fun _ _ => True) (Undone (Left faults writes s)) s := by
  refine undone_load fun store s' h => ?_
  refine undone_query h.left (ends_get_bind.mpr (undone_lift h.left fun current hshape => ?_))
  cases current with
  | none =>
    have hsaved : Left faults writes s (store_live s') :=
      .inl ⟨h.live, h.live.trans hs.symm, h.restored.store⟩
    by_cases hrec : has_record store public_key = true
    · simp only [if_pos hrec]
      exact undone_whole trivial h.left fun _ => hsaved
    · simp only [if_neg hrec]
      exact h.left
  | some ip =>
    have hfriend : FriendShape s.live store.owners public_key ip := by
      rw [← h.live]
      exact (peer_shape_ok hshape).2.2
    exact record_undone h hs hr (recorded_shorter store public_key ip) (hw store ip hfriend)

omit [Platform] in
theorem Left.refl : Left faults writes s s := .inl (.refl s)

omit [Platform] in
theorem Left.trans {s₀ : Vps} (h : Restored s₀ s) (hl : Left faults writes s s') :
    Left faults writes s₀ s' := by
  rcases hl with hl | ⟨hp, store, next, hcurrent, hw, hl⟩
  · exact .inl ⟨hl.live.trans h.live, hl.saved.trans h.saved, hl.store.trans h.store⟩
  · exact .inr ⟨hp, store, next, h.store.symm.trans hcurrent, hw, hl.live.trans h.live,
      hl.saved.trans h.saved, hl.written⟩

omit [Platform] in
theorem with_owner_shorter (store : FriendStore) (public_key : String) :
    Shorter store { store with owners := with_owner store public_key } := by
  refine ⟨rfl, List.prefix_rfl, ?_⟩
  unfold with_owner
  split_ifs
  · exact List.prefix_rfl
  · exact List.prefix_append _ _

omit [Platform] in
theorem add_router_peer_undone (hs : s.saved = s.live) (hr : faults.RollsBack)
    {public_key tunnel_ip : String}
    (hw : ∀ store, writes store { store with owners := with_owner store public_key }) :
    Ends (add_router_peer interface faults public_key tunnel_ip) (fun _ _ => True)
      (Undone (Left faults writes s)) s := by
  refine undone_lift .refl fun _ _ => undone_lift .refl fun network _ => ends_get_bind.mpr ?_
  refine undone_lift .refl fun routes _ => undone_lift .refl fun _ _ => ?_
  refine undone_load fun store s' h => undone_query h.left (undone_unless h.left fun _ => ?_)
  refine undone_write h (hw store) fun data hdata => changed_undone fun live saved error => ?_
  have hback : Ends (roll_back faults "router owner creation failed" s'.live error (pure ()))
      (fun _ s'' => s'' = { s' with saved := s'.live, metadata := some data })
      (Undone (Left faults writes s)) { publish data s' with live, saved } :=
    roll_back_undone hr (ends_pure.mpr rfl)
  refine Ends.bind hback ?_
  rintro _ _ rfl
  by_cases ho : public_key ∈ store.owners
  · -- the metadata that was written says what it said before
    have hnext : ({ store with owners := with_owner store public_key } : FriendStore) = store := by
      rw [with_owner, if_pos ho]
    have hloaded : Loaded (publish data s') store :=
      ⟨read_store_encode h.loaded.schema (read_store_valid h.loaded.read) (hnext ▸ hdata),
        h.loaded.schema⟩
    simp only [if_pos ho]
    exact .inl ⟨h.live, h.live.trans hs.symm, hloaded.current.trans h.current.symm⟩
  · simp only [if_neg ho]
    exact undo_undone h hs hr (with_owner_shorter store public_key) hdata

theorem create_router_profile_undone (hs : s.saved = s.live) (hr : faults.RollsBack)
    {endpoint private_key : String}
    (hw : ∀ store, writes store { store with owners := with_owner store (pubkey private_key) }) :
    Ends (create_router_profile interface faults endpoint private_key) (fun _ _ => True)
      (Undone (Left faults writes s)) s := by
  have hload : Ends (discard (load_store interface faults.first) : Managed Unit)
      (fun _ s' => ∃ store, At interface s store s') (Undone (Left faults writes s)) s :=
    ends_bind.mpr (load_store_undone.mono (fun store _ h => ⟨store, h⟩)
      (Undone.mono fun _ h => .inl h))
  refine Ends.bind hload ?_
  rintro _ s' ⟨store, h⟩
  refine undone_query h.left (ends_get_bind.mpr (undone_lift h.left fun _ _ => ?_))
  refine undone_lift h.left fun network _ => ?_
  have hs' : s'.saved = s'.live := h.saved.trans (hs.trans h.live.symm)
  refine Ends.bind ((add_router_peer_undone hs' hr hw).mono (fun _ _ h => h)
    (Undone.mono fun _ hl => hl.trans h.restored)) fun _ _ _ => trivial

omit [Platform] in
theorem remove_router_peer_undone (hs : s.saved = s.live) (hr : faults.RollsBack)
    {public_key : String} :
    Ends (remove_router_peer interface faults public_key) (fun _ _ => True)
      (Undone (Left faults writes s)) s := by
  refine undone_load fun store s' h => undone_query h.left (undone_lift h.left fun _ _ => ?_)
  exact undone_unless h.left fun _ => peers_undone h hs hr

omit [Platform] in
theorem warp_routes_undone {faults' : Faults} :
    Ends (warp_routes interface faults) (fun _ s' => ∃ store, At interface s store s')
      (Undone (Left faults' writes s)) s := by
  refine ends_bind.mpr (load_store_undone.mono ?_ (Undone.mono fun _ h => .inl h))
  intro store s' h
  refine undone_query h.left (ends_get_bind.mpr (ends_lift.mpr ⟨fun _ _ => ⟨store, h⟩, ?_⟩))
  exact fun _ _ => h.left

omit [Platform] in
theorem authorize_warp_undone (hs : s.saved = s.live) (hr : faults.RollsBack) :
    Ends (authorize_warp interface faults) (fun _ _ => True) (Undone (Left faults writes s)) s := by
  refine ends_get_bind.mpr (undone_lift .refl fun _ _ => undone_unless .refl fun _ => ?_)
  refine Ends.bind warp_routes_undone ?_
  rintro changes s' ⟨store, h⟩
  exact peers_undone h hs hr

omit [Platform] in
theorem warp_command_undone : Ends (warp_command faults) (fun _ => Restored s)
    (Undone (Restored s)) s :=
  undone_whole ⟨rfl, rfl, rfl⟩ (.refl s) fun _ => ⟨rfl, rfl, rfl⟩

omit [Platform] in
theorem enable_warp_undone (hs : s.saved = s.live) (hr : faults.RollsBack) {accept_terms : Bool} :
    Ends (enable_warp interface faults accept_terms) (fun _ _ => True)
      (Undone (Left faults writes s)) s := by
  refine undone_unless .refl fun _ => Ends.bind (P := fun _ => Restored s) ?_ ?_
  · refine Ends.bind warp_routes_undone ?_
    rintro changes s' ⟨store, h⟩
    exact h.restored
  · intro _ s' h
    have hcommand : Ends (warp_command faults) (fun _ => Restored s)
        (Undone (Left faults writes s)) s' := by
      have hkeep : ∀ s'', Restored s' s'' → Restored s s'' := fun s'' h' =>
        ⟨h'.live.trans h.live, h'.saved.trans h.saved, h'.store.trans h.store⟩
      exact warp_command_undone.mono (fun _ s'' h' => hkeep s'' h')
        (Undone.mono fun s'' h' => .inl (hkeep s'' h'))
    refine Ends.bind hcommand fun _ s'' h' => ?_
    have hs'' : s''.saved = s''.live := h'.saved.trans (hs.trans h'.live.symm)
    exact (authorize_warp_undone hs'' hr).mono (fun _ _ h => h)
      (Undone.mono fun _ hl => hl.trans h')

omit [Platform] in
theorem add_peer_undone (hs : s.saved = s.live) (hr : faults.RollsBack)
    {public_key tunnel_ip : String} :
    Ends (add_peer faults public_key tunnel_ip) (fun _ _ => True)
      (Undone (Left faults writes s)) s := by
  refine undone_lift .refl fun _ _ => undone_lift .refl fun network _ => undone_query .refl ?_
  refine ends_get_bind.mpr (undone_lift .refl fun _ _ => changed_undone fun _ _ _ => ?_)
  exact roll_back_undone hr (ends_pure.mpr (.inl ⟨rfl, hs.symm, rfl⟩))

omit [Platform] in
theorem add_legacy_undone (hs : s.saved = s.live) (hr : faults.RollsBack) {owner : Bool}
    {public_key tunnel_ip : String}
    (hw : ∀ store, writes store { store with owners := with_owner store public_key }) :
    Ends (add_legacy interface faults owner public_key tunnel_ip) (fun _ _ => True)
      (Undone (Left faults writes s)) s := by
  cases owner with
  | false => exact add_peer_undone hs hr
  | true => exact add_router_peer_undone hs hr hw

theorem create_profile_undone (hs : s.saved = s.live) (hr : faults.RollsBack)
    {endpoint private_key : String} {tunnel_ip subnet : Option String}
    (hw : ∀ store, writes store { store with owners := with_owner store (pubkey private_key) }) :
    Ends (create_profile interface faults endpoint tunnel_ip subnet private_key) (fun _ _ => True)
      (Undone (Left faults writes s)) s := by
  refine undone_lift .refl fun _ _ => undone_lift .refl fun owner _ => undone_query .refl ?_
  refine ends_get_bind.mpr ?_
  cases tunnel_ip with
  | some tunnel_ip =>
    exact ends_bind.mpr (ends_pure.mpr (Ends.bind (add_legacy_undone hs hr hw)
      fun _ _ _ => trivial))
  | none =>
    refine undone_lift .refl fun network _ => ends_bind.mpr (ends_pure.mpr ?_)
    exact Ends.bind (add_legacy_undone hs hr hw) fun _ _ _ => trivial

/-- What a failed restart leaves: everything, or some of the live peers. -/
def Resumed (faults : Faults) (s s' : Vps) : Prop :=
  Restored s s' ∨ faults.Halted ∧ ∃ n, s' = { s with live := s.live.take n }

omit [Platform] in
theorem Resumed.refl (s : Vps) : Resumed faults s s := .inl (.refl s)

omit [Platform] in
theorem restart_undone (hs : s.saved = s.live) :
    Ends (restart interface faults) (fun _ _ => True) (Undone (Resumed faults s)) s := by
  obtain ⟨live, saved, metadata, warp, server_key⟩ := s
  cases hs
  -- nothing is saved that was not saved before, and the same is loaded again
  refine undone_lift (.refl _) fun _ _ => ends_bind.mpr ?_
  refine undone_whole ?_ (.refl _) fun _ => .refl _
  refine ends_bind.mpr (ends_command.mpr ?_)
  cases hservice : faults.service with
  | done =>
    refine ends_query.mpr ?_
    cases faults.relay with
    | done => trivial
    | failed _ => exact .refl _
    | killed _ => trivial
  | failed progress =>
    cases progress with
    | zero => exact .refl _
    | succ n => exact .inr ⟨⟨n, hservice⟩, n, rfl⟩
  | killed _ => trivial

theorem profile_undone {public_key endpoint : String} :
    Ends (profile interface faults public_key endpoint) (fun _ _ => True)
      (Undone (Left faults writes s)) s := by
  refine undone_load fun store s' h => ?_
  refine undone_query h.left (ends_get_bind.mpr (undone_lift h.left fun current _ => ?_))
  cases current with
  | none => exact h.left
  | some ip =>
    simp only
    cases store.records.find? fun record => record.public_key = public_key with
    | none => exact h.left
    | some record =>
      simp only
      cases record.private_key with
      | none => exact h.left
      | some private_key => exact undone_unless h.left fun _ => trivial

omit [Platform] in
theorem status_undone :
    Ends (status interface faults) (fun _ _ => True) (Undone (Left faults writes s)) s := by
  refine undone_load fun store s' h => undone_query h.left (ends_get_bind.mpr ?_)
  have hwarp : Ends (warp_status interface faults) (fun _ _ => True)
      (Undone (Left faults writes s)) s' := by
    refine ends_get_bind.mpr (undone_lift h.left fun prepared _ => ?_)
    cases prepared with
    | false => trivial
    | true =>
      refine undone_query h.left (undone_lift h.left fun status _ => ?_)
      exact undone_unless h.left fun _ => trivial
  exact Ends.bind hwarp fun _ _ _ => trivial

/-! ## All of them -/

/-- Legacy removals of peers without metadata have no rollback. -/
def Command.HasRollback : Command → Prop
  | .remove_peer _ subnet => subnet ≠ none
  | _ => True

theorem others_undone (interface : String) {command : Command} (hc : command.HasRollback)
    (hrestart : command ≠ .restart_vpn) (hr : faults.RollsBack) (hs : s.saved = s.live) :
    Ends (dispatch interface faults command) (fun _ _ => True)
      (Undone (Left faults (fun store next => command.Writes s store next) s)) s := by
  cases command with
  | add_peer public_key tunnel_ip subnet =>
    refine undone_query .refl (undone_lift .refl fun owner _ => ?_)
    exact Ends.bind (add_legacy_undone hs hr fun _ => ⟨_, rfl, rfl⟩) fun _ _ _ => trivial
  | create_profile endpoint tunnel_ip subnet private_key =>
    exact undone_query .refl (create_profile_undone hs hr fun _ => ⟨_, rfl, rfl⟩)
  | remove_peer public_key subnet =>
    refine undone_query .refl (undone_lift .refl fun owner howner => ?_)
    cases owner with
    | false => exact absurd (legacy_owner_eq_false howner) hc
    | true => exact Ends.bind (remove_router_peer_undone hs hr) fun _ _ _ => trivial
  | create_router_profile endpoint private_key =>
    exact undone_lift .refl fun _ _ =>
      undone_query .refl (create_router_profile_undone hs hr fun _ => ⟨_, rfl, rfl⟩)
  | remove_router_peer public_key =>
    exact undone_query .refl (Ends.bind (remove_router_peer_undone hs hr) fun _ _ _ => trivial)
  | capabilities => trivial
  | managed_status =>
    exact undone_query .refl (Ends.bind status_undone fun _ _ _ => trivial)
  | create_friend endpoint input private_key =>
    refine undone_lift .refl fun _ _ => undone_lift .refl fun name hname => ?_
    exact undone_query .refl (create_undone hs hr fun _ => ⟨name, hname, rfl⟩)
  | rename_friend public_key input =>
    refine undone_lift .refl fun name hname => undone_query .refl ?_
    exact Ends.bind (rename_undone fun _ => ⟨name, hname, rfl⟩) fun _ _ _ => trivial
  | revoke_friend public_key =>
    refine undone_query .refl (Ends.bind (revoke_undone hs hr fun _ ip hip => ?_)
      fun _ _ _ => trivial)
    exact ⟨ip, hip, rfl⟩
  | friend_profile public_key endpoint =>
    exact undone_lift .refl fun _ _ => undone_query .refl profile_undone
  | restart_vpn => exact absurd rfl hrestart
  | enable_warp accept_terms =>
    exact undone_query .refl (Ends.bind (enable_warp_undone hs hr) fun _ _ _ => trivial)
  | disable_warp =>
    refine undone_query .refl (Ends.bind (P := fun _ => Restored s) ?_ fun _ _ _ => trivial)
    exact warp_command_undone.mono (fun _ _ h => h) (Undone.mono fun _ h => .inl h)

/-- What a command may leave that fails. -/
def Command.Leaves (command : Command) (faults : Faults) (s s' : Vps) : Prop :=
  Restored s s' ∨
    (faults.Published ∧ ∃ store next, current_store s = .ok store ∧
      command.Writes s store next ∧ Ahead next s s') ∨
    (command = .restart_vpn ∧ faults.Halted ∧ ∃ n, s' = { s with live := s.live.take n })

/-- **A failed command**, once its rollback has gone through. -/
theorem dispatch_undone (interface : String) {command : Command} (hc : command.HasRollback)
    (hr : faults.RollsBack) (hs : s.saved = s.live) :
    Ends (dispatch interface faults command) (fun _ _ => True)
      (Undone (command.Leaves faults s)) s := by
  by_cases hrestart : command = .restart_vpn
  · subst hrestart
    have h : Ends (dispatch interface faults .restart_vpn) (fun _ _ => True)
        (Undone (Resumed faults s)) s :=
      undone_query (.refl s) (Ends.bind (restart_undone hs) fun _ _ _ => trivial)
    refine h.mono (fun _ _ _ => trivial) (Undone.mono fun s' hs' => ?_)
    rcases hs' with h | h
    · exact .inl h
    · exact .inr (.inr ⟨rfl, h⟩)
  · have h := others_undone interface hc hrestart hr hs
    refine h.mono (fun _ _ _ => trivial) (Undone.mono fun s' hs' => ?_)
    rcases hs' with h | h
    · exact .inl h
    · exact .inr (.inl h)

/-- **Commands are atomic.** If a command returns an error and the steps of its rollback succeed, then
the live peers and the saved ones are as before, and so is the metadata, with two exceptions. If the
write of the metadata fails after the new file is in place, the metadata is the new one; and if a
restart fails after the service has stopped, live peers are missing until it starts again. -/
theorem commands_atomic (interface : String) (command : Command) (hc : command.HasRollback)
    {faults : Faults} (hr : faults.RollsBack) {s s' : Vps} (hs : s.saved = s.live) {e : String}
    (he : (dispatch interface faults command).exec s = (.error (.error e), s')) :
    Restored s s' ∨
      (faults.Published ∧ ∃ store next, current_store s = .ok store ∧
        command.Writes s store next ∧ Ahead next s s') ∨
      (command = .restart_vpn ∧ faults.Halted ∧ ∃ n, s' = { s with live := s.live.take n }) :=
  (dispatch_undone interface hc hr hs).error he

end

/-- The new configuration cannot be saved. -/
def sample_unsaved : Faults := { Faults.none with save := .failed 0 }

/-- A peer whose addition cannot be saved. -/
theorem commands_atomic_sample : letI := sample_platform
    let command := .add_peer CAROL "10.202.0.9/32" none
    let s' := ((dispatch "gt0" sample_unsaved command).exec sample).2
    Restored sample s' ∨
      (sample_unsaved.Published ∧ ∃ store next, current_store sample = .ok store ∧
        command.Writes sample store next ∧ Ahead next sample s') ∨
      (command = .restart_vpn ∧ sample_unsaved.Halted ∧
        ∃ n, s' = { sample with live := sample.live.take n }) :=
  letI := sample_platform
  have he : ((dispatch "gt0" sample_unsaved (.add_peer CAROL "10.202.0.9/32" none)).exec sample).1 =
      .error (.error "wg-quick save failed") := by decide +kernel
  commands_atomic "gt0" (.add_peer CAROL "10.202.0.9/32" none) trivial ⟨rfl, rfl, rfl⟩ rfl
    (Op.exec_eq he)

/-- An owner without a peer: the write of the metadata fails after the file is in place. -/
example : letI := sample_platform
    let faults := { Faults.none with write := .failed 1 }
    let s : Vps := ⟨⟨[], by decide⟩, ⟨[], by decide⟩, none, none, "server"⟩
    let s' := ((add_router_peer "gt0" faults CAROL "10.202.0.9/32").exec s).2
    s'.live.keys = [] ∧ s'.metadata = (encode_store ⟨2, [], [CAROL]⟩).toOption := by
  decide +kernel

/-- The service stops and does not start again. -/
example : letI := sample_platform
    let faults := { Faults.none with service := .failed 1 }
    let s' := ((dispatch "gt0" faults .restart_vpn).exec sample).2
    s'.live.keys = [] ∧ s'.saved.keys = [ROUTER, BOB] := by
  decide +kernel

end Gofro.Server
