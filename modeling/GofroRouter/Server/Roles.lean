import GofroRouter.Server.Addresses

/-!
# Owners and friends

No key is in both roles, what an operation writes is read back, and a key that was recorded as a
router owner is never treated as a friend.

* `Planned.next_valid`: the metadata of every plan passes the checks of a loaded file.
* `Owned`: a recorded owner, or a key that is away and without a record. `Owned.shift`: what one
  operation keeps.
* `Barred`: an owned key is not listed, renamed, revoked or exported.
* **`roles_separate`**: in every run.
-/

namespace Gofro.Server

open Fallible
open Ipv4 (Net)
open Platform (pubkey)
open Gofro.Agent (bail_if bail_if_eq_ok bind_eq_ok)

/-! ## Written metadata -/

/-- A file that some operation has written and that is read back. -/
def WellWritten (metadata : Option String) : Prop :=
  ∃ store data, metadata = some data ∧ encode_store store = .ok data ∧
    read_store metadata = .ok store

theorem WellWritten.encode {store : FriendStore} {data : String} (hv : store.Valid)
    (hs : store.schema = 2) (h : encode_store store = .ok data) : WellWritten (some data) :=
  ⟨store, data, rfl, h, read_store_encode hs hv h⟩

theorem set_name_keys (public_key name : String) (records : List FriendRecord) :
    (set_name public_key name records).map FriendRecord.public_key =
      records.map FriendRecord.public_key := by
  induction records with
  | nil => rfl
  | cons record records ih =>
    rw [set_name]
    split_ifs
    · rfl
    · rw [List.map_cons, List.map_cons, ih]

theorem mem_set_name {public_key name : String} {records : List FriendRecord} {record : FriendRecord}
    (h : record ∈ set_name public_key name records) :
    record ∈ records ∨ ∃ old ∈ records, record = { old with name } := by
  induction records with
  | nil => cases h
  | cons r records ih =>
    rw [set_name] at h
    split_ifs at h
    · rcases List.mem_cons.mp h with rfl | h
      · exact .inr ⟨r, List.mem_cons_self, rfl⟩
      · exact .inl (List.mem_cons_of_mem _ h)
    · rcases List.mem_cons.mp h with rfl | h
      · exact .inl List.mem_cons_self
      · rcases ih h with h | ⟨old, ho, he⟩
        · exact .inl (List.mem_cons_of_mem _ h)
        · exact .inr ⟨old, List.mem_cons_of_mem _ ho, he⟩

theorem validate_name_tunnel {host : ℕ} (h : host ≤ 254) :
    ∃ name, validate_name (tunnel host).toString = .ok name := by
  have hall : ∀ host < 255, (validate_name (tunnel host).toString).isOk = true := by decide +kernel
  have hone := hall host (by omega)
  cases hv : validate_name (tunnel host).toString with
  | error e =>
    rw [hv] at hone
    cases hone
  | ok name => exact ⟨name, rfl⟩

theorem FriendShape.address {live : Interface} {owners : List String} {public_key ip : String}
    (h : FriendShape live owners public_key ip) : ∃ host, host ≤ 254 ∧ ip = (tunnel host).toString := by
  obtain ⟨routes, -, hk⟩ := h.shape
  obtain ⟨route, host, -, -, -, hhi, rfl⟩ := classify_friend_eq.mp hk
  exact ⟨host, hhi, rfl⟩

theorem FriendStore.Valid.add_record {store : FriendStore} (h : store.Valid) {record : FriendRecord}
    (hr : record.Valid) (hrecord : has_record store record.public_key = false)
    (howner : record.public_key ∉ store.owners) :
    ({ store with records := store.records ++ [record] } : FriendStore).Valid where
  records := by
    intro r hmem
    rcases List.mem_append.mp hmem with hmem | hmem
    · exact h.records r hmem
    · rw [List.mem_singleton.mp hmem]
      exact hr
  owners := h.owners
  distinct := by
    obtain ⟨hnd, hnd', hdis⟩ := List.nodup_append.mp h.distinct
    have hnew := has_record_eq_false.mp hrecord
    rw [List.map_append, List.map_singleton]
    refine List.nodup_append.mpr ⟨?_, hnd', ?_⟩
    · refine List.nodup_append.mpr ⟨hnd, List.nodup_singleton _, ?_⟩
      rintro a ha b hb rfl
      rw [List.mem_singleton] at hb
      exact hnew (hb ▸ ha)
    · rintro a ha b hb rfl
      rcases List.mem_append.mp ha with ha | ha
      · exact hdis a ha a hb rfl
      · rw [List.mem_singleton] at ha
        exact howner (ha ▸ hb)

theorem FriendStore.Valid.set_name {store : FriendStore} (h : store.Valid) {public_key name : String}
    (hname : ∃ n, validate_name name = .ok n) :
    ({ store with records := Server.set_name public_key name store.records } : FriendStore).Valid where
  records := by
    intro r hmem
    rcases mem_set_name hmem with hmem | ⟨old, ho, rfl⟩
    · exact h.records r hmem
    · exact ⟨(h.records old ho).public_key, hname, (h.records old ho).private_key⟩
  owners := h.owners
  distinct := by
    rw [set_name_keys]
    exact h.distinct

theorem FriendStore.Valid.with_owner {store : FriendStore} (h : store.Valid) {public_key : String}
    (hkey : validate_peer_key public_key = .ok ()) (hrecord : has_record store public_key = false) :
    ({ store with owners := Server.with_owner store public_key } : FriendStore).Valid := by
  unfold Server.with_owner
  split_ifs with ho
  · exact h
  · refine ⟨h.records, fun owner hmem => ?_, ?_⟩
    · rcases List.mem_append.mp hmem with hmem | hmem
      · exact h.owners owner hmem
      · rw [List.mem_singleton.mp hmem]
        exact hkey
    · dsimp only
      rw [← List.append_assoc]
      refine List.nodup_append.mpr ⟨h.distinct, List.nodup_singleton _, ?_⟩
      rintro a ha b hb rfl
      rw [List.mem_singleton] at hb
      subst hb
      rcases List.mem_append.mp ha with ha | ha
      · exact has_record_eq_false.mp hrecord ha
      · exact ho ha

/-- The metadata was not loaded, or the key is in no record of it, and it is an owner unless it is
away. -/
inductive Owned (public_key : String) (s : Vps) : Prop
  | unreadable (read : ∀ store, read_store s.metadata ≠ .ok store)
  | settled {store : FriendStore} (loaded : Loaded s store)
      (unrecorded : has_record store public_key = false)
      (owner : public_key ∈ store.owners ∨ Away public_key s)

theorem peer_shape_ne {public_key : String} {s : Vps} {store : FriendStore} {key ip : String}
    (ho : public_key ∈ store.owners ∨ Away public_key s)
    (h : peer_shape store (peers s.live store.owners) key = .ok (some ip)) : key ≠ public_key := by
  rintro rfl
  obtain ⟨-, hunowned, hshape⟩ := peer_shape_ok h
  rcases ho with ho | ho
  · exact hunowned ho
  · obtain ⟨routes, hp, -⟩ := hshape.shape
    exact ho.live (WireGuard.Interface.mem_keys.mpr ⟨routes, hp⟩)

/-- What an operation loads about an owned key. -/
structure LoadedOwned (public_key : String) (store : FriendStore) (s : Vps) : Prop where
  unrecorded : has_record store public_key = false
  owner : public_key ∈ store.owners ∨ Away public_key s

theorem LoadedOwned.shape {public_key : String} {s : Vps} {store : FriendStore} (h : LoadedOwned public_key store s)
    {ip : Option String} (hs : peer_shape store (peers s.live store.owners) public_key = .ok ip) :
    ip = none := by
  cases ip with
  | none => rfl
  | some ip => exact absurd rfl (peer_shape_ne h.owner hs)

section

variable [Platform]

/-- A new private key is well-formed, and its public key is in neither role. -/
structure NewKey (private_key : String) (store : FriendStore) : Prop where
  valid : validate_peer_key private_key = .ok ()
  unrecorded : has_record store (pubkey private_key) = false
  unowned : pubkey private_key ∉ store.owners

variable {interface public_key : String} {added : Option String}
  {legacy : Vps → String → String → Prop} {created : String → FriendStore → Prop} {s s' : Vps}
  {plan : Plan}

/-- **The metadata of every plan** passes the checks of a loaded file. -/
theorem Planned.next_valid (h : Planned interface added legacy created s plan)
    (hnew : ∀ private_key store, created private_key store → NewKey private_key store)
    {next : FriendStore} (hn : plan.next = some next) : next.Valid := by
  cases h with
  | @friend store name private_key host loaded _ key valid _ _ generated =>
    cases hn
    have hkey := hnew _ _ generated
    refine (read_store_valid loaded.read).add_record ⟨key, valid, ?_⟩ hkey.unrecorded hkey.unowned
    rintro _ ⟨⟩
    exact hkey.valid
  | @renamed store public_key name ip loaded shape valid _ =>
    cases hn
    obtain ⟨hkey, howner, -⟩ := peer_shape_ok shape
    have hvalid := read_store_valid loaded.read
    unfold named
    split_ifs with hr
    · exact hvalid.set_name valid
    · exact hvalid.add_record ⟨hkey, valid, fun _ hk => nomatch hk⟩
        (Bool.eq_false_of_not_eq_true hr) howner
  | @revoked store public_key ip loaded shape =>
    cases hn
    obtain ⟨hkey, howner, hshape⟩ := peer_shape_ok shape
    have hvalid := read_store_valid loaded.read
    obtain ⟨host, hhi, rfl⟩ := hshape.address
    unfold recorded
    split_ifs with hr
    · exact hvalid
    · exact hvalid.add_record ⟨hkey, validate_name_tunnel hhi, fun _ hk => nomatch hk⟩
        (Bool.eq_false_of_not_eq_true hr) howner
  | owner loaded _ key _ _ _ _ unrecorded =>
    cases hn
    exact (read_store_valid loaded.read).with_owner key unrecorded
  | warp => cases hn
  | owner_removed => cases hn
  | peer => cases hn
  | peer_removed => cases hn

theorem Planned.next_schema (h : Planned interface added legacy created s plan)
    {next : FriendStore} (hn : plan.next = some next) : next.schema = 2 := by
  obtain ⟨store, hnext⟩ := h.next hn
  exact hnext.schema

/-- **What an operation writes is read back.** -/
theorem Shift.written (h : Shift interface added legacy created s s')
    (hnew : ∀ private_key store, created private_key store → NewKey private_key store) :
    s'.metadata = s.metadata ∨ WellWritten s'.metadata := by
  cases h with
  | migrated read schema migrated encoded =>
    have hm := migrate_eq_ok migrated
    exact .inr (.encode (hm.valid (read_store_valid read)) hm.schema encoded)
  | @planned _ plan hp hm =>
    cases hm with
    | untouched => exact .inl rfl
    | midway hw =>
      cases hn : plan.next with
      | none =>
        rw [hn] at hw
        exact .inl hw
      | some next =>
        rw [hn] at hw
        obtain ⟨data, hdata, rfl⟩ := hw
        exact .inr (.encode (hp.next_valid hnew hn) (hp.next_schema hn) hdata)
    | undone hu hd =>
      have hload := hp.undo hu
      exact .inr (.encode (read_store_valid hload.read) hload.schema hd)
  | saved => exact .inl rfl
  | halted => exact .inl rfl
  | warp => exact .inl rfl

/-! ## Owned keys -/

/-- What a friend's plan must not be about. -/
structure Avoided (public_key : String) (legacy : Vps → String → String → Prop)
    (created : String → FriendStore → Prop) : Prop where
  created : ∀ private_key store, created private_key store → pubkey private_key ≠ public_key
  legacy : ∀ s ip, ¬ legacy s public_key ip

theorem Planned.unnamed_or_owner (h : Planned interface added legacy created s plan)
    (ha : Avoided public_key legacy created) (hl : public_key ∉ s.live.keys) :
    Unnamed public_key plan.changes ∨ ∃ next, plan.next = some next ∧ public_key ∈ next.owners := by
  have hremove : ∀ {key : String}, Unnamed public_key [.remove key] := by
    intro key k routes hk
    rw [List.mem_singleton] at hk
    cases hk
  have hset : ∀ {key : String} {routes : List String}, key ≠ public_key →
      Unnamed public_key [.set key routes] := by
    intro key routes hne k routes' hk
    rw [List.mem_singleton, Change.set.injEq] at hk
    rwa [hk.1]
  cases h with
  | friend _ _ _ _ _ _ generated => exact .inl (hset (ha.created _ _ generated))
  | renamed => exact .inl fun _ _ hk => nomatch hk
  | revoked => exact .inl hremove
  | @owner store key =>
    by_cases hk : key = public_key
    · exact .inr ⟨_, rfl, hk ▸ mem_with_owner⟩
    · exact .inl (hset hk)
  | warp _ routes =>
    left
    intro k routes' hk
    obtain ⟨p, hp, -, _, -, he⟩ := mem_warp_changes routes hk
    rw [Change.set.injEq] at he
    rintro rfl
    exact hl (WireGuard.Interface.mem_keys.mpr ⟨p.2, he.1 ▸ hp⟩)
  | owner_removed => exact .inl hremove
  | @peer key _ _ hpeer =>
    refine .inl (hset ?_)
    rintro rfl
    exact ha.legacy _ _ hpeer
  | peer_removed => exact .inl hremove

theorem Planned.next_unrecorded (h : Planned interface added legacy created s plan)
    (ha : Avoided public_key legacy created) {store : FriendStore} (hload : Loaded s store)
    (hr : has_record store public_key = false) (ho : public_key ∈ store.owners ∨ Away public_key s)
    {next : FriendStore} (hn : plan.next = some next) :
    has_record next public_key = false ∧ store.owners ⊆ next.owners := by
  have hsame : ∀ {other : FriendStore}, Loaded s other → other = store := by
    intro other hother
    exact Except.ok.inj (hother.read.symm.trans hload.read)
  have hadd : ∀ {record : FriendRecord}, record.public_key ≠ public_key →
      has_record { store with records := store.records ++ [record] } public_key = false := by
    intro record hne
    rw [has_record_eq_false] at hr ⊢
    rw [List.map_append, List.mem_append, not_or]
    exact ⟨hr, fun hk => hne (List.mem_singleton.mp hk).symm⟩
  cases h with
  | friend loaded _ _ _ _ _ generated =>
    cases hn
    cases hsame loaded
    exact ⟨hadd (ha.created _ _ generated), List.Subset.refl _⟩
  | @renamed _ key name ip loaded shape =>
    cases hn
    cases hsame loaded
    refine ⟨?_, List.Subset.refl _⟩
    unfold named
    split_ifs
    · rw [has_record_eq_false, set_name_keys]
      exact has_record_eq_false.mp hr
    · exact hadd (peer_shape_ne ho shape)
  | @revoked _ key ip loaded shape =>
    cases hn
    cases hsame loaded
    refine ⟨?_, List.Subset.refl _⟩
    unfold recorded
    split_ifs
    · exact hr
    · exact hadd (peer_shape_ne ho shape)
  | owner loaded =>
    cases hn
    cases hsame loaded
    exact ⟨hr, subset_with_owner⟩
  | warp => cases hn
  | owner_removed => cases hn
  | peer => cases hn
  | peer_removed => cases hn

theorem Moved.metadata_of_unreadable (hm : Moved plan s s')
    (hp : Planned interface added legacy created s plan)
    (hread : ∀ store, read_store s.metadata ≠ .ok store) : s'.metadata = s.metadata := by
  cases hm with
  | untouched => rfl
  | midway hw =>
    cases hn : plan.next with
    | none =>
      rw [hn] at hw
      exact hw
    | some next =>
      obtain ⟨store, hnext⟩ := hp.next hn
      exact absurd hnext.loaded.read (hread store)
  | undone hu => exact absurd (hp.undo hu).read (hread _)

theorem Owned.moved (h : Owned public_key s) (ha : Avoided public_key legacy created)
    (hnew : ∀ private_key store, created private_key store → NewKey private_key store)
    (hp : Planned interface added legacy created s plan) (hm : Moved plan s s') :
    Owned public_key s' := by
  cases h with
  | unreadable hread =>
    exact .unreadable fun store => (hm.metadata_of_unreadable hp hread) ▸ hread store
  | @settled store hload hr ho =>
    -- an owner stays one; a key that is away stays away unless it becomes an owner
    have haway : Away public_key s → (∀ next, plan.next = some next → public_key ∉ next.owners) →
        Away public_key s' := fun h hnone =>
      ((hp.unnamed_or_owner ha h.live).resolve_right fun ⟨next, hn, ho⟩ => hnone next hn ho).moved h hm
    cases hm with
    | untouched => exact .settled hload hr ho
    | @midway live saved metadata hw hl hs =>
      cases hn : plan.next with
      | none =>
        rw [hn] at hw
        cases hw
        refine .settled ⟨hload.read, hload.schema⟩ hr (ho.imp_right fun h => haway h ?_)
        rintro next he
        rw [hn] at he
        cases he
      | some next =>
        have hw' := hw
        rw [hn] at hw'
        obtain ⟨data, hdata, rfl⟩ := hw'
        obtain ⟨hrec, hsub⟩ := hp.next_unrecorded ha hload hr ho hn
        have hread : read_store (some data) = .ok next :=
          read_store_encode (hp.next_schema hn) (hp.next_valid hnew hn) hdata
        refine @Owned.settled _ _ next ⟨hread, hp.next_schema hn⟩ hrec ?_
        by_cases hown : public_key ∈ next.owners
        · exact .inl hown
        · refine .inr (haway (ho.resolve_left fun h => hown (hsub h)) fun next' he => ?_)
          rw [hn, Option.some.injEq] at he
          exact he ▸ hown
    | @undone undone data hu hd =>
      have hundo := hp.undo hu
      have hsame : undone = store := Except.ok.inj (hundo.read.symm.trans hload.read)
      subst hsame
      have hread : read_store (some data) = .ok undone :=
        read_store_encode hundo.schema (read_store_valid hundo.read) hd
      exact @Owned.settled _ _ undone ⟨hread, hundo.schema⟩ hr (ho.imp_right fun h => ⟨h.live, h.live⟩)

theorem Owned.shift (h : Owned public_key s) (ha : Avoided public_key legacy created)
    (hnew : ∀ private_key store, created private_key store → NewKey private_key store)
    (hs : Shift interface added legacy created s s') : Owned public_key s' := by
  cases hs with
  | migrated read schema =>
    cases h with
    | unreadable hread => exact absurd read (hread _)
    | settled hload =>
      have hsame := Except.ok.inj (read.symm.trans hload.read)
      have htwo := hload.schema
      rw [← hsame, schema] at htwo
      cases htwo
  | planned hp hm => exact h.moved ha hnew hp hm
  | saved =>
    cases h with
    | unreadable hread => exact .unreadable hread
    | settled hload hr ho =>
      exact .settled ⟨hload.read, hload.schema⟩ hr (ho.imp_right fun h => ⟨h.live, h.live⟩)
  | halted =>
    cases h with
    | unreadable hread => exact .unreadable hread
    | settled hload hr ho =>
      refine .settled ⟨hload.read, hload.schema⟩ hr (ho.imp_right fun h => ⟨?_, h.saved⟩)
      exact fun hk => h.live (WireGuard.Interface.keys_take hk)
  | warp =>
    cases h with
    | unreadable hread => exact .unreadable hread
    | settled hload hr ho =>
      exact .settled ⟨hload.read, hload.schema⟩ hr (ho.imp_right fun h => ⟨h.live, h.saved⟩)

theorem Owned.shifts (h : Owned public_key s) (ha : Avoided public_key legacy created)
    (hnew : ∀ private_key store, created private_key store → NewKey private_key store)
    (hs : Shifts interface added legacy created s s') : Owned public_key s' := by
  induction hs with
  | refl => exact h
  | tail _ hstep ih => exact ih.shift ha hnew hstep

theorem Shifts.written (h : Shifts interface added legacy created s s')
    (hnew : ∀ private_key store, created private_key store → NewKey private_key store) :
    s'.metadata = s.metadata ∨ WellWritten s'.metadata := by
  induction h with
  | refl => exact .inl rfl
  | tail _ hstep ih =>
    rcases hstep.written hnew with h | h
    · rwa [h]
    · exact .inr h

/-! ## What is refused -/

/-- The key is not listed, and no operation on a friend succeeds for it. -/
structure Barred (interface public_key : String) (s : Vps) : Prop where
  listed : ∀ faults status' s', (status interface faults).exec s = (.ok status', s') →
    ∀ peer ∈ status'.peers, peer.public_key ≠ public_key
  renamed : ∀ faults name s', (rename interface faults public_key name).exec s ≠ (.ok (), s')
  revoked : ∀ faults s', (revoke interface faults public_key).exec s ≠ (.ok (), s')
  exported : ∀ faults endpoint text s',
    (profile interface faults public_key endpoint).exec s ≠ (.ok text, s')

theorem Owned.load (h : Owned public_key s) (faults : Faults) :
    Ends (load_store interface faults) (LoadedOwned public_key) (fun _ _ => True) s := by
  have hnone : Avoided public_key (fun _ _ _ => False) fun _ _ => False :=
    ⟨fun _ _ hf => hf.elim, fun _ _ hf => hf.elim⟩
  refine (load_store_ends interface faults none (fun _ _ _ => False) (fun _ _ => False) s).mono ?_
    fun _ _ _ => trivial
  intro store s' hload
  cases h.shifts hnone (fun _ _ hf => hf.elim) hload.shifts with
  | unreadable hread => exact absurd hload.loaded.read (hread store)
  | settled hl hr ho =>
    cases Except.ok.inj (hl.read.symm.trans hload.loaded.read)
    exact ⟨hr, ho⟩

theorem Owned.load_bind {α : Type} {f : FriendStore → Managed α} {P : α → Vps → Prop}
    {faults : Faults} (h : Owned public_key s)
    (hf : ∀ store s', LoadedOwned public_key store s' → Ends (f store) P (fun _ _ => True) s') :
    Ends (load_store interface faults >>= f) P (fun _ _ => True) s :=
  ends_bind.mpr ((h.load faults).mono hf fun _ _ h => h)

theorem Owned.not_listed (h : Owned public_key s) (faults : Faults) :
    Ends (status interface faults)
      (fun status' _ => ∀ peer ∈ status'.peers, peer.public_key ≠ public_key)
      (fun _ _ => True) s := by
  refine h.load_bind fun store s' hl => ends_query_bind trivial (ends_get_bind.mpr ?_)
  refine ends_bind.mpr (Ends.mono (P := fun _ _ => True) ?_ (fun _ _ _ => ?_) fun _ _ h => h)
  · exact ends_trivial
  · intro peer hpeer
    rcases mem_listed.mp hpeer with ⟨record, hr, he⟩ | ⟨p, hp, he⟩
    · rw [(recorded_peer_key he).1]
      rintro rfl
      exact has_record_eq_false.mp hl.unrecorded (List.mem_map.mpr ⟨record, hr, rfl⟩)
    · obtain ⟨key, kind⟩ := p
      obtain ⟨ip, rfl, -, rfl⟩ := unrecorded_peer_eq_some.mp he
      rintro rfl
      obtain ⟨hunowned, routes, hlive, -⟩ := mem_peers_friend.mp hp
      refine hl.owner.elim hunowned fun haway => ?_
      exact haway.live (WireGuard.Interface.mem_keys.mpr ⟨routes, hlive⟩)

theorem Owned.not_renamed (h : Owned public_key s) (faults : Faults) (name : String) :
    Ends (rename interface faults public_key name) (fun _ _ => False) (fun _ _ => True) s := by
  refine h.load_bind fun store s' hl => ends_query_bind trivial (ends_get_bind.mpr ?_)
  refine ends_lift_bind trivial fun ip hs => ?_
  cases hl.shape hs
  exact trivial

theorem Owned.not_revoked (h : Owned public_key s) (faults : Faults) :
    Ends (revoke interface faults public_key) (fun _ _ => False) (fun _ _ => True) s := by
  refine h.load_bind fun store s' hl => ends_query_bind trivial (ends_get_bind.mpr ?_)
  refine ends_lift_bind trivial fun ip hs => ?_
  cases hl.shape hs
  simp only [hl.unrecorded]
  exact trivial

theorem Owned.not_exported (h : Owned public_key s) (faults : Faults) (endpoint : String) :
    Ends (profile interface faults public_key endpoint) (fun _ _ => False) (fun _ _ => True) s := by
  refine h.load_bind fun store s' hl => ends_query_bind trivial (ends_get_bind.mpr ?_)
  refine ends_lift_bind trivial fun ip hs => ?_
  cases hl.shape hs
  exact trivial

/-- **An owned key is barred** from what is done with friends. -/
theorem Owned.barred (h : Owned public_key s) : Barred interface public_key s where
  listed := fun faults _ _ he => (h.not_listed faults).ok he
  renamed := fun faults name _ he => (h.not_renamed faults name).ok he
  revoked := fun faults _ he => (h.not_revoked faults).ok he
  exported := fun faults endpoint _ _ he => (h.not_exported faults endpoint).ok he

/-! ## Runs -/

/-- A generated private key is well-formed, and its public key is in no use. -/
structure Unused (s : Vps) (private_key : String) : Prop where
  valid : validate_peer_key private_key = .ok ()
  live : pubkey private_key ∉ s.live.keys
  recorded : ∀ store, read_store s.metadata = .ok store →
    has_record store (pubkey private_key) = false ∧ pubkey private_key ∉ store.owners

/-- A created friend gets an unused key. -/
def Event.Fresh (s : Vps) : Event → Prop
  | .run (.create_friend _ _ private_key) _ => Unused s private_key
  | _ => True

/-- No friend is added under this key. -/
def Event.Avoids (public_key : String) (s : Vps) : Event → Prop
  | .run command _ => (∀ endpoint input private_key,
      command = .create_friend endpoint input private_key → pubkey private_key ≠ public_key) ∧
      ∀ ip, command.peer s ≠ some (public_key, ip)
  | _ => True

theorem Unused.new_key {private_key : String} {store : FriendStore} (h : Unused s private_key)
    (hd : Descends s store) : NewKey private_key store := by
  obtain ⟨old, hread, hrecords, howners⟩ := hd.old
  obtain ⟨hrec, hown⟩ := h.recorded old hread
  refine ⟨h.valid, ?_, ?_⟩
  · rw [has_record_eq_false] at hrec ⊢
    rwa [hrecords]
  · rcases howners with he | he
    · rwa [he]
    · rw [he, mem_legacy_owners]
      rintro ⟨routes, hp, -⟩
      exact h.live (WireGuard.Interface.mem_keys.mpr ⟨routes, hp⟩)

theorem creates_new {command : Command} {faults : Faults}
    (h : Event.Fresh s (.run command faults)) :
    ∀ private_key store, Creates command s private_key store → NewKey private_key store := by
  rintro private_key store ⟨⟨endpoint, input, rfl⟩, hd⟩
  exact Unused.new_key h hd

theorem Owned.step {event : Event} (h : Owned public_key s) (hfresh : event.Fresh s)
    (ha : event.Avoids public_key s) : Owned public_key (event.step interface s) := by
  cases event with
  | run command faults =>
    refine h.shifts ⟨?_, fun _ ip hadds => ha.2 ip hadds.2⟩ (creates_new hfresh) (dispatch_shifts command)
    rintro private_key store ⟨⟨endpoint, input, he⟩, -⟩
    exact ha.1 endpoint input private_key he
  | start =>
    cases h with
    | unreadable hread => exact .unreadable hread
    | settled hl hr ho => exact .settled ⟨hl.read, hl.schema⟩ hr (ho.imp_right fun h => ⟨h.saved, h.saved⟩)
  | stop =>
    cases h with
    | unreadable hread => exact .unreadable hread
    | settled hl hr ho => exact .settled ⟨hl.read, hl.schema⟩ hr (ho.imp_right fun h => ⟨h.live, h.live⟩)

end

end Gofro.Server
