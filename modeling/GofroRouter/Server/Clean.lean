import GofroRouter.Server.Roles

/-!
# Clean servers

What no command can spoil: the names in the metadata have no surrounding space, and the keys of the
live and of the saved peers are ones that WireGuard could have.

* `Clean`, and the rules for the steps of an operation.
* **`Clean.step`**, `Clean.run`: every command keeps it, however it ends.
-/

namespace Gofro.Server

open Text Json Fallible
open Platform (pubkey)
open Gofro.Agent (bail_if bail_if_eq_ok bind_eq_ok mapM_eq_ok)

/-! ## Names -/

theorem validate_name_self {name : String} (h : ∃ n, validate_name name = .ok n) :
    validate_name name = .ok name ↔ trim name = name := by
  obtain ⟨n, hn⟩ := h
  have htrim : n = trim name := by
    simp only [validate_name, bind_eq_ok] at hn
    obtain ⟨_, -, hn⟩ := hn
    exact (Except.ok.inj hn).symm
  rw [hn, Except.ok.injEq, htrim]

theorem validate_name_address {live : Interface} {owners : List String} {public_key ip : String}
    (h : FriendShape live owners public_key ip) : validate_name ip = .ok ip := by
  obtain ⟨host, hhost, rfl⟩ := h.address
  refine (validate_name_self (validate_name_tunnel hhost)).mpr (trim_of_not_whitespace fun c hc => ?_)
  rcases Ipv4.Net.toString_char _ hc with hdigit | rfl | rfl
  · exact not_whitespace_of_alphanumeric (by rw [is_ascii_alphanumeric, Char.isAlphanum, hdigit,
      Bool.or_true])
  · decide
  · decide

theorem trim_address {live : Interface} {owners : List String} {public_key ip : String}
    (h : FriendShape live owners public_key ip) : trim ip = ip :=
  (validate_name_self ⟨ip, validate_name_address h⟩).mp (validate_name_address h)

theorem trim_read_friend_name {input name : String} (h : read_friend_name input = .ok name) :
    trim name = name := by
  have hself : validate_name name = .ok name := by
    simp only [read_friend_name, bind_eq_ok] at h
    obtain ⟨_, -, _, -, h⟩ := h
    exact validate_name_twice h
  exact (validate_name_self ⟨name, hself⟩).mp hself

/-! ## States -/

/-- No name in the metadata has surrounding space. -/
def Trimmed (store : FriendStore) : Prop := ∀ record ∈ store.records, trim record.name = record.name

/-- Every key is one that WireGuard could have. -/
def Keys (live : Interface) : Prop := ∀ key ∈ live.keys, validate_peer_key key = .ok ()

structure Clean (s : Vps) : Prop where
  names : ∀ store, read_store s.metadata = .ok store → Trimmed store
  live : Keys s.live
  saved : Keys s.saved

theorem Keys.take {live : Interface} (h : Keys live) (n : ℕ) : Keys (live.take n) :=
  fun key hk => h key (WireGuard.Interface.keys_take hk)

theorem Keys.remove {live : Interface} (h : Keys live) (public_key : String) :
    Keys (live.remove public_key) :=
  fun key hk => h key (WireGuard.Interface.keys_remove hk)

theorem Keys.set {live : Interface} (h : Keys live) {public_key : String}
    (hkey : validate_peer_key public_key = .ok ()) (routes : List String) :
    Keys (live.set public_key routes) := by
  intro key hk
  rcases WireGuard.Interface.keys_set hk with rfl | hk
  · exact hkey
  · exact h key hk

/-- The key that a change sets is one that WireGuard could have. -/
def Change.Checked : Change → Prop
  | .set public_key _ => validate_peer_key public_key = .ok ()
  | .remove _ => True

theorem Keys.apply {live : Interface} (h : Keys live) {change : Change} (hc : change.Checked) :
    Keys (change.apply live) := by
  cases change with
  | set public_key routes => exact h.set hc routes
  | remove public_key => exact h.remove public_key

/-! ## Steps -/

section

variable {s : Vps} {interface : String} {faults : Faults} {α : Type}

theorem clean_publish (h : Clean s) {store : FriendStore} (ht : Trimmed store)
    (hs : store.schema = 2) {data : String} (hd : encode_store store = .ok data) :
    Clean (publish data s) where
  names := by
    intro store' hread
    have hparse := (read_store_eq_ok.mp hread).2.1
    rw [(parse_store_encode hs hd).2] at hparse
    exact Except.ok.inj hparse ▸ ht
  live := h.live
  saved := h.saved

theorem clean_write (h : Clean s) {outcome : Outcome} {store : FriendStore} (ht : Trimmed store)
    (hs : store.schema = 2) : Reaches (write_store interface outcome store) Clean s :=
  write_store_ends h fun _ hd => ⟨clean_publish h ht hs hd, clean_publish h ht hs hd⟩

theorem clean_save (h : Clean s) {outcome : Outcome} : Reaches (save outcome) Clean s :=
  have hsaved : Clean (store_live s) := ⟨h.names, h.live, h.live⟩
  ends_whole hsaved h hsaved

theorem clean_wg_set {changes : List Change} (hc : ∀ change ∈ changes, change.Checked)
    {outcomes : ℕ → Outcome} (h : Clean s) : Reaches (wg_set changes outcomes) Clean s := by
  induction changes generalizing s outcomes with
  | nil => exact h
  | cons change changes ih =>
    have hone : Clean (change.perform s) :=
      ⟨h.names, h.live.apply (hc change List.mem_cons_self), h.saved⟩
    refine ends_bind.mpr (ends_whole ?_ h hone)
    exact ih (fun c hm => hc c (List.mem_cons_of_mem _ hm)) hone

theorem clean_setconf (h : Clean s) {outcome : Outcome} {previous : Interface}
    (hp : Keys previous) : Reaches (setconf outcome previous) Clean s :=
  ends_command_of ⟨h.names, hp, h.saved⟩
    (loading_of h fun n => ⟨h.names, hp.take n, h.saved⟩)

theorem clean_recover {block : Managed α} {handler : String → Managed α}
    (hb : Reaches block Clean s) (hh : ∀ e s', Clean s' → Reaches (handler e) Clean s') :
    Reaches (recover block handler) Clean s := by
  refine ends_recover.mpr (Ends.mono hb (fun _ _ h => h) fun stop s' h => ?_)
  cases stop with
  | killed => exact h
  | error e => exact hh e s' h

theorem clean_roll_back (h : Clean s) {what error : String} {previous : Interface}
    (hp : Keys previous) {finish : Managed Unit} (hf : ∀ s', Clean s' → Reaches finish Clean s') :
    Reaches (roll_back faults what previous error finish) Clean s := by
  refine clean_recover ?_ fun _ _ h => h
  exact (clean_setconf h hp).bind fun _ _ h => (clean_save h).bind fun _ s' h => hf s' h

theorem clean_changed (h : Clean s) {changes : List Change}
    (hc : ∀ change ∈ changes, change.Checked) {undo : Interface → String → Managed Unit}
    (hu : ∀ error s', Clean s' → Reaches (undo s.live error) Clean s') :
    Reaches (changed faults changes undo) Clean s := by
  refine ends_get_bind.mpr (clean_recover ?_ fun error s' h' => ?_)
  · exact (clean_wg_set hc h).bind fun _ _ h => clean_save h
  · exact (hu error s' h').bind fun _ _ h => h

theorem clean_peers (h : Clean s) {changes : List Change}
    (hc : ∀ change ∈ changes, change.Checked) {what : String} :
    Reaches (changed faults changes fun previous error =>
      roll_back faults what previous error (pure ())) Clean s :=
  clean_changed h hc fun _ _ h' => clean_roll_back h' h.live fun _ h'' => h''

/-- The metadata that an operation has loaded. -/
structure Ready (store : FriendStore) (s : Vps) : Prop where
  clean : Clean s
  trimmed : Trimmed store
  schema : store.schema = 2

theorem load_clean (h : Clean s) :
    Ends (load_store interface faults) Ready (fun _ => Clean) s := by
  refine ends_lift_bind h fun _ _ => ends_query_bind h (ends_get_bind.mpr ?_)
  refine ends_lift_bind h fun store hread => ?_
  by_cases h1 : store.schema = 1
  · rw [if_pos h1]
    refine ends_lift_bind h fun next hnext => ?_
    have hm := migrate_eq_ok hnext
    have ht : Trimmed next := fun record hr => h.names store hread record (hm.records ▸ hr)
    exact Ends.bind (clean_write h ht hm.schema) fun _ _ h => ⟨h, ht, hm.schema⟩
  · rw [if_neg h1]
    exact ⟨h, h.names store hread, (read_store_schema hread).resolve_left fun h => h1 h.1⟩

theorem clean_load {f : FriendStore → Managed α} (h : Clean s)
    (hf : ∀ store s', Ready store s' → Reaches (f store) Clean s') :
    Reaches (load_store interface faults >>= f) Clean s :=
  (load_clean h).bind hf

end

/-! ## The commands -/

section

variable [Platform] {s : Vps} {interface : String} {faults : Faults}

theorem clean_create (h : Clean s) {endpoint name private_key : String} (hn : trim name = name) :
    Reaches (create interface faults endpoint name private_key) Clean s := by
  refine clean_load h fun store s' hs => ends_query_bind hs.clean (ends_get_bind.mpr ?_)
  refine ends_unless hs.clean fun _ => ends_lift_bind hs.clean fun _ hkey => ?_
  refine ends_lift_bind hs.clean fun network _ => ?_
  have ht : Trimmed { store with
      records := store.records ++ [⟨pubkey private_key, name, some private_key⟩] } := by
    intro record hr
    rcases List.mem_append.mp hr with hr | hr
    · exact hs.trimmed record hr
    · rw [List.mem_singleton.mp hr]
      exact hn
  refine Reaches.bind (clean_write hs.clean ht hs.schema) fun _ s'' h'' => ?_
  refine Reaches.bind (clean_changed h'' (by simpa [Change.Checked] using hkey) ?_) fun _ _ h => h
  exact fun _ _ h' => clean_roll_back h' h''.live fun _ h => clean_write h hs.trimmed hs.schema

theorem clean_rename (h : Clean s) {public_key name : String} (hn : trim name = name) :
    Reaches (rename interface faults public_key name) Clean s := by
  refine clean_load h fun store s' hs => ends_query_bind hs.clean (ends_get_bind.mpr ?_)
  refine ends_lift_bind hs.clean fun _ _ => ends_unless hs.clean fun _ => ?_
  refine ends_unless hs.clean fun _ => clean_write hs.clean (fun record hr => ?_) hs.schema
  change record ∈ (if has_record store public_key then _ else _) at hr
  split_ifs at hr
  · rcases mem_set_name hr with hr | ⟨old, -, rfl⟩
    · exact hs.trimmed record hr
    · exact hn
  · rcases List.mem_append.mp hr with hr | hr
    · exact hs.trimmed record hr
    · rw [List.mem_singleton.mp hr]
      exact hn

omit [Platform] in
theorem clean_revoke (h : Clean s) {public_key : String} :
    Reaches (revoke interface faults public_key) Clean s := by
  refine clean_load h fun store s' hs => ends_query_bind hs.clean (ends_get_bind.mpr ?_)
  refine ends_lift_bind hs.clean fun current hshape => ?_
  cases current with
  | none =>
    by_cases hr : has_record store public_key = true
    · simp only [if_pos hr]
      exact clean_save hs.clean
    · simp only [if_neg hr]
      exact hs.clean
  | some ip =>
    have ht : Trimmed { store with records := recorded store public_key ip } := by
      intro record hr
      change record ∈ (if has_record store public_key then _ else _) at hr
      split_ifs at hr
      · exact hs.trimmed record hr
      · rcases List.mem_append.mp hr with hr | hr
        · exact hs.trimmed record hr
        · rw [List.mem_singleton.mp hr]
          exact trim_address (peer_shape_ok hshape).2.2
    refine Reaches.bind (clean_write hs.clean ht hs.schema) fun _ s'' h'' => ?_
    refine clean_changed h'' (by simp [Change.Checked]) fun _ _ h' => ?_
    exact clean_roll_back h' h''.live fun _ h => clean_write h hs.trimmed hs.schema

omit [Platform] in
theorem clean_add_router_peer (h : Clean s) {public_key tunnel_ip : String} :
    Reaches (add_router_peer interface faults public_key tunnel_ip) Clean s := by
  refine ends_lift_bind h fun _ hkey => ends_lift_bind h fun network _ => ends_get_bind.mpr ?_
  refine ends_lift_bind h fun routes _ => ends_lift_bind h fun _ _ => ?_
  refine clean_load h fun store s' hs => ends_query_bind hs.clean (ends_unless hs.clean fun _ => ?_)
  refine Reaches.bind (clean_write hs.clean (fun record hr => hs.trimmed record hr) hs.schema) ?_
  intro _ s'' h''
  refine clean_changed h'' (by simpa [Change.Checked] using hkey) fun _ _ h' => ?_
  refine Reaches.bind (clean_roll_back h' h''.live fun _ h => h) fun _ s₃ h₃ => ?_
  by_cases ho : public_key ∈ store.owners
  · simp only [if_pos ho]
    exact h₃
  · simp only [if_neg ho]
    exact clean_write h₃ hs.trimmed hs.schema

theorem clean_create_router_profile (h : Clean s) {endpoint private_key : String} :
    Reaches (create_router_profile interface faults endpoint private_key) Clean s := by
  have hload : Reaches (discard (load_store interface faults.first) : Managed Unit) Clean s :=
    clean_load h fun _ _ hs => hs.clean
  refine hload.bind fun _ s' h' => ends_query_bind h' (ends_get_bind.mpr ?_)
  refine ends_lift_bind h' fun _ _ => ends_lift_bind h' fun network _ => ?_
  exact (clean_add_router_peer h').bind fun _ _ h => h

omit [Platform] in
theorem warp_changes_checked {live : Interface} (hl : Keys live) {store : FriendStore}
    {changes : List Change} (h : warp_changes live store = .ok changes) :
    ∀ change ∈ changes, change.Checked := by
  intro change hm
  simp only [warp_changes, bind_eq_ok, bail_if_eq_ok] at h
  obtain ⟨cs, hmap, _, -, h⟩ := h
  cases h
  obtain ⟨p, hp, hc⟩ := exists_of_mem_mapM hmap hm
  simp only [bind_eq_ok] at hc
  obtain ⟨routes, -, hc⟩ := hc
  cases hc
  exact hl p.1 (WireGuard.Interface.mem_keys.mpr ⟨p.2, (List.mem_filter.mp hp).1⟩)

omit [Platform] in
theorem warp_routes_clean (h : Clean s) : Ends (warp_routes interface faults)
    (fun changes s' => Clean s' ∧ ∀ change ∈ changes, change.Checked) (fun _ => Clean) s := by
  refine (load_clean h).bind fun store s' hs => ?_
  refine ends_query_bind hs.clean (ends_get_bind.mpr (ends_lift.mpr ⟨fun changes hc => ?_, ?_⟩))
  · exact ⟨hs.clean, warp_changes_checked hs.clean.live hc⟩
  · exact fun _ _ => hs.clean

omit [Platform] in
theorem clean_authorize_warp (h : Clean s) : Reaches (authorize_warp interface faults) Clean s := by
  refine ends_get_bind.mpr (ends_lift_bind h fun _ _ => ends_unless h fun _ => ?_)
  refine (warp_routes_clean h).bind fun changes s' hs => ?_
  exact clean_peers hs.1 hs.2

omit [Platform] in
theorem clean_remove_router_peer (h : Clean s) {public_key : String} :
    Reaches (remove_router_peer interface faults public_key) Clean s := by
  refine clean_load h fun store s' hs => ends_query_bind hs.clean ?_
  refine ends_lift_bind hs.clean fun _ _ => ends_unless hs.clean fun _ => ?_
  exact clean_peers hs.clean (by simp [Change.Checked])

omit [Platform] in
theorem clean_add_legacy (h : Clean s) {owner : Bool} {public_key tunnel_ip : String} :
    Reaches (add_legacy interface faults owner public_key tunnel_ip) Clean s := by
  cases owner with
  | true => exact clean_add_router_peer h
  | false =>
    refine ends_lift_bind h fun _ hkey => ends_lift_bind h fun network _ => ?_
    refine ends_query_bind h (ends_get_bind.mpr (ends_lift_bind h fun _ _ => ?_))
    exact clean_peers h (by simpa [Change.Checked] using hkey)

theorem clean_create_profile (h : Clean s) {endpoint private_key : String}
    {tunnel_ip subnet : Option String} :
    Reaches (create_profile interface faults endpoint tunnel_ip subnet private_key) Clean s := by
  refine ends_lift_bind h fun _ _ => ends_lift_bind h fun owner _ => ?_
  refine ends_query_bind h (ends_get_bind.mpr ?_)
  cases tunnel_ip with
  | some tunnel_ip =>
    exact ends_bind.mpr (ends_pure.mpr (Reaches.bind (clean_add_legacy h) fun _ _ h => h))
  | none =>
    refine ends_lift_bind h fun network _ => ends_bind.mpr (ends_pure.mpr ?_)
    exact Reaches.bind (clean_add_legacy h) fun _ _ h => h

omit [Platform] in
theorem clean_remove_legacy (h : Clean s) {owner : Bool} {public_key : String} :
    Reaches (remove_legacy interface faults owner public_key) Clean s := by
  cases owner with
  | true => exact clean_remove_router_peer h
  | false => exact (clean_wg_set (by simp [Change.Checked]) h).bind fun _ _ h => clean_save h

omit [Platform] in
theorem clean_warp_command (h : Clean s) : Reaches (warp_command faults) Clean s :=
  have hnext : Clean { s with warp := faults.network } := ⟨h.names, h.live, h.saved⟩
  ends_whole hnext h hnext

omit [Platform] in
theorem clean_enable_warp (h : Clean s) {accept_terms : Bool} :
    Reaches (enable_warp interface faults accept_terms) Clean s := by
  refine ends_unless h fun _ => ends_bind.mpr (ends_bind.mpr ?_)
  refine (warp_routes_clean h).mono (fun changes s' hs => ?_) fun _ _ h => h
  exact (clean_warp_command hs.1).bind fun _ _ h => clean_authorize_warp h

omit [Platform] in
theorem clean_restart (h : Clean s) : Reaches (restart interface faults) Clean s := by
  refine ends_lift_bind h fun _ _ => (clean_save h).bind fun _ s' h' => ?_
  have hstart : Reaches (command faults.service "systemctl restart failed" restarting reload)
      Clean s' :=
    ends_command_of ⟨h'.names, h'.saved, h'.saved⟩
      (loading_of h' fun n => ⟨h'.names, h'.saved.take n, h'.saved⟩)
  exact hstart.bind fun _ s'' h'' => ends_query_of h'' fun _ => h''

omit [Platform] in
theorem clean_status (h : Clean s) : Reaches (status interface faults) Clean s := by
  refine clean_load h fun store s' hs => ends_query_bind hs.clean (ends_get_bind.mpr ?_)
  have hwarp : Reaches (warp_status interface faults) Clean s' := by
    refine ends_get_bind.mpr (ends_lift_bind hs.clean fun prepared _ => ?_)
    cases prepared with
    | false => exact hs.clean
    | true =>
      refine ends_query_bind hs.clean (ends_lift_bind hs.clean fun status _ => ?_)
      exact ends_unless hs.clean fun _ => hs.clean
  exact hwarp.bind fun _ _ h => h

theorem clean_profile (h : Clean s) {public_key endpoint : String} :
    Reaches (profile interface faults public_key endpoint) Clean s := by
  refine clean_load h fun store s' hs => ends_query_bind hs.clean (ends_get_bind.mpr ?_)
  refine ends_lift_bind hs.clean fun current _ => ?_
  cases current with
  | none => exact hs.clean
  | some ip =>
    simp only
    cases store.records.find? fun record => record.public_key = public_key with
    | none => exact hs.clean
    | some record =>
      simp only
      cases record.private_key with
      | none => exact hs.clean
      | some private_key => exact ends_unless hs.clean fun _ => hs.clean

/-- **Every event keeps a server clean.** -/
theorem Clean.step (h : Clean s) (event : Event) : Clean (event.step interface s) := by
  cases event with
  | start => exact ⟨h.names, h.saved, h.saved⟩
  | stop => exact ⟨h.names, h.live, h.live⟩
  | run command faults =>
    have hreach : Reaches (dispatch interface faults command) Clean s := by
      cases command with
      | add_peer public_key tunnel_ip subnet =>
        refine ends_query_bind h (ends_lift_bind h fun owner _ => ?_)
        exact (clean_add_legacy h).bind fun _ _ h => h
      | create_profile endpoint tunnel_ip subnet private_key =>
        exact ends_query_bind h (clean_create_profile h)
      | remove_peer public_key subnet =>
        refine ends_query_bind h (ends_lift_bind h fun owner _ => ?_)
        exact (clean_remove_legacy h).bind fun _ _ h => h
      | create_router_profile endpoint private_key =>
        exact ends_lift_bind h fun _ _ => ends_query_bind h (clean_create_router_profile h)
      | remove_router_peer public_key =>
        exact ends_query_bind h ((clean_remove_router_peer h).bind fun _ _ h => h)
      | capabilities => exact h
      | managed_status => exact ends_query_bind h ((clean_status h).bind fun _ _ h => h)
      | create_friend endpoint input private_key =>
        refine ends_lift_bind h fun _ _ => ends_lift_bind h fun name hname => ?_
        exact ends_query_bind h (clean_create h (trim_read_friend_name hname))
      | rename_friend public_key input =>
        refine ends_lift_bind h fun name hname => ends_query_bind h ?_
        exact (clean_rename h (trim_read_friend_name hname)).bind fun _ _ h => h
      | revoke_friend public_key =>
        exact ends_query_bind h ((clean_revoke h).bind fun _ _ h => h)
      | friend_profile public_key endpoint =>
        exact ends_lift_bind h fun _ _ => ends_query_bind h (clean_profile h)
      | restart_vpn => exact ends_query_bind h ((clean_restart h).bind fun _ _ h => h)
      | enable_warp accept_terms =>
        exact ends_query_bind h ((clean_enable_warp h).bind fun _ _ h => h)
      | disable_warp => exact ends_query_bind h ((clean_warp_command h).bind fun _ _ h => h)
    exact Ends.state hreach

theorem Clean.run (h : Clean s) (events : List Event) :
    Clean (Fallible.run (Event.step interface) s events) := by
  have hall : Along (Event.step interface) (fun _ _ => True) s events :=
    along_of_forall fun _ _ => trivial
  exact hall.invariant (fun _ e _ h => h.step e) h

end

end Gofro.Server
