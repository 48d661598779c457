import GofroRouter.Agent.Controller.Outcome

/-!
# The list of servers

What the writers keep of the list: keys that differ, an active server that is in it, and of a
managed server its endpoint, key and management.

* `ServerList`: a well-formed list. `Managed`: a managed server, with these data.
* `Relisted`: what an edit can make of the list; `Relisted.list`, `Relisted.managed`.
* **`run_listed`**: in every run, whatever fails.
-/

namespace Gofro.Agent

open Geodata (RegexEngine)
open Fallible

/-- A well-formed list of servers. -/
structure ServerList (config : ControllerConfig) : Prop where
  keys : (config.servers.map ServerProfile.public_key).Nodup
  active : ∀ key, config.active_server_key = some key →
    ∃ server ∈ config.servers, server.public_key = key
  vpn : config.vpn_enabled = true → ∃ server, active_server config = .ok server

/-- A managed server of the list. -/
def Managed (config : ControllerConfig) (public_key endpoint : String)
    (management : ManagedServer) : Prop :=
  ∃ server ∈ config.servers, server.public_key = public_key ∧ server.endpoint = endpoint ∧
    server.management = some management

/-- The operation that may delete a server. -/
def Operation.deletes : Operation → String → Prop
  | .delete_server public_key _, key => public_key = key
  | _, _ => False

/-- Of a managed server, the other one has the same key, endpoint and management. -/
def ServerProfile.SameManaged (previous server : ServerProfile) : Prop :=
  previous.management.isSome = true → server.public_key = previous.public_key ∧
    server.endpoint = previous.endpoint ∧ server.management = previous.management

/-- What an edit can make of the list and its active key; `deleted` is the key it deletes. -/
inductive Relisted (config next : ControllerConfig) (deleted : String → Prop) : Prop
  | kept (hs : next.servers = config.servers) (ha : next.active_server_key = config.active_server_key)
  | selected {server : ServerProfile} (hs : next.servers = config.servers)
    (hm : server ∈ config.servers) (ha : next.active_server_key = some server.public_key)
  | inserted (server : ServerProfile) (hs : next.servers = config.servers ++ [server])
    (hnew : ∀ item ∈ config.servers, item.public_key ≠ server.public_key)
    (ha : next.active_server_key = config.active_server_key ∨
      next.active_server_key = some server.public_key)
  | replaced {index : ℕ} {previous server : ServerProfile}
    (hi : config.servers[index]? = some previous)
    (hs : next.servers = config.servers.set index server)
    (hm : previous.SameManaged server)
    (hnew : ∀ j item, config.servers[j]? = some item → j ≠ index →
      item.public_key ≠ server.public_key)
    (ha : next.active_server_key = if config.active_server_key = some previous.public_key then
      some server.public_key else config.active_server_key)
  | deleted (public_key : String)
    (hs : next.servers = config.servers.filter fun server => server.public_key ≠ public_key)
    (hd : deleted public_key)
    (ha : next.active_server_key = if config.active_server_key = some public_key then
      next.servers.head?.map ServerProfile.public_key else config.active_server_key)

section

variable {config next : ControllerConfig} {change : Change} {deleted : String → Prop}

theorem ServerList.index_eq (h : ServerList config) {i j : ℕ} {a b : ServerProfile}
    (hi : config.servers[i]? = some a) (hj : config.servers[j]? = some b)
    (hk : a.public_key = b.public_key) : i = j := by
  obtain ⟨hilt, rfl⟩ := List.getElem?_eq_some_iff.mp hi
  obtain ⟨hjlt, rfl⟩ := List.getElem?_eq_some_iff.mp hj
  have hilt' : i < (config.servers.map ServerProfile.public_key).length := by simpa using hilt
  have hjlt' : j < (config.servers.map ServerProfile.public_key).length := by simpa using hjlt
  have he : (config.servers.map ServerProfile.public_key)[i] =
      (config.servers.map ServerProfile.public_key)[j] := by
    simpa using hk
  exact h.keys.getElem_inj_iff.mp he

/-- **The list stays well formed**, if the tunnel keeps its server. -/
theorem Relisted.list (h : Relisted config next deleted) (hl : ServerList config)
    (hserver : HasServer next) : ServerList next := by
  refine ⟨?_, ?_, hserver⟩
  · cases h with
    | kept hs | selected hs => rw [hs]; exact hl.keys
    | inserted server hs hnew =>
      rw [hs, List.map_append]
      refine List.nodup_append.mpr ⟨hl.keys, List.nodup_singleton _, fun key hk key' hk' => ?_⟩
      obtain ⟨item, hm, rfl⟩ := List.mem_map.mp hk
      rw [List.mem_singleton.mp hk']
      exact hnew item hm
    | @replaced index previous server hi hs hm hnew =>
      rw [hs, List.map_set]
      by_cases hk : server.public_key ∈ config.servers.map ServerProfile.public_key
      · obtain ⟨item, hitem, he⟩ := List.mem_map.mp hk
        obtain ⟨j, hj⟩ := List.mem_iff_getElem?.mp hitem
        obtain rfl : j = index := by
          by_contra hne
          exact hnew j item hj hne he
        obtain ⟨hlt, rfl⟩ := List.getElem?_eq_some_iff.mp hj
        rw [← he, ← List.getElem_map ServerProfile.public_key, List.set_getElem_self]
        · exact hl.keys
        · simpa using hlt
      · exact hl.keys.set hk
    | deleted public_key hs => rw [hs]; exact hl.keys.sublist (List.filter_sublist.map _)
  · intro key hkey
    cases h with
    | kept hs ha => rw [hs]; exact hl.active key (ha ▸ hkey)
    | @selected server hs hm ha =>
      rw [ha] at hkey
      rw [hs]
      exact ⟨server, hm, Option.some.inj hkey⟩
    | inserted server hs hnew ha =>
      rw [hs]
      rcases ha with ha | ha
      · obtain ⟨item, hm, he⟩ := hl.active key (ha ▸ hkey)
        exact ⟨item, List.mem_append_left _ hm, he⟩
      · rw [ha] at hkey
        exact ⟨server, List.mem_append_right _ List.mem_cons_self, Option.some.inj hkey⟩
    | @replaced index previous server hi hs hm hnew ha =>
      rw [hs]
      rw [ha] at hkey
      split_ifs at hkey with hactive
      · exact ⟨server, List.mem_set (List.getElem?_eq_some_iff.mp hi).1 _, Option.some.inj hkey⟩
      · refine mem_set hi (fun he => absurd ?_ hactive)
          (hl.active key hkey)
        rw [hkey, he]
    | deleted public_key hs hd ha =>
      rw [ha] at hkey
      split_ifs at hkey with hactive
      · obtain ⟨server, hhead, he⟩ := Option.map_eq_some_iff.mp hkey
        exact ⟨server, List.mem_of_mem_head? hhead, he⟩
      · obtain ⟨item, hm, he⟩ := hl.active key hkey
        refine ⟨item, hs ▸ List.mem_filter.mpr ⟨hm, decide_eq_true fun h => hactive ?_⟩, he⟩
        rw [hkey, ← he, h]

/-- **A managed server stays what it is**, unless it is deleted. -/
theorem Relisted.managed (h : Relisted config next deleted) {public_key endpoint : String}
    {management : ManagedServer} (hm : Managed config public_key endpoint management)
    (hd : ¬ deleted public_key) : Managed next public_key endpoint management := by
  obtain ⟨item, hitem, hk, he, hman⟩ := hm
  cases h with
  | kept hs | selected hs => exact ⟨item, hs ▸ hitem, hk, he, hman⟩
  | inserted server hs => exact ⟨item, hs ▸ List.mem_append_left _ hitem, hk, he, hman⟩
  | @replaced index previous server hi hs hsame =>
    show ∃ server ∈ next.servers, _
    rw [hs]
    refine mem_set hi (fun h => ?_) ⟨item, hitem, hk, he, hman⟩
    obtain ⟨hk', he', hman'⟩ := hsame (by rw [h.2.2]; rfl)
    exact ⟨hk'.trans h.1, he'.trans h.2.1, hman'.trans h.2.2⟩
  | deleted key hs hkey =>
    refine ⟨item, hs ▸ List.mem_filter.mpr ⟨hitem, decide_eq_true fun h => hd ?_⟩, hk, he, hman⟩
    rw [← hk, h]
    exact hkey

/-! ## The writers -/

theorem set_mode_relisted {vpn_enabled : Bool}
    (h : set_mode vpn_enabled config = .ok (next, change)) : Relisted config next deleted := by
  unfold set_mode at h
  cases vpn_enabled with
  | false =>
    cases ok_inj h
    exact .kept rfl rfl
  | true =>
    simp only [if_true, bind_eq_ok] at h
    obtain ⟨-, -, h⟩ := h
    cases ok_inj h
    exact .kept rfl rfl

theorem insert_server_relisted {server : ServerProfile}
    (h : insert_server server config = .ok (next, change)) : Relisted config next deleted := by
  simp only [insert_server, bind_eq_ok, bail_if_eq_ok, List.any_eq_false, decide_eq_true_eq] at h
  obtain ⟨-, hnew, h⟩ := h
  cases ok_inj h
  refine .inserted server rfl hnew ?_
  dsimp only
  split_ifs
  · exact .inr rfl
  · exact .inl rfl

theorem upsert_server_relisted {server : ServerProfile} (hl : ServerList config)
    (h : upsert_server server config = .ok (next, change)) : Relisted config next deleted := by
  unfold upsert_server at h
  cases hr : replace_imported_server config server with
  | none =>
    rw [hr] at h
    exact insert_server_relisted h
  | some entry =>
    rw [hr] at h
    simp only [replace_imported_server, Option.bind_eq_bind, Option.bind_eq_some_iff] at hr
    obtain ⟨index, hfind, previous, hi, hr⟩ := hr
    obtain ⟨_, hp, hkey⟩ := findIdx?_getElem? hfind
    cases Option.some.inj (hi.symm.trans hp)
    have hkey : previous.public_key = server.public_key := of_decide_eq_true hkey
    cases Option.some.inj hr
    cases Except.ok.inj h
    refine .replaced hi rfl ?_ ?_ ?_
    · intro hm
      simp only [hm, if_true]
      exact ⟨hkey.symm, trivial, trivial⟩
    · intro j item hj hne hk
      refine hne (hl.index_eq hj hi (hk.trans ?_))
      split_ifs <;> exact hkey.symm
    · dsimp only
      split_ifs with hactive <;> simp [hactive, hkey]

theorem update_server_relisted [Management] {update : ServerUpdate}
    (h : update_server update config = .ok (next, change)) : Relisted config next deleted := by
  unfold update_server at h
  split at h
  · rename_i index hfind
    obtain ⟨previous, hp, hkey⟩ := findIdx?_getElem? hfind
    have hkey : previous.public_key = update.previous_public_key := of_decide_eq_true hkey
    rw [hp] at h
    simp only [bind_eq_ok, bail_if_eq_ok] at h
    obtain ⟨-, hmanaged, -, -, -, hnew, h⟩ := h
    cases ok_inj h
    refine .replaced hp rfl ?_ (fun j item hj hne => key_taken_eq_false hnew hj hne) ?_
    · intro hm
      rw [hm, Bool.true_and, Bool.or_eq_false_iff, bne_eq_false_iff_eq, bne_eq_false_iff_eq]
        at hmanaged
      exact ⟨hmanaged.2.symm, hmanaged.1.symm, rfl⟩
    · simp [hkey]
  · cases h

theorem select_server_relisted {public_key : String}
    (h : select_server public_key config = .ok (next, change)) : Relisted config next deleted := by
  unfold select_server at h
  split at h
  · cases h
  · rename_i server hfind
    split_ifs at h
    · cases h
      exact .kept rfl rfl
    · cases h
      exact .selected rfl (List.mem_of_find?_eq_some hfind) rfl
    · cases h
      exact .selected rfl (List.mem_of_find?_eq_some hfind) rfl

theorem delete_server_relisted {pins : Bool} {public_key : String} (hd : deleted public_key)
    (h : delete_server pins public_key config = .ok (next, change)) :
    Relisted config next deleted := by
  simp only [delete_server, bind_eq_ok, bail_if_eq_ok] at h
  obtain ⟨-, -, -, -, h⟩ := h
  by_cases hk : config.active_server_key = some public_key
  · rw [if_pos hk] at h
    simp only [bind_eq_ok] at h
    obtain ⟨-, -, h⟩ := h
    cases ok_inj h
    exact .deleted public_key rfl hd (by simp [hk])
  · rw [if_neg hk] at h
    cases ok_inj h
    exact .deleted public_key rfl hd (by simp [hk])

/-- **Every writer's edit.** -/
theorem Operation.relisted [Management] [Idna] {op : Operation} {edit : Edit}
    (hop : op.edit = .ok edit) (hl : ServerList config)
    (h : edit config = .ok (next, change)) : Relisted config next op.deletes := by
  cases op with
  | update_device_exclusion mac excluded =>
    cases Except.ok.inj hop
    simp only [Agent.update_device_exclusion, bind_eq_ok] at h
    obtain ⟨_, -, h⟩ := h
    cases ok_inj h
    exact .kept rfl rfl
  | set_mode vpn_enabled => cases Except.ok.inj hop; exact set_mode_relisted h
  | update_routing routing =>
    simp only [Operation.edit, bind_eq_ok] at hop
    obtain ⟨routing, -, hop⟩ := hop
    cases ok_inj hop
    cases Except.ok.inj h
    exact .kept rfl rfl
  | import_server profile =>
    simp only [Operation.edit, bind_eq_ok] at hop
    obtain ⟨server, -, -, -, hop⟩ := hop
    cases ok_inj hop
    exact upsert_server_relisted hl h
  | add_server server =>
    simp only [Operation.edit, bind_eq_ok] at hop
    obtain ⟨-, -, hop⟩ := hop
    cases ok_inj hop
    exact insert_server_relisted h
  | update_server update =>
    simp only [Operation.edit, bind_eq_ok] at hop
    obtain ⟨name, -, hop⟩ := hop
    cases ok_inj hop
    exact update_server_relisted h
  | select_server public_key => cases Except.ok.inj hop; exact select_server_relisted h
  | delete_server public_key pins =>
    cases Except.ok.inj hop
    exact delete_server_relisted rfl h

end

/-! ## Runs -/

theorem ServerList.congr {config next : ControllerConfig} (h : ServerList config)
    (hs : next.servers = config.servers) (ha : next.active_server_key = config.active_server_key)
    (hv : next.vpn_enabled = config.vpn_enabled) : ServerList next := by
  refine ⟨hs ▸ h.keys, fun key hk => hs ▸ h.active key (ha ▸ hk), fun hvpn => ?_⟩
  obtain ⟨server, he⟩ := h.vpn (hv ▸ hvpn)
  refine ⟨server, ?_⟩
  rw [← he, active_server, active_server, ha, hs]

/-- The event that may delete a server. -/
def Event.deletes : Event → String → Prop
  | .update op _, key => op.deletes key
  | _, _ => False

section

variable [Management] [Idna]

/-- What an event can make of a configuration, as far as the list goes. -/
inductive Stepped (event : Event) (config : ControllerConfig) : ControllerConfig → Prop
  | same {next : ControllerConfig} (hs : next.servers = config.servers)
    (ha : next.active_server_key = config.active_server_key)
    (hv : next.vpn_enabled = config.vpn_enabled) : Stepped event config next
  | edited {op : Operation} {faults : UpdateFaults} (he : event = .update op faults) {edit : Edit}
    {next : ControllerConfig} {change : Change} (hop : op.edit = .ok edit)
    (hn : edit.normalized config = .ok (next, change)) : Stepped event config next

theorem Stepped.list {event : Event} {config next : ControllerConfig}
    (h : Stepped event config next) (hl : ServerList config) : ServerList next := by
  cases h with
  | same hs ha hv => exact hl.congr hs ha hv
  | edited he hop hn =>
    have hserver := Operation.hasServer hop hn hl.vpn
    obtain ⟨edited, device_exclusions, hedit, rfl, -⟩ := Edit.normalized_eq_ok hn
    exact ((Operation.relisted hop hl hedit).list hl hserver).congr rfl rfl rfl

theorem Stepped.managed {event : Event} {config next : ControllerConfig}
    (h : Stepped event config next) (hl : ServerList config) {public_key endpoint : String}
    {management : ManagedServer} (hm : Managed config public_key endpoint management)
    (hd : ¬ event.deletes public_key) : Managed next public_key endpoint management := by
  cases h with
  | same hs => unfold Managed; rw [hs]; exact hm
  | edited he hop hn =>
    obtain ⟨edited, device_exclusions, hedit, rfl, -⟩ := Edit.normalized_eq_ok hn
    subst he
    exact (Operation.relisted hop hl hedit).managed hm hd

/-- What an event can make of memory and disk. -/
def Event.Moves (event : Event) (s s' : AppState) : Prop :=
  Stepped event s.config s'.config ∧ (s'.disk = s.disk ∨ Stepped event s.config s'.disk)

theorem Event.Moves.kept {event : Event} {s s' : AppState} (hc : s'.config = s.config)
    (hd : s'.disk = s.disk) : event.Moves s s' := ⟨hc ▸ .same rfl rfl rfl, .inl hd⟩

variable [RegexEngine] {set : Settings} {s : AppState}

theorem Event.Moves.update {op : Operation} {faults : UpdateFaults} {res : Except Failure Unit}
    {s' : AppState} (h : op.Outcome set s res s') : (Event.update op faults).Moves s s' := by
  rcases h with ⟨_, -, -, rfl⟩ | ⟨-, edit, hop, hu⟩
  · exact .kept rfl rfl
  have hedited : ∀ (next : ControllerConfig) (change : Change) (s' : AppState),
      edit.normalized s.config = .ok (next, change) → s'.config = next → s'.disk = next →
      (Event.update op faults).Moves s s' := by
    rintro next change s' hn rfl hd
    exact ⟨.edited rfl hop hn, .inr (hd ▸ .edited rfl hop hn)⟩
  cases hu with
  | refused he hs => exact .kept hs.kept.config hs.kept.disk
  | saved hn => exact hedited _ _ _ hn rfl rfl
  | unsynced hn => exact hedited _ _ _ hn rfl rfl
  | stuck he hs => exact .kept hs.config hs.disk
  | rolled_back he hs => exact .kept hs.config hs.disk
  | applied hn hconfig => exact hedited _ _ _ hn hconfig.1 hconfig.2.1
  | unrefreshed hn he hconfig => exact hedited _ _ _ hn hconfig.1 hconfig.2

theorem Event.Moves.reconcile {faults : ReconcileFaults} {res : Except Failure Unit}
    {s' : AppState} (h : Reconciled set s res s') : (Event.reconcile faults).Moves s s' := by
  cases h with
  | untouched hs => exact .kept hs.kept.config hs.kept.disk
  | guarded hconfig => exact .kept hconfig.1 hconfig.2
  | done hconfig => exact .kept hconfig.1 hconfig.2.1

/-- **What an event does to memory and disk.** -/
theorem Event.moves (set : Settings) (event : Event) (s : AppState) :
    event.Moves s (event.step set s) := by
  cases event with
  | update op faults =>
    exact ((op.run_spec set s faults).mono (fun _ _ h => Event.Moves.update h) fun _ _ h =>
      Event.Moves.update h).state
  | auto_update lock outcome enabled =>
    refine Ends.state (P := fun s' => (Event.auto_update lock outcome enabled).Moves s s')
      ((set_auto_update_exec lock outcome enabled s).mono ?_ ?_)
    · rintro _ s' ⟨-, -, hc, hd⟩
      unfold Event.Moves
      rw [hc, hd]
      exact ⟨.same rfl rfl rfl, .inr (.same rfl rfl rfl)⟩
    · rintro _ s' ⟨-, ⟨rfl, -⟩ | ⟨-, -, rfl⟩⟩
      · exact .kept rfl rfl
      · exact ⟨.same rfl rfl rfl, .inr (.same rfl rfl rfl)⟩
  | reconcile faults =>
    exact ((reconcile_spec set s faults).mono (fun _ _ h => Event.Moves.reconcile h) fun _ _ h =>
      Event.Moves.reconcile h).state
  | query message domain faults => exact .kept rfl rfl
  | purge faults => exact .kept rfl rfl

/-- **The list stays well formed** in memory and on disk, in every run of the writers and all else
that the agent does, whatever fails; and a managed server that is not deleted keeps its key,
endpoint and management. -/
theorem run_listed (hc : ServerList s.config) (hd : ServerList s.disk) (events : List Event) :
    ServerList (run set s events).config ∧ ServerList (run set s events).disk ∧
      ∀ public_key endpoint management, (∀ event ∈ events, ¬ event.deletes public_key) →
        Managed s.config public_key endpoint management →
          Managed (run set s events).config public_key endpoint management ∧
            (Managed s.disk public_key endpoint management →
              Managed (run set s events).disk public_key endpoint management) := by
  induction events generalizing s with
  | nil => exact ⟨hc, hd, fun _ _ _ _ hm => ⟨hm, id⟩⟩
  | cons event events ih =>
    obtain ⟨hconfig, hdisk⟩ := event.moves set s
    have hd' : ServerList (event.step set s).disk := by
      rcases hdisk with he | h
      · exact he ▸ hd
      · exact h.list hc
    obtain ⟨hc', hd', hmanaged⟩ := ih (hconfig.list hc) hd'
    refine ⟨hc', hd', fun public_key endpoint management hevents hm => ?_⟩
    have hevent := hevents event List.mem_cons_self
    obtain ⟨hrun, hrun'⟩ := hmanaged public_key endpoint management
      (fun e he => hevents e (List.mem_cons_of_mem _ he)) (hconfig.managed hc hm hevent)
    refine ⟨hrun, fun hm' => hrun' ?_⟩
    rcases hdisk with he | h
    · exact he ▸ hm'
    · exact h.managed hc hm hevent

end

/-! ### A managed server -/

/-- The server of the sample, as one that the agent manages. -/
def managedServer : ServerProfile :=
  { sampleServer with management := some ⟨"203.0.113.1", 22, "host"⟩ }

def managedState : AppState :=
  { sampleState with
    config := { sampleConfig with servers := [managedServer] }
    disk := { sampleConfig with servers := [managedServer] } }

/-- A reconcile, and a new import of the server with another endpoint. -/
def importEvents : List Event :=
  [.reconcile sampleReconcile,
    .update (.import_server (.ok { sampleServer with endpoint := "198.51.100.1:51820" }))
      ⟨true, true, ⟨fun _ => true, fun _ => true⟩, true, true, true, ⟨true, true⟩, .durable, true,
        true, ⟨true, true⟩, true, true, true, ⟨true, true, true, true⟩⟩]

/-- `run_listed` for them. -/
theorem run_listed_sample :
    letI := sampleRegex
    letI := sampleIdna
    letI := sampleManagement
    ServerList (run sampleSettings managedState importEvents).config ∧
      Managed (run sampleSettings managedState importEvents).config "key" "203.0.113.1:51820"
        ⟨"203.0.113.1", 22, "host"⟩ := by
  have hlist : ServerList managedState.config :=
    ⟨by decide +kernel, fun key hk => ⟨managedServer, List.mem_singleton.mpr rfl,
      Option.some.inj hk⟩, fun _ => ⟨managedServer, by decide +kernel⟩⟩
  have h := @run_listed sampleManagement sampleIdna sampleRegex sampleSettings managedState hlist
    hlist importEvents
  refine ⟨h.1, (h.2.2 _ _ _ ?_ ⟨managedServer, List.mem_singleton.mpr rfl, rfl, rfl, rfl⟩).1⟩
  rintro event (_ | ⟨_, _ | ⟨_, hevent⟩⟩)
  · exact id
  · exact id
  · nomatch hevent

end Gofro.Agent
