import GofroRouter.Agent.Managed
import GofroRouter.Server.Clean

/-!
# A server's status reaches the agent

`managed-status` on the server prints a status as JSON, the agent reads and checks it.

* `read_managed_status`: what the agent makes of the output. `read_managed_status_print`: it is the
  check of the status that was printed.
* **`status_accepted_iff`**: of every state of the server, when the agent accepts what is printed.
* **`status_accepted`**: in every run of a clean server, whatever is printed is accepted.
-/

namespace Gofro.Agent

open Text Json Fallible
open Server

/-! ## JSON -/

theorem warp_of_value_to_value (warp : WarpStatus) : WarpStatus.of_value warp.to_value = some warp :=
  rfl

theorem peer_of_value_to_value (peer : FriendPeer) : FriendPeer.of_value peer.to_value = some peer :=
  rfl

theorem status_of_value_to_value (status : ManagedServerStatus) :
    ManagedServerStatus.of_value status.to_value = some status := by
  obtain ⟨version, peers, warp⟩ := status
  have hpeers : as_list FriendPeer.of_value (.array (peers.map FriendPeer.to_value)) = some peers :=
    mapM_map fun peer _ => peer_of_value_to_value peer
  cases warp with
  | none =>
    show (do
      let version ← as_string (text_value version)
      let peers ← as_list FriendPeer.of_value (.array (peers.map FriendPeer.to_value))
      some (⟨version, peers, none⟩ : ManagedServerStatus)) = _
    rw [hpeers]
    rfl
  | some warp =>
    show (do
      let version ← as_string (text_value version)
      let peers ← as_list FriendPeer.of_value (.array (peers.map FriendPeer.to_value))
      let warp ← (some (WarpStatus.of_value warp.to_value) : Option (Option WarpStatus))
      some (⟨version, peers, warp⟩ : ManagedServerStatus)) = _
    rw [hpeers, warp_of_value_to_value]
    rfl

theorem depth_status (status : ManagedServerStatus) : status.to_value.depth ≤ MAX_DEPTH := by
  have hpeers : depthItems (status.peers.map FriendPeer.to_value) ≤ 1 := by
    apply depthItems_le
    rintro _ hv
    obtain ⟨peer, -, rfl⟩ := List.mem_map.mp hv
    exact Nat.le_refl 1
  obtain ⟨version, peers, warp⟩ := status
  have hmembers : depthItems (peers.map FriendPeer.to_value) + 1 ≤ 2 := Nat.succ_le_succ hpeers
  cases warp with
  | none =>
    show max 0 (max (depthItems (peers.map FriendPeer.to_value) + 1) 0) + 1 ≤ MAX_DEPTH
    simp only [MAX_DEPTH]
    omega
  | some warp =>
    show max 0 (max (depthItems (peers.map FriendPeer.to_value) + 1)
      (max (warp.to_value.depth) 0)) + 1 ≤ MAX_DEPTH
    have hwarp : warp.to_value.depth = 1 := rfl
    simp only [MAX_DEPTH, hwarp]
    omega

/-- `status_unlocked`, of the output of the server. -/
def read_managed_status (output : String) : Except String ManagedServerStatus := do
  let status ← or_error "invalid managed server status"
    ((from_str output).bind ManagedServerStatus.of_value)
  validate_managed_status status
  return status

theorem read_managed_status_print (status : ManagedServerStatus) :
    read_managed_status (to_string status.to_value ++ "\n") =
      (validate_managed_status status).map fun _ => status := by
  have hjson : from_str (to_string status.to_value ++ "\n") = some status.to_value := by
    have hspace : ∀ c ∈ ['\n'], isSpace c = true := fun c hc => by
      rw [List.mem_singleton.mp hc]
      rfl
    have hrt := from_str_to_string (depth_status status) hspace
    rwa [String.ofList_append] at hrt
  rw [read_managed_status, hjson, Option.bind_some, status_of_value_to_value]
  show (validate_managed_status status).bind (fun _ => .ok status) = _
  cases validate_managed_status status <;> rfl

theorem read_managed_status_eq_ok {status other : ManagedServerStatus} :
    read_managed_status (to_string status.to_value ++ "\n") = .ok other ↔
      validate_managed_status status = .ok () ∧ other = status := by
  rw [read_managed_status_print]
  cases validate_managed_status status with
  | error e => simp [Except.map]
  | ok u => simp [Except.map, eq_comm]

/-! ## What is listed -/

/-- The records that are shown have names without surrounding space, and the friends without a
record have keys of WireGuard. -/
structure Presentable (store : FriendStore) (live : Interface) : Prop where
  names : ∀ record ∈ store.records,
    (recorded_peer (peers live store.owners) record).isSome = true → trim record.name = record.name
  keys : ∀ public_key ip, FriendShape live store.owners public_key ip →
    has_record store public_key = false → validate_peer_key public_key = .ok ()

theorem keys_filterMap_sublist {α β κ : Type} {f : α → Option β} {key : α → κ} {key' : β → κ}
    (h : ∀ a b, f a = some b → key' b = key a) (as : List α) :
    ((as.filterMap f).map key').Sublist (as.map key) := by
  induction as with
  | nil => exact .slnil
  | cons a as ih =>
    rw [List.map_cons]
    cases hf : f a with
    | none =>
      rw [List.filterMap_cons_none hf]
      exact ih.cons _
    | some b =>
      rw [List.filterMap_cons_some hf, List.map_cons, h a b hf]
      exact ih.cons_cons _

theorem listed_nodup {store : FriendStore} (hv : store.Valid) (live : Interface) :
    ((listed store (peers live store.owners)).map FriendPeer.public_key).Nodup := by
  have hperm := (List.mergeSort_perm (store.records.filterMap
    (recorded_peer (peers live store.owners)) ++
      (peers live store.owners).filterMap (unrecorded_peer store)) fun left right =>
        left.name < right.name ||
          (left.name = right.name && left.public_key ≤ right.public_key)).map FriendPeer.public_key
  rw [listed, hperm.nodup_iff, List.map_append, List.nodup_append]
  have hrecorded : ((store.records.filterMap (recorded_peer (peers live store.owners))).map
      FriendPeer.public_key).Sublist (store.records.map FriendRecord.public_key) :=
    keys_filterMap_sublist (fun record peer h => (recorded_peer_key h).1) _
  have hunrecorded : (((peers live store.owners).filterMap (unrecorded_peer store)).map
      FriendPeer.public_key).Sublist ((peers live store.owners).map Prod.fst) := by
    refine keys_filterMap_sublist (fun p peer h => ?_) _
    obtain ⟨ip, -, -, rfl⟩ := unrecorded_peer_eq_some.mp h
    rfl
  have hlive : ((peers live store.owners).map Prod.fst).Nodup := by
    rw [peers, List.map_map]
    exact live.nodup
  refine ⟨(List.nodup_append.mp hv.distinct).1.sublist hrecorded, hlive.sublist hunrecorded, ?_⟩
  rintro a ha b hb rfl
  obtain ⟨peer, hpeer, rfl⟩ := List.mem_map.mp hb
  obtain ⟨p, -, hp⟩ := List.mem_filterMap.mp hpeer
  obtain ⟨ip, -, hno, rfl⟩ := unrecorded_peer_eq_some.mp hp
  exact has_record_eq_false.mp hno (hrecorded.subset ha)

/-- **Every listed friend is one that the agent accepts**, exactly if the records and the live peers
are presentable. -/
theorem listed_valid_iff {store : FriendStore} (hv : store.Valid) (live : Interface) :
    (∀ peer ∈ listed store (peers live store.owners), Valid peer) ↔ Presentable store live := by
  have hmem {peer : FriendPeer} := @mem_listed store (peers live store.owners) peer
  constructor
  · intro h
    refine ⟨fun record hr hsome => ?_, fun public_key ip hshape hno => ?_⟩
    · obtain ⟨peer, hpeer⟩ := Option.isSome_iff_exists.mp hsome
      obtain ⟨-, hname⟩ := recorded_peer_key hpeer
      have hvalid := (h peer (hmem.mpr (.inl ⟨record, hr, hpeer⟩))).name
      rw [hname] at hvalid
      exact (validate_name_self (hv.records record hr).name).mp hvalid
    · have hone := h ⟨public_key, ip, false, false⟩ (hmem.mpr (.inr ⟨(public_key, .friend ip),
        mem_peers_friend.mpr hshape, unrecorded_peer_eq_some.mpr ⟨ip, rfl, hno, rfl⟩⟩))
      exact hone.public_key
  · rintro h peer hpeer
    rcases hmem.mp hpeer with ⟨record, hr, hp⟩ | ⟨p, hp, hu⟩
    · have hname := h.names record hr (by rw [hp]; rfl)
      have hkey := (hv.records record hr).public_key
      have hself := (validate_name_self (hv.records record hr).name).mpr hname
      unfold recorded_peer at hp
      split at hp
      · cases hp
      · cases hp
      · cases hp
        exact ⟨hkey, by simp, hself⟩
      · cases hp
        exact ⟨hkey, rfl, hself⟩
    · obtain ⟨ip, hk, hno, rfl⟩ := unrecorded_peer_eq_some.mp hu
      have hshape : FriendShape live store.owners p.1 ip := mem_peers_friend.mp (hk ▸ hp)
      exact ⟨h.keys p.1 ip hshape hno, rfl, validate_name_address hshape⟩

/-! ## One status -/

/-- What `status` returns. -/
structure Collected (s : Vps) (status : ManagedServerStatus) (s' : Vps) : Prop where
  version : status.version = VERSION
  warp : ∀ warp ∈ status.warp, warp.connected = true → warp.installed = true ∧ warp.enabled = true
  peers : ∃ store, Server.Loaded s' store ∧ s'.live = s.live ∧ Descends s store ∧
    status.peers = listed store (Server.peers s.live store.owners)

theorem warp_status_ends {interface : String} {faults : Faults} {s : Vps} :
    Ends (warp_status interface faults) (fun warp s' => s' = s ∧
      (warp.connected = true → warp.installed = true ∧ warp.enabled = true)) (fun _ _ => True) s := by
  refine ends_get_bind.mpr (ends_bind.mpr (ends_lift.mpr ⟨fun prepared _ => ?_, fun _ _ => trivial⟩))
  cases prepared with
  | false => exact ⟨rfl, by simp⟩
  | true =>
    refine ends_bind.mpr (ends_query.mpr ?_)
    cases faults.helper with
    | failed n => trivial
    | killed n => trivial
    | done =>
      refine ends_bind.mpr (ends_lift.mpr ⟨fun warp _ => ?_, fun _ _ => trivial⟩)
      by_cases hc : (warp.connected && (!warp.installed || !warp.enabled)) = true
      · simp only [if_pos hc]
        trivial
      · simp only [if_neg hc]
        refine ⟨rfl, fun hconn => ?_⟩
        simpa [hconn] using hc

theorem status_ends [Platform] {interface : String} {faults : Faults} {s : Vps} :
    Ends (status interface faults) (Collected s) (fun _ _ => True) s := by
  have hload := load_store_ends interface faults none (fun _ _ _ => True) (fun _ _ => True) s
  refine (hload.mono (fun _ _ h => h) fun _ _ _ => trivial).bind fun store s' h => ?_
  refine ends_bind.mpr (ends_query.mpr ?_)
  cases faults.read with
  | failed n => trivial
  | killed n => trivial
  | done =>
    refine ends_get_bind.mpr (warp_status_ends.bind ?_)
    rintro warp _ ⟨rfl, hwarp⟩
    refine ⟨rfl, ?_, store, h.loaded, h.live, h.descends, by rw [h.live]⟩
    rintro _ ⟨⟩
    exact hwarp

theorem dispatch_status_ends [Platform] {interface : String} {faults : Faults} {s : Vps} :
    Ends (dispatch interface faults .managed_status) (fun output s' => ∃ status,
      Collected s status s' ∧ output = to_string status.to_value ++ "\n") (fun _ _ => True) s := by
  refine ends_bind.mpr (ends_query.mpr ?_)
  cases faults.lock with
  | failed n => trivial
  | killed n => trivial
  | done =>
    exact status_ends.bind fun status _ h => ⟨status, h, rfl⟩

theorem semver_version : semver VERSION = .ok (0, 5, 26) := by decide +kernel

/-- A collected status is accepted if its peers are presentable, and read as it was collected. -/
theorem Collected.accepted {s s' : Vps} {status : ManagedServerStatus} (h : Collected s status s')
    {store : FriendStore} (hl : Server.Loaded s' store) :
    (validate_managed_status status = .ok () ↔ Presentable store s'.live) := by
  obtain ⟨store', hl', hlive, -, hpeers⟩ := h.peers
  have hsame : store' = store := Except.ok.inj (hl'.read.symm.trans hl.read)
  subst hsame
  have hv := read_store_valid hl.read
  rw [← hlive] at hpeers
  rw [validate_managed_status_eq_ok, ← listed_valid_iff hv, ← hpeers]
  constructor
  · rintro ⟨-, -, hall, -⟩
    exact hall
  · intro hall
    refine ⟨⟨_, h.version ▸ semver_version⟩, h.warp, hall, ?_⟩
    rw [hpeers]
    exact listed_nodup hv _

/-- **When the agent accepts the status of a server**: of every state of the server, exactly if the
records that it shows and its live peers are presentable; what is read then is the status that was
collected. -/
theorem status_accepted_iff [Platform] {interface : String} {faults : Faults} {s s' : Vps}
    {output : String}
    (h : (dispatch interface faults .managed_status).exec s = (.ok output, s')) :
    ∃ store, Server.Loaded s' store ∧ s'.live = s.live ∧
      ((∃ status, read_managed_status output = .ok status) ↔ Presentable store s.live) ∧
      ∀ status, read_managed_status output = .ok status → output = to_string status.to_value ++ "\n" ∧
        status.peers = listed store (peers s.live store.owners) := by
  obtain ⟨status, hc, rfl⟩ := dispatch_status_ends.ok h
  obtain ⟨store, hl, hlive, -, hpeers⟩ := hc.peers
  have hiff := hc.accepted hl
  rw [hlive] at hiff
  refine ⟨store, hl, hlive, ?_, ?_⟩
  · rw [← hiff]
    simp only [read_managed_status_eq_ok, exists_and_left, exists_eq, and_true]
  · intro other hother
    obtain ⟨-, rfl⟩ := read_managed_status_eq_ok.mp hother
    exact ⟨rfl, hpeers⟩

/-- A new server. -/
def sample_new : Vps := ⟨.empty, .empty, none, none, "server"⟩

/-- A new server gets a router and a friend without a name. -/
def sample_events : List Server.Event :=
  [.run (.add_peer ROUTER "10.202.0.2/32" (some CLIENT_SUBNET)) Faults.none,
    .run (.add_peer CAROL "10.202.0.9/32" none) Faults.none]

def sample_output : String := to_string (ManagedServerStatus.to_value
  ⟨VERSION, [⟨CAROL, "10.202.0.9/32", false, false⟩], some ⟨false, false, false⟩⟩) ++ "\n"

theorem sample_printed : letI := sample_platform
    ((dispatch "gt0" Faults.none .managed_status).exec
      (Fallible.run (Server.Event.step "gt0") sample_new sample_events)).1 = .ok sample_output := by
  decide +kernel

/-- `status_accepted_iff` for a server with a router and a friend without a name. -/
theorem status_accepted_iff_sample : letI := sample_platform
    let s := Fallible.run (Server.Event.step "gt0") sample_new sample_events
    ∃ store, Server.Loaded ((dispatch "gt0" Faults.none .managed_status).exec s).2 store ∧
      ((dispatch "gt0" Faults.none .managed_status).exec s).2.live = s.live ∧
      ((∃ status, read_managed_status sample_output = .ok status) ↔ Presentable store s.live) ∧
      ∀ status, read_managed_status sample_output = .ok status →
        sample_output = to_string status.to_value ++ "\n" ∧
          status.peers = listed store (peers s.live store.owners) :=
  letI := sample_platform
  status_accepted_iff (Op.exec_eq sample_printed)

/-- A name with a space before it, which no command writes, but which is loaded and printed. -/
example : read_managed_status (to_string (ManagedServerStatus.to_value
    ⟨VERSION, [⟨BOB, " Bob", true, false⟩], none⟩) ++ "\n") =
      .error "managed server returned an unnormalized friend name" := by
  rw [read_managed_status_print]
  decide +kernel

/-! ## Every status -/

theorem Presentable.of_clean {s : Vps} (h : Clean s) {store : FriendStore} (hl : Server.Loaded s store) :
    Presentable store s.live where
  names record hr _ := h.names store hl.read record hr
  keys public_key _ hshape _ := by
    obtain ⟨routes, hp, -⟩ := hshape.shape
    exact h.live public_key (WireGuard.Interface.mem_keys.mpr ⟨routes, hp⟩)

/-- **Every status of a clean server is accepted**, after any commands, however they ended: the agent
reads what the server has collected. -/
theorem status_accepted [Platform] (interface : String) {s : Vps} (hs : Clean s)
    (events : List Server.Event) {faults : Faults} {output : String} {s' : Vps}
    (h : (dispatch interface faults .managed_status).exec (Fallible.run (Server.Event.step interface) s events) =
      (.ok output, s')) :
    ∃ status, read_managed_status output = .ok status ∧
      output = to_string status.to_value ++ "\n" := by
  have hclean : Clean (Server.Event.step interface (Fallible.run (Server.Event.step interface) s events)
      (.run .managed_status faults)) := (hs.run events).step _
  rw [Server.Event.step, h] at hclean
  obtain ⟨status, hc, rfl⟩ := dispatch_status_ends.ok h
  obtain ⟨store, hl, -⟩ := hc.peers
  have hvalid := (hc.accepted hl).mpr (Presentable.of_clean hclean hl)
  exact ⟨status, read_managed_status_eq_ok.mpr ⟨hvalid, rfl⟩, rfl⟩

theorem status_accepted_sample : letI := sample_platform
    ∃ status, read_managed_status sample_output = .ok status ∧
      sample_output = to_string status.to_value ++ "\n" :=
  letI := sample_platform
  have hs : Clean sample_new := by
    refine ⟨fun store hread => ?_, fun key hk => (nomatch hk), fun key hk => nomatch hk⟩
    cases hread
    exact fun record hr => nomatch hr
  status_accepted "gt0" hs sample_events (Op.exec_eq sample_printed)

end Gofro.Agent
