import GofroRouter.Agent.Remote.Requests
import GofroRouter.Server.Registry

/-!
# Managed operations, from the agent to the registry

`managed.rs`: the agent changes the friends of a server by one command over SSH and then asks for the
status. Either connection may fail before the server is reached, at the server, or after it, and
others may use the server in between.

* `Trip`: one connection. `key_ssh`, `status_unlocked`, `change`: what the agent makes of it.
* `Operation.perform`: the operations, each under its own name.
* `Told`: what an outcome tells about the registry. **`operations_told`**: every outcome tells the
  truth, at every server, whatever else fails if a rollback goes through.
-/

namespace Gofro.Agent.Remote

open Text Json Fallible
open Server (Vps Session Exit Faults Command Registry Refines Shows FriendPeer ManagedServerStatus
  FRIEND_NAME_INPUT_LIMIT gofro_managed dispatch validate_name validate_peer_key read_friend_name)
open Server.Platform (pubkey)

/-! ## Names -/

/-- What is sent with a name. -/
def friend_name_input (name : String) : String :=
  to_string (.object [("name", .string name)])

theorem byteLen_escape_le (c : Char) : byteLen (escape c) ≤ 6 := by
  have hdigits : ∀ n < 32, byteLen
      ['\\', 'u', '0', '0', hexDigit (n / 16), hexDigit (n % 16)] ≤ 6 := by decide
  unfold escape
  split_ifs with h₁ h₂ h₃ h₄ h₅ h₆ h₇ h₈
  · decide
  · decide
  · decide
  · decide
  · decide
  · decide
  · decide
  · exact hdigits _ h₈
  · have hsize := c.utf8Size_le_four
    simp only [byteLen, List.map_cons, List.map_nil, List.sum_cons, List.sum_nil]
    omega

theorem byteLen_flatMap_escape_le (cs : List Char) :
    byteLen (cs.flatMap escape) ≤ 6 * cs.length := by
  induction cs with
  | nil => exact Nat.le_refl 0
  | cons c cs ih =>
    have hc := byteLen_escape_le c
    rw [List.flatMap_cons, byteLen_append, List.length_cons]
    omega

theorem toList_friend_name_input (name : String) : (friend_name_input name).toList =
    "\x7b\"name\":\"".toList ++ (name.toList.flatMap escape ++ "\"\x7d".toList) := by
  have hquote : quote "name" = "\"name\"".toList := by decide
  rw [friend_name_input, to_string, String.toList_ofList, Value.print, printMembers, Value.print, hquote,
    quote]
  simp

theorem from_str_friend_name_input (name : String) :
    from_str (friend_name_input name) = some (.object [("name", .string name)]) := by
  have hdepth : Value.depth (.object [("name", .string name)]) ≤ MAX_DEPTH := by
    simp only [Value.depth, depthMembers, MAX_DEPTH]
    omega
  have hnone : ∀ c ∈ ([] : List Char), isSpace c = true :=
    fun _ hc => absurd hc List.not_mem_nil
  have hrt := from_str_to_string hdepth hnone
  rwa [List.append_nil] at hrt

theorem len_friend_name_input {input name : String} (h : validate_name input = .ok name) :
    len (friend_name_input name) ≤ FRIEND_NAME_INPUT_LIMIT := by
  have hlong : name.toList.length ≤ 60 := by
    simp only [validate_name, bind_eq_ok, bail_if_eq_ok] at h
    obtain ⟨_, hchecked, h⟩ := h
    cases h
    simp only [Bool.or_eq_false_iff, decide_eq_false_iff_not, not_lt] at hchecked
    exact hchecked.1.2
  have hescaped := byteLen_flatMap_escape_le name.toList
  have hfixed : byteLen "\x7b\"name\":\"".toList + byteLen "\"\x7d".toList ≤ 24 := by decide
  rw [len, toList_friend_name_input, byteLen_append, byteLen_append,
    FRIEND_NAME_INPUT_LIMIT]
  omega

/-- **The server reads the name that the agent has checked.** -/
theorem read_friend_name_input {input name : String} (h : validate_name input = .ok name) :
    read_friend_name (friend_name_input name) = .ok name := by
  have hfits : decide (FRIEND_NAME_INPUT_LIMIT < len (friend_name_input name)) = false :=
    decide_eq_false (Nat.not_lt.mpr (len_friend_name_input h))
  have hvalue : Server.or_error "invalid friend request"
      ((from_str (friend_name_input name)).bind Server.name_of_value) = .ok name := by
    rw [from_str_friend_name_input]
    rfl
  rw [read_friend_name, bind_eq_ok]
  exact ⟨(), bail_if_eq_ok.mpr hfits, bind_eq_ok.mpr ⟨name, hvalue, Server.validate_name_twice h⟩⟩

/-! ## Connections -/

/-- One connection: whether the agent has the server and its key, whether the server is reached, what
happens there, and whether the whole reply arrives. -/
structure Trip where
  found : Except String Unit
  reached : Bool
  private_key : String
  faults : Faults
  received : Bool

/-- The two connections of an operation, and what others ask the server for in between. -/
structure Course where
  command : Trip
  others : List Session
  status : Trip

/-- Why an operation has no result. -/
inductive Failure
  | invalid (message : String)
  | unreached
  | lost
  | exit (exit : Exit)
  | reply (message : String)
  | committed

/-- An operation of the agent: it changes the server, and may fail. -/
abbrev Attempt (α : Type) := Op Vps Failure α

/-- A check of the agent. -/
def checked {α : Type} (result : Except String α) : Attempt α :=
  Op.of fun s => (result.mapError Failure.invalid, s)

/-- What the agent learns from what a server has answered. -/
def Trip.reply (trip : Trip) (outcome : Except Exit String) : Except Failure String :=
  if trip.received then outcome.mapError Failure.exit else .error .lost

/-- `.context(CommittedRefreshFailed)` -/
def committed {α : Type} (m : Attempt α) : Attempt α :=
  Op.of fun s => ((m.exec s).1.mapError fun _ => Failure.committed, (m.exec s).2)

/-- The connection that is made for a request. -/
def Trip.session (trip : Trip) (management : ManagedServer) (request : Request)
    (input : Option String) : Session :=
  ⟨request.text management.host, input.getD "", trip.private_key, trip.faults⟩

section

variable [Server.Platform] (install : Vps → Except Exit Unit × Vps) (management : ManagedServer)

/-- `managed_server` and `key_ssh` -/
def key_ssh (trip : Trip) (request : Request) (input : Option String) : Attempt String := do
  checked trip.found
  checked (bail_if (input.any fun input => FRIEND_NAME_INPUT_LIMIT < len input)
    "managed server command input is too large")
  Op.of fun s =>
    if trip.reached then
      let served := (trip.session management request input).serve install s
      (trip.reply served.1, served.2)
    else (.error .unreached, s)

/-- What the server prints is parsed and checked. -/
def status_unlocked (trip : Trip) : Attempt ManagedServerStatus := do
  let output ← key_ssh install management trip .managed_status none
  Op.of fun s => ((read_managed_status output).mapError Failure.reply, s)

/-- A command, then the status. -/
def change (course : Course) (request : Request) (input : Option String) :
    Attempt ManagedServerStatus := do
  discard (key_ssh install management course.command request input)
  modify fun s => Fallible.run (Session.step install) s course.others
  committed (status_unlocked install management course.status)

/-- The name is checked before it is sent. -/
def create_friend (course : Course) (name : String) : Attempt ManagedServerStatus := do
  let name ← checked (validate_name name)
  change install management course .create_friend (some (friend_name_input name))

/-- Key and name are checked before they are sent. -/
def rename_friend (course : Course) (peer_key name : String) : Attempt ManagedServerStatus := do
  checked (validate_peer_key peer_key)
  let name ← checked (validate_name name)
  change install management course (.rename_friend peer_key) (some (friend_name_input name))

/-- The key is checked before it is sent. -/
def revoke_friend (course : Course) (peer_key : String) : Attempt ManagedServerStatus := do
  checked (validate_peer_key peer_key)
  change install management course (.revoke_friend peer_key) none

def restart (course : Course) : Attempt ManagedServerStatus :=
  change install management course .restart_vpn none

/-- The operations that change friends, and the restart. -/
inductive Operation
  | create_friend (name : String)
  | rename_friend (peer_key name : String)
  | revoke_friend (peer_key : String)
  | restart

def Operation.perform (course : Course) : Operation → Attempt ManagedServerStatus
  | .create_friend name => Remote.create_friend install management course name
  | .rename_friend peer_key name => Remote.rename_friend install management course peer_key name
  | .revoke_friend peer_key => Remote.revoke_friend install management course peer_key
  | .restart => Remote.restart install management course

/-- What an operation is for: the registry after it. A new friend has the key that the server makes. -/
def Operation.registry (private_key : String) : Operation → Registry → Registry
  | .create_friend name => match validate_name name with
    | .ok name => Registry.created (pubkey private_key) name
    | .error _ => id
  | .rename_friend peer_key name => match validate_name name with
    | .ok name => Registry.renamed peer_key name
    | .error _ => id
  | .revoke_friend peer_key => Registry.revoked peer_key
  | .restart => id

theorem Operation.registry_create_friend {private_key input name : String}
    (h : validate_name input = .ok name) :
    (Operation.create_friend input).registry private_key =
      Registry.created (pubkey private_key) name := by
  rw [Operation.registry, h]

theorem Operation.registry_rename_friend {private_key peer_key input name : String}
    (h : validate_name input = .ok name) :
    (Operation.rename_friend peer_key input).registry private_key = Registry.renamed peer_key name := by
  rw [Operation.registry, h]

/-- A status lists exactly the friends of a registry. -/
def Lists (status : ManagedServerStatus) (registry : Registry) : Prop :=
  ∀ peer, peer ∈ status.peers ↔
    registry peer.public_key = some ⟨peer.name, peer.revoked, peer.can_share⟩

/-- At most a status has been asked for. -/
def Asked (s s' : Vps) : Prop :=
  s' = s ∨ ∃ faults, s' = Server.Event.step "gt0" s (.run .managed_status faults)

/-- What an operation is for, at the server. -/
def Course.registry (course : Course) (operation : Operation) : Registry → Registry :=
  operation.registry course.command.private_key

/-- What the outcome of an operation tells, whose command meets the server in the state `s`. -/
inductive Told (course : Course) (operation : Operation) (s : Vps) :
    Except Failure ManagedServerStatus → Vps → Prop
  | done {status : ManagedServerStatus} {s₁ s' : Vps}
      (changed : Refines s s₁ (course.registry operation))
      (kept : Refines (Fallible.run (Session.step install) s₁ course.others) s' id)
      (lists : ∀ registry, Shows s' registry → Lists status registry) :
      Told course operation s (.ok status) s'
  | committed {s₁ s' : Vps} (changed : Refines s s₁ (course.registry operation))
      (asked : Asked (Fallible.run (Session.step install) s₁ course.others) s') :
      Told course operation s (.error .committed) s'
  | failed {e : Failure} {s' : Vps} (known : e ≠ .committed ∧ e ≠ .lost) (same : Refines s s' id) :
      Told course operation s (.error e) s'
  | lost {s' : Vps} (either : Refines s s' id ∨ Refines s s' (course.registry operation)) :
      Told course operation s (.error .lost) s'
  | killed {e : Failure} {command : Command} (unknown : e = .lost ∨ e = .exit .killed)
      (stopped : ((dispatch "gt0" course.command.faults command).exec s).1 = .error .killed) :
      Told course operation s (.error e) ((dispatch "gt0" course.command.faults command).exec s).2
  | halted {e : Failure} {n : ℕ} (restart : operation = .restart) (known : e ≠ .committed)
      (halted : course.command.faults.Halted) :
      Told course operation s (.error e) { s with live := s.live.take n }

variable {install management} {trip : Trip} {course : Course} {s s' : Vps}

/-! ## One connection -/

omit [Server.Platform] in
/-- A check that has failed is neither of the two outcomes after which something may be done. -/
theorem invalid_known (e : String) : Failure.invalid e ≠ .committed ∧ Failure.invalid e ≠ .lost :=
  ⟨by simp, by simp⟩

omit [Server.Platform] in
theorem ends_checked_bind {α β : Type} {x : Except String α} {f : α → Attempt β}
    {P : β → Vps → Prop} {E : Failure → Vps → Prop} (hE : ∀ e, E (.invalid e) s)
    (hf : ∀ a, x = .ok a → Ends (f a) P E s) : Ends (checked x >>= f) P E s := by
  cases x with
  | ok a => exact hf a rfl
  | error e => exact hE e

omit [Server.Platform] in
theorem ends_committed {α : Type} {m : Attempt α} {P : α → Vps → Prop} {E : Failure → Vps → Prop} :
    Ends (committed m) P E s ↔ Ends m P (fun _ s' => E .committed s') s := by
  unfold Ends committed
  simp only [Op.of, Op.exec]
  rcases m s with ⟨e | a, s'⟩ <;> rfl

/-- The connection is refused by a check or fails on the way, or else the server has answered. -/
theorem key_ssh_ends {request : Request} {input : Option String} {P : String → Vps → Prop}
    {E : Failure → Vps → Prop} (hE : ∀ e, e ≠ .committed ∧ e ≠ .lost → E e s)
    (hserved : match (trip.session management request input).serve install s with
      | (.ok output, s') => P output s' ∧ E .lost s'
      | (.error exit, s') => E (.exit exit) s' ∧ E .lost s') :
    Ends (key_ssh install management trip request input) P E s := by
  have hinvalid : ∀ e, E (.invalid e) s := fun e => hE _ (invalid_known e)
  refine ends_checked_bind hinvalid fun _ _ => ends_checked_bind hinvalid fun _ _ => ends_of.mpr ?_
  cases trip.reached with
  | false => exact hE _ ⟨nofun, nofun⟩
  | true =>
    simp only [if_true, Trip.reply]
    rcases hs : (trip.session management request input).serve install s with ⟨exit | output, s'⟩
    · rw [hs] at hserved
      cases trip.received with
      | true => exact hserved.1
      | false => exact hserved.2
    · rw [hs] at hserved
      cases trip.received with
      | true => exact hserved.1
      | false => exact hserved.2

theorem served_cases (hm : validate_management management = .ok ()) {request : Request}
    {input : Option String} (hkeys : ∀ key ∈ request.keys, validate_peer_key key = .ok ())
    {command : Command}
    (hc : request.command management.host (input.getD "") trip.private_key = some command) :
    (trip.session management request input).serve install s = (.error .refused, s) ∨
      (trip.session management request input).serve install s =
        match (dispatch "gt0" trip.faults command).exec s with
        | (.ok output, s') => (.ok output, s')
        | (.error (.error message), s') => (.error (.failed message), s')
        | (.error .killed, s') => (.error .killed, s') := by
  obtain ⟨ip, hcanonical⟩ := validate_management_canonical hm
  have hread := request.invocation_command hcanonical hkeys
  have hmanaged := managed_request hm request hkeys
  split_ifs at hmanaged with hrefused
  · exact .inl (Session.serve_refused hmanaged)
  · exact .inr (Session.serve_command hmanaged ((hread _ _).trans hc))

/-- **A status** lists the registry of the server. -/
theorem status_ends (hm : validate_management management = .ok ()) :
    Ends (status_unlocked install management trip)
      (fun status s' => Refines s s' id ∧ ∀ registry, Shows s' registry → Lists status registry)
      (fun _ s' => Asked s s') s := by
  refine ends_bind.mpr (key_ssh_ends (fun _ _ => .inl rfl) ?_)
  have hnone : ∀ key ∈ Request.managed_status.keys, validate_peer_key key = .ok () := nofun
  rcases served_cases hm hnone rfl with h | h
  · rw [h]
    exact ⟨.inl rfl, .inl rfl⟩
  · rw [h]
    have hasked : Asked s ((dispatch "gt0" trip.faults .managed_status).exec s).2 := .inr ⟨_, rfl⟩
    have hperforms : Server.Performs (dispatch "gt0" trip.faults .managed_status) id s :=
      Server.ends_query_bind trivial
        (Server.status_performs.bind fun _ _ h => h)
    rcases he : (dispatch "gt0" trip.faults .managed_status).exec s with ⟨stop | output, s'⟩
    · rw [he] at hasked
      cases stop <;> exact ⟨hasked, hasked⟩
    · rw [he] at hasked
      refine ⟨ends_of.mpr ?_, hasked⟩
      cases hread : read_managed_status output with
      | error e => exact hasked
      | ok status =>
        have hstate := hperforms.ok he
        obtain ⟨printed, hc, rfl⟩ := dispatch_status_ends.ok he
        obtain ⟨store, hl, hlive, -, hpeers⟩ := hc.peers
        obtain ⟨-, rfl⟩ := read_managed_status_eq_ok.mp hread
        refine ⟨hstate, ?_⟩
        rintro _ ⟨store', hcurrent, rfl⟩ peer
        obtain rfl : store' = store := Except.ok.inj (hcurrent.symm.trans hl.current)
        rw [hpeers, hlive]
        exact Server.mem_listed_iff (Server.read_store_valid hl.read)

/-! ## Operations -/

attribute [local irreducible] Server.validate_name Server.read_friend_name

theorem change_told (hm : validate_management management = .ok ()) {operation : Operation}
    {request : Request}
    {input : Option String} (hkeys : ∀ key ∈ request.keys, validate_peer_key key = .ok ())
    {command : Command}
    (hc : request.command management.host (input.getD "") course.command.private_key = some command)
    (hregistry : course.registry operation = command.registry)
    (hrestart : command = .restart_vpn → operation = .restart)
    (hcurrent : command.Current) (hrollback : command.HasRollback)
    (hfresh : Server.Event.Fresh s (.run command course.command.faults))
    (hr : course.command.faults.RollsBack) (hp : ¬ course.command.faults.Published)
    (hs : s.saved = s.live) (hd : Server.Distinct s.live) :
    Ends (change install management course request input)
      (fun status => Told install course operation s (.ok status))
      (fun e => Told install course operation s (.error e)) s := by
  have hsame : Refines s s id := .of_same rfl rfl rfl
  have hcommand : Ends (key_ssh install management course.command request input)
      (fun _ s' => Refines s s' (course.registry operation))
      (fun e => Told install course operation s (.error e)) s := by
    refine key_ssh_ends (fun _ he => .failed he hsame) ?_
    rcases served_cases hm hkeys hc with h | h
    · rw [h]
      exact ⟨.failed ⟨nofun, nofun⟩ hsame, .lost (.inl hsame)⟩
    · rw [h]
      rcases he : (dispatch "gt0" course.command.faults command).exec s with ⟨stop | output, s'⟩
      · cases stop with
        | error message =>
          have hleft : command.Leaves course.command.faults s s' :=
            (Server.dispatch_undone "gt0" hrollback hr hs).error he
          rcases hleft with h | ⟨h, -⟩ | ⟨hcommand, h, n, rfl⟩
          · have hrefined : Refines s s' id := .of_same h.live h.saved h.store
            exact ⟨.failed ⟨nofun, nofun⟩ hrefined, .lost (.inl hrefined)⟩
          · exact absurd h hp
          · exact ⟨.halted (hrestart hcommand) nofun h, .halted (hrestart hcommand) nofun h⟩
        | killed =>
          have hstate : ((dispatch "gt0" course.command.faults command).exec s).2 = s' := by rw [he]
          have hstopped : ((dispatch "gt0" course.command.faults command).exec s).1 =
              .error .killed := by rw [he]
          rw [← hstate]
          exact ⟨.killed (.inr rfl) hstopped, .killed (.inl rfl) hstopped⟩
      · have hrefined : Refines s s' (course.registry operation) :=
          hregistry ▸ (Server.dispatch_performs "gt0" hcurrent hd hfresh).ok he
        exact ⟨hrefined, .lost (.inr hrefined)⟩
  refine ends_bind.mpr (hcommand.bind fun _ s₁ hchanged => ?_)
  refine ends_bind.mpr (ends_modify.mpr (ends_committed.mpr ((status_ends hm).mono ?_ ?_)))
  · exact fun status s' h => .done hchanged h.1 h.2
  · exact fun _ s' h => .committed hchanged h

/-- **Every outcome tells the truth**, if a rollback at the server goes through and the metadata is not
left half written. A status means that the server has done what the operation is for, and it lists
the registry of the server; a refresh that failed after the commit means the first of these. Any
other failure means that the registry is as before, unless the reply is lost, when it may be either,
or the server was killed on the way, or a restart has left its service stopped. -/
theorem operations_told (install : Vps → Except Exit Unit × Vps)
    (hm : validate_management management = .ok ()) (operation : Operation) (course : Course)
    (hs : s.saved = s.live) (hd : Server.Distinct s.live)
    (hnew : ∀ name, operation = .create_friend name → Server.Unused s course.command.private_key)
    (hr : course.command.faults.RollsBack) (hp : ¬ course.command.faults.Published) :
    let result := (operation.perform install management course).exec s
    Told install course operation s result.1 result.2 := by
  have hsame : Refines s s id := .of_same rfl rfl rfl
  have hinvalid : ∀ operation e, Told install course operation s (.error (.invalid e)) s :=
    fun _ e => .failed (invalid_known e) hsame
  have htold : Ends (operation.perform install management course)
      (fun status => Told install course operation s (.ok status))
      (fun e => Told install course operation s (.error e)) s := by
    cases operation with
    | create_friend name =>
      rw [Operation.perform, create_friend]
      refine ends_checked_bind (hinvalid _) fun checked hname => ?_
      have hnone : ∀ key ∈ Request.create_friend.keys, validate_peer_key key = .ok () :=
        fun _ hk => absurd hk List.not_mem_nil
      have hregistry : course.registry (.create_friend name) =
          Command.registry (.create_friend (endpoint management.host) (friend_name_input checked)
            course.command.private_key) := by
        rw [Course.registry, Operation.registry_create_friend hname, Command.registry,
          read_friend_name_input hname]
      exact change_told hm hnone rfl hregistry (by rintro ⟨⟩) trivial trivial (hnew name rfl) hr hp
        hs hd
    | rename_friend peer_key name =>
      rw [Operation.perform, rename_friend]
      refine ends_checked_bind (hinvalid _) fun _ hkey => ?_
      refine ends_checked_bind (hinvalid _) fun checked hname => ?_
      have hkeys : ∀ key ∈ (Request.rename_friend peer_key).keys, validate_peer_key key = .ok () :=
        fun key hk => List.mem_singleton.mp hk ▸ hkey
      have hregistry : course.registry (.rename_friend peer_key name) =
          Command.registry (.rename_friend peer_key (friend_name_input checked)) := by
        rw [Course.registry, Operation.registry_rename_friend hname, Command.registry,
          read_friend_name_input hname]
      exact change_told hm hkeys rfl hregistry (by rintro ⟨⟩) trivial trivial trivial hr hp hs
        hd
    | revoke_friend peer_key =>
      refine ends_checked_bind (hinvalid _) fun _ hkey => ?_
      have hkeys : ∀ key ∈ (Request.revoke_friend peer_key).keys, validate_peer_key key = .ok () :=
        fun key hk => List.mem_singleton.mp hk ▸ hkey
      have hregistry : course.registry (.revoke_friend peer_key) =
          Command.registry (.revoke_friend peer_key) := rfl
      exact change_told hm hkeys rfl hregistry (by rintro ⟨⟩) trivial trivial trivial hr hp hs
        hd
    | restart =>
      have hnone : ∀ key ∈ Request.restart_vpn.keys, validate_peer_key key = .ok () :=
        fun _ hk => absurd hk List.not_mem_nil
      have hregistry : course.registry .restart = Command.registry .restart_vpn := rfl
      exact change_told hm hnone rfl hregistry (fun _ => rfl) trivial trivial trivial hr hp hs hd
  have hresult : Ends (attempt (operation.perform install management course))
      (fun result => Told install course operation s result)
      (fun _ _ => True) s := ends_attempt.mpr htold
  exact hresult

end

/-- Both connections of an operation go well. -/
def sample_course : Course :=
  let trip : Trip := ⟨.ok (), true, Server.CAROL, Faults.none, true⟩
  ⟨trip, [], trip⟩

/-- The revocation of the one friend. -/
theorem operations_told_sample : letI := Server.sample_platform
    let result := ((Operation.revoke_friend Server.BOB).perform (fun s => (.ok (), s))
      (sample_management "192.0.2.1") sample_course).exec Server.sample
    Told (fun s => (.ok (), s)) sample_course (.revoke_friend Server.BOB) Server.sample
      result.1 result.2 :=
  letI := Server.sample_platform
  operations_told (fun s => (.ok (), s)) (by decide +kernel) (.revoke_friend Server.BOB) sample_course rfl
    Server.distinct_sample.live nofun ⟨rfl, rfl, rfl⟩ fun ⟨_, h⟩ => nomatch h

end Gofro.Agent.Remote
