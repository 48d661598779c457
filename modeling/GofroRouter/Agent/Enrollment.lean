import GofroRouter.Agent.Controller.Consistency
import GofroRouter.Agent.Profile

/-!
# Enrolling a router at a VPS

The end of `managed/bootstrap.rs`: the VPS has created a peer and sent its profile, the server is
added to the configuration, and if that fails the peer is removed again, unless the configuration
may hold its key.

* `enrollment_uncommitted`, `rollback_enrollment`, `bootstrap_profile`: the code.
* `Operation.failed`: an update that fails has been committed in memory and on disk, or in neither.
* **`enrollment_rollback`**: when the command that removes the peer is sent.
-/

namespace Gofro.Agent

open Geodata (RegexEngine)
open Fallible
open Text

/-- The agent, and the commands that were sent to the VPS. -/
structure Enrollment where
  agent : AppState
  commands : List String

abbrev Enroll := Op Enrollment Failure

/-- An operation of the controller. -/
def on_agent {α : Type} (m : Control α) : Enroll α := Op.of fun s =>
  ((m.exec s.agent).1, { s with agent := (m.exec s.agent).2 })

/-- A command for the VPS, and its reply. -/
def key_ssh (reply : Except String String) (command : String) : Enroll String := Op.of fun s =>
  (reply.mapError Failure.of, { s with commands := s.commands ++ [command] })

/-- The key of the new peer stands in a comment of the profile. -/
def profile_client_public_key (profile : String) : Except String String :=
  match (lines profile).findSome? fun line => strip_start line "# ClientPublicKey = ".toList with
  | none => .error "server profile has no client public key"
  | some key =>
    if byteLen key != 44 || key.getLast? != some '=' ||
        !(key.dropLast.all fun c => is_ascii_alphanumeric c || c = '+' || c = '/') then
      .error "server profile has an invalid client public key"
    else .ok (String.ofList key)

/-- A configuration with a server that uses this key. -/
def holds_key (private_key : String) (config : ControllerConfig) : Bool :=
  config.servers.any fun server => server.client_private_key = some private_key

/-- Neither memory nor disk holds the key, and the file can be read and parsed. -/
def enrollment_uncommitted (readable : Bool) (s : AppState) (private_key : String) : Bool :=
  readable && [s.config, s.disk].all fun config => !holds_key private_key config

/-- The new peer is removed from the server unless its key may have been committed. -/
def rollback_enrollment (readable : Bool) (private_key : String) (error : Failure)
    (rollback : Enroll String) : Enroll Failure := do
  if !enrollment_uncommitted readable (← get).agent private_key then
    return .of ("Local enrollment may already be saved, but activation failed. Remote access was " ++
      "retained. Refresh the server list and repair local routing before retrying.")
  match ← attempt rollback with
  | .ok _ => return error
  | .error rollback =>
    return .of ("local server enrollment failed: " ++ error.text ++
      "; remote peer rollback failed: " ++ rollback.text)

/-- The profile of a server that the agent manages. -/
def ServerProfile.managed (server : ServerProfile) (management : ManagedServer) : ServerProfile :=
  { server with management := some management }

section

variable [RegexEngine] [Management] [Idna]

/-- `bootstrap` from the reply to `create-router-profile` on. Other writers may come between the
failure of `add_server` and the second look at the configuration. -/
def bootstrap_profile (set : Settings) (faults : UpdateFaults) (others : AppState → AppState)
    (readable : Bool) (reply : Except String String) (management : ManagedServer)
    (name profile : String) : Enroll Unit := do
  match profile_client_public_key profile, parse_server_profile name profile with
  | .error _, _ =>
    throw (.of ("VPS returned an invalid router profile. Enrollment outcome is unknown; existing " ++
      "remote access was retained."))
  | .ok _, .error _ =>
    throw (.of ("VPS returned an invalid router profile. Remote access was retained; check the " ++
      "server before retrying."))
  | .ok client_public_key, .ok server =>
    match server.client_private_key with
    | none => throw (.of "router profile has no private key")
    | some client_private_key =>
      let result ← attempt <|
        on_agent ((Operation.add_server (server.managed management)).run set faults)
      match result with
      | .ok () => pure ()
      | .error error =>
        modify fun s => { s with agent := others s.agent }
        throw (← rollback_enrollment readable client_private_key error
          (key_ssh reply ("remove-router-peer " ++ client_public_key)))

variable {set : Settings} {s s' : AppState} {faults : UpdateFaults} {server : ServerProfile}
  {e : Failure}

/-- **An update that fails** has been committed in memory and on disk, or in neither. -/
theorem Operation.failed {op : Operation} (h : op.Outcome set s (.error e) s') :
    if e.committed then
      ∃ edit next change, op.edit = .ok edit ∧ edit.normalized s.config = .ok (next, change) ∧
        s'.config = next ∧ s'.disk = next
    else s'.config = s.config ∧ s'.disk = s.disk := by
  obtain ⟨_, he, hc, rfl⟩ | ⟨-, edit, hop, hu⟩ := h
  · cases he
    simp [hc]
  cases hu with
  | refused hc hs =>
    simp only [hc, Bool.false_eq_true, if_false]
    obtain ⟨caches, rfl, -⟩ := hs
    exact ⟨rfl, rfl⟩
  | unsynced hn hc hk =>
    rw [if_pos hc]
    exact ⟨edit, _, _, hop, hn, rfl, rfl⟩
  | stuck hc hs hg =>
    simp only [hc, Bool.false_eq_true, if_false]
    exact ⟨hs.config, hs.disk⟩
  | rolled_back hc hs ha =>
    simp only [hc, Bool.false_eq_true, if_false]
    exact ⟨hs.config, hs.disk⟩
  | unrefreshed hn hc hconfig hd hg hs hk =>
    rw [if_pos hc]
    exact ⟨edit, _, _, hop, hn, hconfig⟩

omit [RegexEngine] in
theorem holds_key_added {private_key : String} {edit : Edit} {config next : ControllerConfig}
    {change : Change} (hop : (Operation.add_server server).edit = .ok edit)
    (hn : edit.normalized config = .ok (next, change))
    (hkey : server.client_private_key = some private_key) : holds_key private_key next = true := by
  simp only [Operation.edit, bind_eq_ok] at hop
  obtain ⟨-, -, hop⟩ := hop
  cases ok_inj hop
  obtain ⟨edited, device_exclusions, hedit, rfl, -⟩ := Edit.normalized_eq_ok hn
  simp only [insert_server, bind_eq_ok] at hedit
  obtain ⟨-, -, hedit⟩ := hedit
  cases ok_inj hedit
  simp [holds_key, hkey]

omit [RegexEngine] [Management] [Idna] in
theorem enrollment_uncommitted_iff {readable : Bool} {private_key : String} :
    enrollment_uncommitted readable s private_key = true ↔ readable = true ∧
      holds_key private_key s.config = false ∧ holds_key private_key s.disk = false := by
  simp [enrollment_uncommitted]

omit [RegexEngine] [Management] [Idna] in
theorem rollback_enrollment_spec (readable : Bool) (private_key command : String)
    (error : Failure) (reply : Except String String) (n : Enrollment) :
    Ends (rollback_enrollment readable private_key error (key_ssh reply command))
      (fun _ n' => n' = if enrollment_uncommitted readable n.agent private_key then
        { n with commands := n.commands ++ [command] } else n) (fun _ _ => False) n := by
  unfold rollback_enrollment
  rw [ends_bind, ends_get]
  cases enrollment_uncommitted readable n.agent private_key with
  | false => exact rfl
  | true =>
    cases reply with
    | ok r => exact rfl
    | error r => exact rfl

/-- The profile has these keys, and the server that it describes could not be added. -/
def AddFailed (set : Settings) (faults : UpdateFaults) (management : ManagedServer)
    (name profile : String) (s : AppState) (public_key private_key : String) (e : Failure)
    (added : AppState) : Prop :=
  profile_client_public_key profile = .ok public_key ∧
    ∃ server, parse_server_profile name profile = .ok server ∧
      server.client_private_key = some private_key ∧
        ((Operation.add_server (server.managed management)).run set faults).exec s =
          (.error e, added)

variable {others : AppState → AppState} {readable : Bool} {reply : Except String String}
  {management : ManagedServer} {name profile : String}

theorem AddFailed.unique {public_key public_key' private_key private_key' : String}
    {e e' : Failure} {added added' : AppState}
    (h : AddFailed set faults management name profile s public_key private_key e added)
    (h' : AddFailed set faults management name profile s public_key' private_key' e' added') :
    public_key = public_key' ∧ private_key = private_key' ∧ added = added' := by
  obtain ⟨hpublic, server, hserver, hprivate, hadd⟩ := h
  obtain ⟨hpublic', server', hserver', hprivate', hadd'⟩ := h'
  obtain rfl := Except.ok.inj (hserver.symm.trans hserver')
  refine ⟨Except.ok.inj (hpublic.symm.trans hpublic'),
    Option.some.inj (hprivate.symm.trans hprivate'), ?_⟩
  exact congrArg Prod.snd (hadd.symm.trans hadd')

/-- The commands of an enrollment, and the agent after it. -/
def Sent (set : Settings) (faults : UpdateFaults) (others : AppState → AppState) (readable : Bool)
    (management : ManagedServer) (name profile : String) (s : AppState) (n : Enrollment) : Prop :=
  (n.commands = [] ∧ ∀ public_key private_key e added,
    ¬ AddFailed set faults management name profile s public_key private_key e added) ∨
  ∃ public_key private_key e added,
    AddFailed set faults management name profile s public_key private_key e added ∧
      n.agent = others added ∧
        n.commands = if enrollment_uncommitted readable (others added) private_key then
          ["remove-router-peer " ++ public_key] else []

theorem bootstrap_profile_spec : Ends
    (bootstrap_profile set faults others readable reply management name profile)
    (fun _ n => Sent set faults others readable management name profile s n)
    (fun _ n => Sent set faults others readable management name profile s n) ⟨s, []⟩ := by
  unfold bootstrap_profile
  cases hpublic : profile_client_public_key profile with
  | error e =>
    refine .inl ⟨rfl, fun _ _ _ _ h => ?_⟩
    rw [AddFailed, hpublic] at h
    cases h.1
  | ok public_key =>
    cases hserver : parse_server_profile name profile with
    | error e =>
      refine .inl ⟨rfl, ?_⟩
      rintro _ _ _ _ ⟨-, server, h, -⟩
      rw [hserver] at h
      cases h
    | ok server =>
      dsimp only
      cases hprivate : server.client_private_key with
      | none =>
        refine .inl ⟨rfl, ?_⟩
        rintro _ _ _ _ ⟨-, server', h, hkey, -⟩
        cases Except.ok.inj (hserver.symm.trans h)
        rw [hprivate] at hkey
        cases hkey
      | some private_key =>
        rw [ends_bind, ends_attempt]
        unfold on_agent
        rw [ends_of]
        dsimp only
        rcases hadd : ((Operation.add_server (server.managed management)).run set faults).exec s with
          ⟨e | u, added⟩
        · have hfailed : AddFailed set faults management name profile s public_key private_key e
              added := ⟨hpublic, server, hserver, hprivate, hadd⟩
          refine ends_bind.mpr (ends_modify.mpr (ends_bind.mpr ?_))
          refine (rollback_enrollment_spec _ _ _ _ _ _).mono (fun error n hn => ?_)
            fun _ _ h => h.elim
          refine .inr ⟨public_key, private_key, e, added, hfailed, ?_, ?_⟩
          · rw [hn]
            split_ifs <;> rfl
          · rw [hn]
            split_ifs <;> rfl
        · refine .inl ⟨rfl, ?_⟩
          rintro _ _ _ _ ⟨-, server', h, -, h'⟩
          cases Except.ok.inj (hserver.symm.trans h)
          rw [hadd] at h'
          cases h'

/-- **The rollback of an enrollment.** Whatever fails: the command that removes the new peer is sent
only if neither memory nor disk holds its key; it is sent if the server could not be added, neither
holds its key, and the file is readable; and a server that could not be added has been committed in
memory and on disk, or both are as they were. -/
theorem enrollment_rollback (set : Settings) (faults : UpdateFaults) (others : AppState → AppState)
    (readable : Bool) (reply : Except String String) (management : ManagedServer)
    (name profile : String) (s : AppState) :
    (∀ command ∈ ((bootstrap_profile set faults others readable reply management name profile).exec
        ⟨s, []⟩).2.commands, ∃ public_key private_key e added,
      AddFailed set faults management name profile s public_key private_key e added ∧
        command = "remove-router-peer " ++ public_key ∧
        holds_key private_key ((bootstrap_profile set faults others readable reply management name
          profile).exec ⟨s, []⟩).2.agent.config = false ∧
        holds_key private_key ((bootstrap_profile set faults others readable reply management name
          profile).exec ⟨s, []⟩).2.agent.disk = false) ∧
    (∀ public_key private_key e added,
      AddFailed set faults management name profile s public_key private_key e added →
      holds_key private_key (others added).config = false →
      holds_key private_key (others added).disk = false → readable = true →
        ((bootstrap_profile set faults others readable reply management name profile).exec
          ⟨s, []⟩).2.commands = ["remove-router-peer " ++ public_key]) ∧
    ∀ public_key private_key e added,
      AddFailed set faults management name profile s public_key private_key e added →
        if e.committed then
          holds_key private_key added.config = true ∧ holds_key private_key added.disk = true
        else added.config = s.config ∧ added.disk = s.disk := by
  have hsent : Sent set faults others readable management name profile s
      ((bootstrap_profile set faults others readable reply management name profile).exec
        ⟨s, []⟩).2 := bootstrap_profile_spec.state
  generalize ((bootstrap_profile set faults others readable reply management name profile).exec
    ⟨s, []⟩).2 = n at hsent ⊢
  refine ⟨fun command hmem => ?_, fun public_key private_key e added hfailed hc hd hr => ?_,
    fun public_key private_key e added hfailed => ?_⟩
  · obtain ⟨hnil, -⟩ | ⟨public_key, private_key, e, added, hfailed, hagent, hcommands⟩ := hsent
    · rw [hnil] at hmem
      cases hmem
    · rw [hcommands] at hmem
      split_ifs at hmem with hu
      · obtain ⟨-, hc, hd⟩ := enrollment_uncommitted_iff.mp hu
        rw [hagent]
        exact ⟨public_key, private_key, e, added, hfailed, List.mem_singleton.mp hmem, hc, hd⟩
      · cases hmem
  · obtain ⟨-, hno⟩ | ⟨public_key', private_key', e', added', hfailed', -, hcommands⟩ := hsent
    · exact absurd hfailed (hno _ _ _ _)
    · obtain ⟨rfl, rfl, rfl⟩ := hfailed.unique hfailed'
      rw [hcommands, if_pos (enrollment_uncommitted_iff.mpr ⟨hr, hc, hd⟩)]
  · obtain ⟨-, server, -, hkey, hadd⟩ := hfailed
    have hout := (Operation.run_spec set s (.add_server (server.managed management)) faults).error
      hadd
    have hf := Operation.failed hout
    split_ifs at hf ⊢ with hcommitted
    · obtain ⟨edit, next, change, hop, hn, hc, hd⟩ := hf
      have hholds := holds_key_added hop hn hkey
      rw [hc, hd]
      exact ⟨hholds, hholds⟩
    · exact hf

end

/-! ### An enrollment that fails -/

/-- The new configuration cannot be saved. -/
def unsavedFaults : UpdateFaults :=
  ⟨true, true, ⟨fun _ => true, fun _ => true⟩, true, true, true, ⟨true, true⟩, .failed, true, true,
    ⟨true, true⟩, true, true, true, ⟨true, true, true, true⟩⟩

def enrolledProfile : String :=
  "# ClientPublicKey = x5YyJ8eGQqH6u2XEoXkUu9m1u1yYkJv0m1bJm0xkZlA=\n" ++ sampleProfile

def enrolledServer : ServerProfile :=
  ⟨"Primary", "", "vpn.example.com:8443", "aq2K6tZ6JqYCpNPLseGJPHceMMxxEdkx5AeRm6cEfSE=",
    some "10.202.0.5/32", some "4E64fyqMJsXY6YaAp8M3qM7r6Xj6YjAfuPeWbdMvIHE=", none⟩

/-- The server of the profile could not be added. -/
example :
    letI := sampleRegex
    letI := sampleIdna
    letI := sampleManagement
    let s := { sampleState with routing_degraded := false }
    ∃ added, AddFailed sampleSettings unsavedFaults ⟨"203.0.113.1", 22, "host"⟩ "Primary"
      enrolledProfile s "x5YyJ8eGQqH6u2XEoXkUu9m1u1yYkJv0m1bJm0xkZlA="
      "4E64fyqMJsXY6YaAp8M3qM7r6Xj6YjAfuPeWbdMvIHE=" (.of "failed to save the configuration")
      added := by
  let _ := sampleRegex
  let _ := sampleIdna
  let _ := sampleManagement
  have hadd : (((Operation.add_server (enrolledServer.managed ⟨"203.0.113.1", 22, "host"⟩)).run
      sampleSettings unsavedFaults).exec { sampleState with routing_degraded := false }).1 =
        .error (.of "failed to save the configuration") := by decide +kernel
  exact ⟨_, by decide +kernel, enrolledServer, by decide +kernel, rfl, Op.exec_eq hadd⟩

end Gofro.Agent
