import GofroRouter.Agent.Controller.Consistency

/-!
# What a request reports

A request that changes the configuration ends with success, with an error, or with the error that
says it has been committed all the same.

* `Truthful`: what the answer says of memory and disk is so.
* **`request_truthful_iff`**: all answers are truthful, except those of `set_auto_update` whose file
  was published but not synced (`auto_update_misreported`).
-/

namespace Gofro.Agent

open Geodata (RegexEngine)
open Fallible

/-- What changes the configuration. -/
inductive Request
  | operation (op : Operation) (faults : UpdateFaults)
  | auto_update (lock : Bool) (outcome : SaveOutcome) (enabled : Bool)

/-- Memory and disk hold this configuration. -/
def Holds (config : ControllerConfig) (s : AppState) : Prop := s.config = config ∧ s.disk = config

theorem set_auto_update_exec (lock : Bool) (outcome : SaveOutcome) (enabled : Bool)
    (s : AppState) :
    Ends (set_auto_update lock outcome enabled)
      (fun _ s' => lock = true ∧ outcome = .durable ∧
        Holds { s.config with auto_update_enabled := enabled } s')
      (fun e s' => e.committed = false ∧ (s' = s ∧ ¬ (lock = true ∧ outcome = .published) ∨
        lock = true ∧ outcome = .published ∧
          s' = { s with disk := { s.config with auto_update_enabled := enabled } })) s := by
  unfold set_auto_update
  rw [ends_bind]
  cases lock with
  | false => exact ⟨rfl, .inl ⟨rfl, fun h => nomatch h.1⟩⟩
  | true =>
    cases outcome with
    | failed => exact ⟨rfl, .inl ⟨rfl, fun h => nomatch h.2⟩⟩
    | published => exact ⟨rfl, .inr ⟨rfl, rfl, rfl⟩⟩
    | durable => exact ⟨rfl, rfl, rfl, rfl⟩

section

variable [RegexEngine] [Management] [Idna]

/-- What a request does to the state. -/
def Request.run (set : Settings) : Request → Control Unit
  | .operation op faults => op.run set faults
  | .auto_update lock outcome enabled => set_auto_update lock outcome enabled

/-- The configuration that is asked for. -/
def Request.next : Request → ControllerConfig → Except String ControllerConfig
  | .operation op _, config => do
    let edit ← op.edit
    return (← edit.normalized config).1
  | .auto_update _ _ enabled, config => .ok { config with auto_update_enabled := enabled }

/-- The answer to a request says what memory and disk hold. -/
def Truthful (request : Request) (before : ControllerConfig) :
    Except Failure Unit → AppState → Prop
  | .ok (), s => ∃ next, request.next before = .ok next ∧ Holds next s
  | .error e, s =>
    if e.committed then
      ∃ next, request.next before = .ok next ∧ Holds next s ∧ s.routing_degraded = true
    else Holds before s

/-- A changed setting whose file is renamed into place, and whose directory is then not synced. -/
def Request.Unsynced : Request → ControllerConfig → Prop
  | .operation _ _, _ => False
  | .auto_update lock outcome enabled, config =>
    lock = true ∧ outcome = .published ∧ enabled ≠ config.auto_update_enabled

variable {set : Settings} {s s' : AppState}

omit [RegexEngine] in
theorem Operation.next_eq_ok {op : Operation} {faults : UpdateFaults} {edit : Edit}
    {config next : ControllerConfig} {change : Change} (hop : op.edit = .ok edit)
    (hn : edit.normalized config = .ok (next, change)) :
    (Request.operation op faults).next config = .ok next := by
  simp only [Request.next, hop, bind, Except.bind, hn]
  rfl

/-- **The answers of `update_config` are truthful**, whatever fails. -/
theorem Operation.truthful {op : Operation} {faults : UpdateFaults} {res : Except Failure Unit}
    (hm : s.disk = s.config) (h : op.Outcome set s res s') :
    Truthful (.operation op faults) s.config res s' := by
  obtain ⟨e, rfl, he, rfl⟩ | ⟨-, edit, hop, hu⟩ := h
  · simp only [Truthful, he, Bool.false_eq_true, if_false]
    exact ⟨rfl, hm⟩
  cases hu with
  | refused he hs =>
    obtain ⟨caches, rfl, -⟩ := hs
    simp only [Truthful, he, Bool.false_eq_true, if_false]
    exact ⟨rfl, hm⟩
  | saved hn => exact ⟨_, op.next_eq_ok hop hn, rfl, rfl⟩
  | unsynced hn he hk =>
    simp only [Truthful, he, if_true]
    exact ⟨_, op.next_eq_ok hop hn, ⟨rfl, rfl⟩, trivial⟩
  | stuck he hs hg =>
    simp only [Truthful, he, Bool.false_eq_true, if_false]
    exact ⟨hs.config, hs.disk.trans hm⟩
  | rolled_back he hs ha =>
    simp only [Truthful, he, Bool.false_eq_true, if_false]
    exact ⟨hs.config, hs.disk.trans hm⟩
  | applied hn hconfig => exact ⟨_, op.next_eq_ok hop hn, hconfig.1, hconfig.2.1⟩
  | unrefreshed hn he hconfig hd =>
    simp only [Truthful, he, if_true]
    exact ⟨_, op.next_eq_ok hop hn, hconfig, hd⟩

/-- **When the answer to a request is truthful.** -/
theorem request_truthful_iff (request : Request) (hm : s.disk = s.config) :
    Truthful request s.config ((request.run set).exec s).1 ((request.run set).exec s).2 ↔
      ¬ request.Unsynced s.config := by
  cases request with
  | operation op faults =>
    refine ⟨fun _ => not_false, fun _ => ?_⟩
    have hspec := op.run_spec set s faults
    unfold Ends at hspec
    show Truthful _ _ ((op.run set faults).exec s).1 ((op.run set faults).exec s).2
    rcases hres : (op.run set faults).exec s with ⟨e | u, s'⟩
    · rw [hres] at hspec
      exact Operation.truthful hm hspec
    · rw [hres] at hspec
      exact Operation.truthful hm hspec
  | auto_update lock outcome enabled =>
    have hspec := set_auto_update_exec lock outcome enabled s
    unfold Ends at hspec
    show Truthful _ _ ((set_auto_update lock outcome enabled).exec s).1
      ((set_auto_update lock outcome enabled).exec s).2 ↔ _
    rcases hres : (set_auto_update lock outcome enabled).exec s with ⟨e | u, s'⟩
    · rw [hres] at hspec
      obtain ⟨he, ⟨rfl, hno⟩ | ⟨hlock, hout, rfl⟩⟩ := hspec
      · simp only [Truthful, he, Bool.false_eq_true, if_false]
        exact ⟨fun _ h => hno ⟨h.1, h.2.1⟩, fun _ => ⟨rfl, hm⟩⟩
      · simp only [Truthful, he, Bool.false_eq_true, if_false, Request.Unsynced, hlock, hout,
          true_and, not_not, ne_eq]
        constructor
        · rintro ⟨-, hdisk⟩
          exact congrArg ControllerConfig.auto_update_enabled hdisk
        · rintro rfl
          exact ⟨rfl, rfl⟩
    · rw [hres] at hspec
      obtain ⟨hlock, hout, hholds⟩ := hspec
      refine ⟨fun _ h => ?_, fun _ => ⟨_, rfl, hholds⟩⟩
      rw [hout] at h
      cases h.2.1

end

/-- `request_truthful_iff` for a saved setting. -/
theorem request_truthful_sample :
    letI := sampleRegex
    letI := sampleIdna
    letI := sampleManagement
    Truthful (.auto_update true .durable true) sampleConfig
      (((Request.auto_update true .durable true).run sampleSettings).exec sampleState).1
      (((Request.auto_update true .durable true).run sampleSettings).exec sampleState).2 :=
  letI := sampleRegex
  letI := sampleIdna
  letI := sampleManagement
  (@request_truthful_iff _ _ _ sampleSettings sampleState
    (.auto_update true .durable true) rfl).mpr fun h => nomatch h.2.1

/-- A plain error, and the disk holds the new setting. -/
theorem auto_update_misreported :
    letI := sampleRegex
    letI := sampleIdna
    letI := sampleManagement
    sampleState.disk = sampleState.config ∧
      ¬ Truthful (.auto_update true .published true) sampleState.config
        (((Request.auto_update true .published true).run sampleSettings).exec sampleState).1
        (((Request.auto_update true .published true).run sampleSettings).exec sampleState).2 := by
  let _ := sampleRegex
  let _ := sampleIdna
  let _ := sampleManagement
  refine ⟨rfl, ?_⟩
  rintro ⟨-, hdisk⟩
  cases congrArg ControllerConfig.auto_update_enabled hdisk

end Gofro.Agent
