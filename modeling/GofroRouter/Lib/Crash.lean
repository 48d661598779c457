import GofroRouter.Lib.Fallible
import Mathlib.Tactic

/-!
# Commands that fail or are killed

A command changes the state when it is done; when it fails or when the program is killed at it, any
part of its change may have been made. Errors can be recovered from, a killed program cannot.

* `command`, `recover`: one command, and a block with a handler for its errors.
* `ends_command`, `ends_recover`: the rules for them.
* `run`, `Along`, **`Along.invariant`**: sequences of events, and what all of their states keep.
-/

namespace Fallible

variable {σ ε α β ι : Type}

/-- Why an operation stopped. -/
inductive Stop (ε : Type)
  | error (e : ε)
  | killed
deriving DecidableEq

/-- How a command ends; `progress` says how much of its change was made if it was not done. -/
inductive Outcome
  | done
  | failed (progress : ℕ)
  | killed (progress : ℕ)
deriving DecidableEq

/-- A command with the change it makes, `partly progress` if it stops on the way. -/
def command (outcome : Outcome) (error : ε) (partly : ℕ → σ → σ) (full : σ → σ) :
    Op σ (Stop ε) Unit :=
  match outcome with
  | .done => modify full
  | .failed progress => do
    modify (partly progress)
    throw (.error error)
  | .killed progress => do
    modify (partly progress)
    throw .killed

/-- A command that changes nothing. -/
def query (outcome : Outcome) (error : ε) : Op σ (Stop ε) Unit :=
  command outcome error (fun _ => id) id

/-- A change that is made as a whole or not at all. -/
def whole (full : σ → σ) (progress : ℕ) : σ → σ := if progress = 0 then id else full

/-- A block, and what is done when it fails. -/
def recover (block : Op σ (Stop ε) α) (handler : ε → Op σ (Stop ε) α) : Op σ (Stop ε) α := do
  match ← attempt block with
  | .ok a => pure a
  | .error .killed => throw .killed
  | .error (.error e) => handler e

variable {P : α → σ → Prop} {E : Stop ε → σ → Prop} {s : σ}

theorem ends_command {outcome : Outcome} {error : ε} {partly : ℕ → σ → σ} {full : σ → σ}
    {P : Unit → σ → Prop} : Ends (command outcome error partly full) P E s ↔
    match outcome with
    | .done => P () (full s)
    | .failed progress => E (.error error) (partly progress s)
    | .killed progress => E .killed (partly progress s) := by
  cases outcome <;> rfl

theorem ends_command_of {outcome : Outcome} {error : ε} {partly : ℕ → σ → σ} {full : σ → σ}
    {P : Unit → σ → Prop} {Q : σ → Prop} (hP : P () (full s)) (hQ : ∀ n, Q (partly n s)) :
    Ends (command outcome error partly full) P (fun _ => Q) s := by
  rw [ends_command]
  cases outcome with
  | done => exact hP
  | failed n => exact hQ n
  | killed n => exact hQ n

theorem ends_query {outcome : Outcome} {error : ε} {P : Unit → σ → Prop} :
    Ends (query outcome error) P E s ↔
    match outcome with
    | .done => P () s
    | .failed _ => E (.error error) s
    | .killed _ => E .killed s := by
  cases outcome <;> rfl

theorem ends_query_of {outcome : Outcome} {error : ε} {P : Unit → σ → Prop} (hP : P () s)
    (hE : ∀ stop, E stop s) : Ends (query outcome error) P E s := by
  rw [ends_query]
  cases outcome with
  | done => exact hP
  | failed _ => exact hE _
  | killed _ => exact hE _

theorem ends_recover {block : Op σ (Stop ε) α} {handler : ε → Op σ (Stop ε) α} :
    Ends (recover block handler) P E s ↔
    Ends block P (fun stop s' => match stop with
      | .killed => E .killed s'
      | .error e => Ends (handler e) P E s') s := by
  rw [recover, ends_bind, ends_attempt]
  unfold Ends
  rcases block.exec s with ⟨a | e, s'⟩
  · cases a <;> rfl
  · rfl

theorem whole_cases (full : σ → σ) (progress : ℕ) (s : σ) :
    whole full progress s = s ∨ whole full progress s = full s := by
  unfold whole
  split_ifs
  · exact .inl rfl
  · exact .inr rfl

/-! ## Runs -/

section

variable (step : σ → ι → σ)

/-- The state after a sequence of events. -/
def run (s : σ) (events : List ι) : σ := events.foldl step s

theorem run_append (s : σ) (events later : List ι) :
    run step s (events ++ later) = run step (run step s events) later := List.foldl_append

/-- Each event meets a condition on the state that it happens in. -/
def Along (allowed : σ → ι → Prop) : σ → List ι → Prop
  | _, [] => True
  | s, e :: es => allowed s e ∧ Along allowed (step s e) es

variable {step} {allowed : σ → ι → Prop} {Inv : σ → Prop} {events : List ι}

theorem along_of_forall {p : ι → Prop} (h : ∀ e ∈ events, p e) : Along step (fun _ => p) s events := by
  induction events generalizing s with
  | nil => trivial
  | cons e es ih =>
    exact ⟨h e List.mem_cons_self, ih fun d hd => h d (List.mem_cons_of_mem _ hd)⟩

theorem Along.and {allowed' : σ → ι → Prop} (h : Along step allowed s events)
    (h' : Along step allowed' s events) : Along step (fun s e => allowed s e ∧ allowed' s e) s events := by
  induction events generalizing s with
  | nil => trivial
  | cons e es ih => exact ⟨⟨h.1, h'.1⟩, ih h.2 h'.2⟩

/-- **What each allowed event keeps, a run keeps.** -/
theorem Along.invariant (hstep : ∀ s e, allowed s e → Inv s → Inv (step s e))
    (h : Along step allowed s events) (hs : Inv s) : Inv (run step s events) := by
  induction events generalizing s with
  | nil => exact hs
  | cons e es ih => exact ih h.2 (hstep s e h.1 hs)

end

end Fallible
