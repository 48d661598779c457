import Mathlib.Tactic.TypeStar

/-!
# Fallible operations on a state

An operation changes a state and ends with a value or with an error; an error keeps the state that
was reached. `Ends m P E s`: from `s`, the operation ends with a value and a state in `P`, or with an
error and a state in `E`.

* `ends_pure`, `ends_bind`, `ends_attempt`: the rules for the parts of an operation.
* `Ends.mono`: a weaker postcondition; `Ends.bind`: one operation after another.
-/

namespace Fallible

variable {σ ε α β : Type}

/-- An operation with state `σ` and errors `ε`. -/
abbrev Op (σ ε α : Type) := ExceptT ε (StateM σ) α

/-- The outcome of an operation and the state after it. -/
def Op.exec (m : Op σ ε α) (s : σ) : Except ε α × σ := m s

theorem Op.exec_eq {m : Op σ ε α} {s : σ} {x : Except ε α} (h : (m.exec s).1 = x) :
    m.exec s = (x, (m.exec s).2) := Prod.ext h rfl

/-- An operation given by its outcome and state. -/
def Op.of (f : σ → Except ε α × σ) : Op σ ε α := f

/-- The outcome as a value: the operation itself does not fail. -/
def attempt (m : Op σ ε α) : Op σ ε (Except ε α) := Op.of fun s => (.ok (m.exec s).1, (m.exec s).2)

/-- Whichever way `m` ends from `s`, what is said of that way holds. -/
def Ends (m : Op σ ε α) (P : α → σ → Prop) (E : ε → σ → Prop) (s : σ) : Prop :=
  match m.exec s with
  | (.ok a, s') => P a s'
  | (.error e, s') => E e s'

variable {m : Op σ ε α} {f : α → Op σ ε β} {P P' : α → σ → Prop} {Q : β → σ → Prop}
  {E E' : ε → σ → Prop} {s : σ}

theorem Ends.mono (h : Ends m P E s) (hP : ∀ a s', P a s' → P' a s')
    (hE : ∀ e s', E e s' → E' e s') : Ends m P' E' s := by
  unfold Ends at h ⊢
  split at h
  · exact hP _ _ h
  · exact hE _ _ h

theorem ends_trivial : Ends m (fun _ _ => True) (fun _ _ => True) s := by
  unfold Ends
  split <;> trivial

theorem ends_pure {a : α} : Ends (pure a) P E s ↔ P a s := Iff.rfl

theorem ends_bind : Ends (m >>= f) Q E s ↔ Ends m (fun a s' => Ends (f a) Q E s') E s := by
  have h : (m >>= f).exec s = match m.exec s with
      | (.ok a, s') => (f a).exec s'
      | (.error e, s') => (.error e, s') := by
    show (ExceptT.bind m f) s = _
    simp only [ExceptT.bind, ExceptT.mk, bind, StateT.bind, Op.exec]
    rcases m s with ⟨a | e, s'⟩ <;> rfl
  unfold Ends
  rw [h]
  rcases m.exec s with ⟨a | e, s'⟩ <;> rfl

theorem Ends.bind (h : Ends m P E s) (hf : ∀ a s', P a s' → Ends (f a) Q E s') :
    Ends (m >>= f) Q E s :=
  ends_bind.mpr (h.mono hf fun _ _ he => he)

theorem Ends.imp (h : Ends m P E s) (hP : ∀ a s', P a s' → P' a s') : Ends m P' E s :=
  h.mono hP fun _ _ he => he

theorem ends_of {g : σ → Except ε α × σ} : Ends (Op.of g) P E s ↔
    match g s with
    | (.ok a, s') => P a s'
    | (.error e, s') => E e s' := Iff.rfl

theorem ends_attempt {P : Except ε α → σ → Prop} : Ends (attempt m) P E s ↔
    Ends m (fun a s' => P (.ok a) s') (fun e s' => P (.error e) s') s := by
  unfold Ends attempt
  simp only [Op.of, Op.exec]
  rcases m s with ⟨a | e, s'⟩ <;> rfl

theorem ends_get {P : σ → σ → Prop} : Ends (get : Op σ ε σ) P E s ↔ P s s := Iff.rfl

theorem ends_modify {g : σ → σ} {P : Unit → σ → Prop} :
    Ends (modify g : Op σ ε Unit) P E s ↔ P () (g s) := Iff.rfl

theorem Ends.ok (h : Ends m P E s) {a : α} {s' : σ} (he : m.exec s = (.ok a, s')) : P a s' := by
  unfold Ends at h
  rwa [he] at h

theorem Ends.error (h : Ends m P E s) {e : ε} {s' : σ} (he : m.exec s = (.error e, s')) :
    E e s' := by
  unfold Ends at h
  rwa [he] at h

theorem Ends.state {P : σ → Prop} (h : Ends m (fun _ => P) (fun _ => P) s) : P (m.exec s).2 := by
  unfold Ends at h
  rcases hm : m.exec s with ⟨e | a, s'⟩
  · rw [hm] at h
    exact h
  · rw [hm] at h
    exact h

end Fallible
