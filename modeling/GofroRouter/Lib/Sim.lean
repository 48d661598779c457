import Mathlib.Tactic

/-!
# Simulation of fallible computations

`Sim R x y`: a program `x` with error texts and a reference `y` either both fail, or both succeed
with results related by `R`.

* **`Sim.bind`**, `Sim.pure`, `Sim.finish`: how simulations compose.
* `Sim.isSome`, `Sim.isOk`: what a simulation says about success.
* `foldlM_invariant`: the invariant rule for a loop that may fail; `foldlM_isSome` for one that
  does not. `mapM_map`: a list that is read back item by item.
* `exists_of_forall₂_left`, `exists_of_forall₂_right`: the items that related lists pair.
-/

variable {α β γ δ ε : Type}

/-- **Loop invariant**: what holds before the first item and is kept by every item holds at the
end, of the items read so far and the state. -/
theorem foldlM_invariant {f : α → β → Option α} {P : List β → α → Prop}
    (hstep : ∀ bs b a a', P bs a → f a b = some a' → P (bs ++ [b]) a') {bs : List β} {a a' : α}
    (h : P [] a) (hf : bs.foldlM f a = some a') : P bs a' := by
  induction bs using List.reverseRecOn generalizing a' with
  | nil => cases hf; exact h
  | append_singleton bs b ih =>
    rw [List.foldlM_append] at hf
    obtain ⟨c, hc, hf⟩ := Option.bind_eq_some_iff.mp hf
    refine hstep bs b c a' (ih hc) ?_
    simpa using hf

theorem foldlM_same {f : α → β → Option α} {a : α} {bs : List β}
    (h : ∀ b ∈ bs, f a b = some a) : bs.foldlM f a = some a := by
  induction bs with
  | nil => rfl
  | cons b bs ih =>
    rw [List.foldlM_cons, h b List.mem_cons_self]
    exact ih fun b hb => h b (List.mem_cons_of_mem _ hb)

theorem foldlM_isSome {f : α → β → Option α} {bs : List β}
    (h : ∀ a, ∀ b ∈ bs, (f a b).isSome = true) (a : α) : (bs.foldlM f a).isSome = true := by
  induction bs generalizing a with
  | nil => rfl
  | cons b bs ih =>
    obtain ⟨c, hc⟩ := Option.isSome_iff_exists.mp (h a b List.mem_cons_self)
    rw [List.foldlM_cons, hc]
    exact ih (fun a b hb => h a b (List.mem_cons_of_mem _ hb)) c

/-- What every item of a list is read back from, the list is read back from. -/
theorem mapM_map {f : α → β} {g : β → Option α} {as : List α} (h : ∀ a ∈ as, g (f a) = some a) :
    (as.map f).mapM g = some as := by
  induction as with
  | nil => rfl
  | cons a as ih =>
    rw [List.map_cons, List.mapM_cons, h a List.mem_cons_self,
      ih fun b hb => h b (List.mem_cons_of_mem _ hb)]
    rfl

section

variable {R : α → β → Prop} {as : List α} {bs : List β}

theorem exists_of_forall₂_left (h : List.Forall₂ R as bs) {a : α} (ha : a ∈ as) :
    ∃ b ∈ bs, R a b := by
  obtain ⟨i, hi, rfl⟩ := List.getElem_of_mem ha
  exact ⟨_, List.getElem_mem (h.length_eq ▸ hi), h.get hi _⟩

theorem exists_of_forall₂_right (h : List.Forall₂ R as bs) {b : β} (hb : b ∈ bs) :
    ∃ a ∈ as, R a b := exists_of_forall₂_left h.flip hb

end

/-- Both fail, or both succeed with related results. -/
inductive Sim (R : α → β → Prop) : Except ε α → Option β → Prop
  | ok {a : α} {b : β} (h : R a b) : Sim R (.ok a) (some b)
  | error (e : ε) : Sim R (.error e) none

namespace Sim

theorem pure {R : α → β → Prop} {a : α} {b : β} (h : R a b) :
    Sim R (Pure.pure a : Except ε α) (some b) := .ok h

theorem mono {R S : α → β → Prop} {x : Except ε α} {y : Option β} (h : Sim R x y)
    (hi : ∀ a b, R a b → S a b) : Sim S x y := by
  cases h with
  | ok h => exact .ok (hi _ _ h)
  | error e => exact .error e

/-- **Simulations compose in sequence.** -/
theorem bind {R : α → β → Prop} {S : γ → δ → Prop} {x : Except ε α} {y : Option β}
    {k : α → Except ε γ} {l : β → Option δ} (h : Sim R x y)
    (hk : ∀ a b, R a b → Sim S (k a) (l b)) : Sim S (x >>= k) (y.bind l) := by
  cases h with
  | ok h => exact hk _ _ h
  | error e => exact .error e

theorem finish {R : α → β → Prop} {S : γ → β → Prop} {x : Except ε α} {y : Option β}
    {k : α → Except ε γ} (h : Sim R x y) (hk : ∀ a b, R a b → ∃ c, k a = .ok c ∧ S c b) :
    Sim S (x >>= k) y := by
  cases h with
  | ok h =>
    obtain ⟨c, hc, hs⟩ := hk _ _ h
    show Sim S (k _) _
    rw [hc]
    exact .ok hs
  | error e => exact .error e

theorem isSome {R : α → β → Prop} {a : α} {y : Option β} (h : Sim R (.ok a : Except ε α) y) :
    ∃ b, y = some b ∧ R a b := by
  cases h with
  | ok h => exact ⟨_, rfl, h⟩

theorem isOk {R : α → β → Prop} {b : β} {x : Except ε α} (h : Sim R x (some b)) :
    ∃ a, x = .ok a ∧ R a b := by
  cases h with
  | ok h => exact ⟨_, rfl, h⟩

theorem isError {R : α → β → Prop} {x : Except ε α} (h : Sim R x none) : ∃ e, x = .error e := by
  cases h with
  | error e => exact ⟨e, rfl⟩

end Sim
