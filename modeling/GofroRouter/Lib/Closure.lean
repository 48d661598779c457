import Mathlib.Data.Finset.Card
import Mathlib.Logic.Relation

/-!
# Closure under a list of edges

A loop that goes over a list of edges until a pass adds nothing: `pass` is one pass, `saturate` the
loop.

* `pass_subset`, `mem_pass`: a pass adds targets of edges only.
* `missing_pass`: a pass that adds something leaves fewer targets outside.
* **`mem_saturate`**: the loop finds exactly what can be reached along the edges.
-/

namespace Closure

open Relation

variable {α : Type} [DecidableEq α] {edges : List (α × α)} {s : Finset α} {a b : α}

/-- The edges as a relation. -/
def Edge (edges : List (α × α)) (a b : α) : Prop := (a, b) ∈ edges

/-- One pass; an edge sees what the edges before it added. -/
def pass (edges : List (α × α)) (s : Finset α) : Finset α :=
  edges.foldl (fun s e => if e.1 ∈ s then insert e.2 s else s) s

/-- Passes until one adds nothing, at most `fuel` of them. -/
def saturate (edges : List (α × α)) : ℕ → Finset α → Finset α
  | 0, s => s
  | fuel + 1, s => if pass edges s = s then s else saturate edges fuel (pass edges s)

/-- The edges whose target is outside. -/
def missing (edges : List (α × α)) (s : Finset α) : List (α × α) := edges.filter fun e => e.2 ∉ s

theorem subset_pass : s ⊆ pass edges s := by
  induction edges generalizing s with
  | nil => exact Finset.Subset.refl s
  | cons e edges ih =>
    rw [pass, List.foldl_cons]
    split_ifs
    · exact (Finset.subset_insert e.2 s).trans ih
    · exact ih

theorem target_mem_pass (he : Edge edges a b) (ha : a ∈ s) : b ∈ pass edges s := by
  induction edges generalizing s with
  | nil => cases he
  | cons e edges ih =>
    rw [pass, List.foldl_cons]
    rcases List.mem_cons.mp he with rfl | he
    · rw [if_pos ha]
      exact subset_pass (Finset.mem_insert_self b s)
    · split_ifs
      · exact ih he (Finset.mem_insert_of_mem ha)
      · exact ih he ha

theorem mem_pass (h : b ∈ pass edges s) : b ∈ s ∨
    (∃ e ∈ edges, e.2 = b) ∧ ∃ a ∈ s, ReflTransGen (Edge edges) a b := by
  have hgo : ∀ (es : List (α × α)) (t : Finset α), es ⊆ edges →
      (∀ x ∈ t, x ∈ s ∨ (∃ e ∈ edges, e.2 = x) ∧ ∃ a ∈ s, ReflTransGen (Edge edges) a x) →
      ∀ x ∈ pass es t, x ∈ s ∨ (∃ e ∈ edges, e.2 = x) ∧
        ∃ a ∈ s, ReflTransGen (Edge edges) a x := by
    intro es
    induction es with
    | nil => intro t _ ht x hx; exact ht x hx
    | cons e es ih =>
      intro t hs ht x hx
      rw [pass, List.foldl_cons] at hx
      have hmem : e ∈ edges := hs List.mem_cons_self
      have hes : es ⊆ edges := fun y hy => hs (List.mem_cons_of_mem e hy)
      by_cases he : e.1 ∈ t
      · rw [if_pos he] at hx
        refine ih _ hes (fun y hy => ?_) x hx
        rcases Finset.mem_insert.mp hy with rfl | hy
        · refine .inr ⟨⟨e, hmem, rfl⟩, ?_⟩
          rcases ht e.1 he with hs | ⟨-, a, ha, hr⟩
          · exact ⟨e.1, hs, .single hmem⟩
          · exact ⟨a, ha, hr.tail hmem⟩
        · exact ht y hy
      · rw [if_neg he] at hx
        exact ih t hes ht x hx
  exact hgo edges s (fun _ h => h) (fun x hx => .inl hx) b h

/-- **Progress**: a pass that adds something leaves fewer targets outside. -/
theorem missing_pass (h : pass edges s ≠ s) :
    (missing edges (pass edges s)).length < (missing edges s).length := by
  obtain ⟨b, hb, hno⟩ : ∃ b ∈ pass edges s, b ∉ s := by
    by_contra hall
    push Not at hall
    exact h (Finset.Subset.antisymm hall subset_pass)
  obtain ⟨e, he, rfl⟩ := ((mem_pass hb).resolve_left hno).1
  have hsub : (missing edges (pass edges s)).Sublist (missing edges s) := by
    refine List.monotone_filter_right edges fun x hx => ?_
    simp only [decide_eq_true_eq] at hx ⊢
    exact fun hs => hx (subset_pass hs)
  refine lt_of_le_of_ne hsub.length_le fun hlen => ?_
  have hmem : e ∈ missing edges s := List.mem_filter.mpr ⟨he, by simpa using hno⟩
  rw [← hsub.eq_of_length hlen] at hmem
  exact absurd hb (by simpa using (List.mem_filter.mp hmem).2)

theorem subset_saturate (fuel : ℕ) : s ⊆ saturate edges fuel s := by
  induction fuel generalizing s with
  | zero => exact Finset.Subset.refl s
  | succ fuel ih =>
    rw [saturate]
    split_ifs
    · exact Finset.Subset.refl s
    · exact subset_pass.trans ih

theorem saturate_closed {fuel : ℕ} (hfuel : (missing edges s).length ≤ fuel)
    (he : Edge edges a b) (ha : a ∈ saturate edges fuel s) : b ∈ saturate edges fuel s := by
  induction fuel generalizing s with
  | zero =>
    have hnil : missing edges s = [] := List.eq_nil_of_length_eq_zero (Nat.le_zero.mp hfuel)
    have hb := List.filter_eq_nil_iff.mp hnil (a, b) he
    rw [decide_eq_true_eq, not_not] at hb
    exact hb
  | succ fuel ih =>
    rw [saturate] at ha ⊢
    by_cases hp : pass edges s = s
    · rw [if_pos hp] at ha ⊢
      rw [← hp]
      exact target_mem_pass he ha
    · rw [if_neg hp] at ha ⊢
      have := missing_pass hp
      exact ih (by omega) ha

theorem reached_of_mem_saturate (fuel : ℕ) (h : b ∈ saturate edges fuel s) :
    ∃ a ∈ s, ReflTransGen (Edge edges) a b := by
  induction fuel generalizing s with
  | zero => exact ⟨b, h, .refl⟩
  | succ fuel ih =>
    rw [saturate] at h
    split_ifs at h
    · exact ⟨b, h, .refl⟩
    · obtain ⟨c, hc, hr⟩ := ih h
      rcases mem_pass hc with hs | ⟨-, a, ha, hac⟩
      · exact ⟨c, hs, hr⟩
      · exact ⟨a, ha, hac.trans hr⟩

/-- **The loop finds exactly what can be reached**, within as many passes as there are edges. -/
theorem mem_saturate {fuel : ℕ} (hfuel : edges.length ≤ fuel) :
    b ∈ saturate edges fuel s ↔ ∃ a ∈ s, ReflTransGen (Edge edges) a b := by
  refine ⟨reached_of_mem_saturate fuel, ?_⟩
  rintro ⟨a, ha, hr⟩
  have hle : (missing edges s).length ≤ fuel := (List.length_filter_le _ _).trans hfuel
  induction hr with
  | refl => exact subset_saturate fuel ha
  | tail _ he ih => exact saturate_closed hle he ih

theorem saturate_eq_iterate (fuel : ℕ) :
    ∃ passes ≤ fuel, saturate edges fuel s = (pass edges)^[passes] s := by
  induction fuel generalizing s with
  | zero => exact ⟨0, le_rfl, rfl⟩
  | succ fuel ih =>
    rw [saturate]
    split_ifs
    · exact ⟨0, Nat.zero_le _, rfl⟩
    · obtain ⟨passes, hle, he⟩ := ih (s := pass edges s)
      exact ⟨passes + 1, Nat.succ_le_succ hle, he⟩

/-- **With enough fuel the loop has ended**: one more pass adds nothing. -/
theorem pass_saturate {fuel : ℕ} (hfuel : (missing edges s).length ≤ fuel) :
    pass edges (saturate edges fuel s) = saturate edges fuel s := by
  refine Finset.Subset.antisymm (fun b hb => ?_) subset_pass
  rcases mem_pass hb with h | ⟨-, a, ha, hr⟩
  · exact h
  · clear hb
    induction hr with
    | refl => exact ha
    | tail _ he ih => exact saturate_closed hfuel he ih

end Closure
