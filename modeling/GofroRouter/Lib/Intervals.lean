import Mathlib.Tactic

/-!
# Lists of intervals

A set of natural numbers as a list of intervals with their ends, in increasing order.

* `Ordered`, `Apart`: intervals that do not overlap; intervals that do not even touch.
* **`Apart.ext`**: a set is the union of one list of intervals that do not touch;
  **`Apart.mem_iff`**: its longest ones.
* `merge`: joins the intervals that touch (`apart_merge`, `covers_merge`); `length_merge` counts
  what is left.
-/

namespace Intervals

/-- The number is in one of the intervals. -/
def Covers (l : List (ℕ × ℕ)) (x : ℕ) : Prop := ∃ p ∈ l, p.1 ≤ x ∧ x ≤ p.2

/-- Each interval ends before the next ones start. -/
def Ordered (l : List (ℕ × ℕ)) : Prop :=
  (∀ p ∈ l, p.1 ≤ p.2) ∧ l.Pairwise fun p q => p.2 < q.1

/-- There is a gap between an interval and the next ones. -/
def Apart (l : List (ℕ × ℕ)) : Prop :=
  (∀ p ∈ l, p.1 ≤ p.2) ∧ l.Pairwise fun p q => p.2 + 1 < q.1

theorem covers_cons {p : ℕ × ℕ} {l : List (ℕ × ℕ)} {x : ℕ} :
    Covers (p :: l) x ↔ (p.1 ≤ x ∧ x ≤ p.2) ∨ Covers l x := List.exists_mem_cons_iff ..

theorem ordered_cons {p : ℕ × ℕ} {l : List (ℕ × ℕ)} :
    Ordered (p :: l) ↔ p.1 ≤ p.2 ∧ (∀ q ∈ l, p.2 < q.1) ∧ Ordered l := by
  simp only [Ordered, List.forall_mem_cons, List.pairwise_cons]
  tauto

theorem apart_cons {p : ℕ × ℕ} {l : List (ℕ × ℕ)} :
    Apart (p :: l) ↔ p.1 ≤ p.2 ∧ (∀ q ∈ l, p.2 + 1 < q.1) ∧ Apart l := by
  simp only [Apart, List.forall_mem_cons, List.pairwise_cons]
  tauto

/-! ## Uniqueness -/

/-- The first interval starts at the least number and ends at the first gap. -/
theorem Apart.head_unique {p q : ℕ × ℕ} {l m : List (ℕ × ℕ)} (hp : Apart (p :: l))
    (hq : Apart (q :: m)) (h : ∀ x, Covers (p :: l) x ↔ Covers (q :: m) x) :
    q.1 ≤ p.1 ∧ p.2 ≤ q.2 := by
  obtain ⟨hp, hpl, -⟩ := apart_cons.mp hp
  obtain ⟨hq, hqm, -⟩ := apart_cons.mp hq
  have hstart : q.1 ≤ p.1 := by
    rcases covers_cons.mp ((h p.1).mp (covers_cons.mpr (.inl ⟨le_rfl, hp⟩))) with h | ⟨r, hr, h⟩
    · exact h.1
    · have := hqm r hr
      omega
  refine ⟨hstart, ?_⟩
  by_contra hlt
  -- the number after `q` lies in `p`, but in no interval of the other list
  have hgap : p.1 ≤ q.2 + 1 := by
    by_contra hfar
    rcases covers_cons.mp ((h q.1).mpr (covers_cons.mpr (.inl ⟨le_rfl, hq⟩))) with h | ⟨r, hr, h⟩
    · omega
    · have := hpl r hr
      omega
  rcases covers_cons.mp ((h (q.2 + 1)).mp (covers_cons.mpr (.inl ⟨hgap, by omega⟩)))
    with h | ⟨r, hr, h⟩
  · omega
  · have := hqm r hr
    omega

theorem Apart.covers_tail {p : ℕ × ℕ} {l : List (ℕ × ℕ)} (h : Apart (p :: l)) (x : ℕ) :
    Covers l x ↔ Covers (p :: l) x ∧ p.2 < x := by
  obtain ⟨hp, hpl, -⟩ := apart_cons.mp h
  rw [covers_cons]
  constructor
  · intro hx
    obtain ⟨r, hr, hrx⟩ := hx
    have := hpl r hr
    exact ⟨.inr ⟨r, hr, hrx⟩, by omega⟩
  · rintro ⟨hx | hx, hlt⟩
    · omega
    · exact hx

/-- **Intervals that do not touch are determined by what they cover.** -/
theorem Apart.ext {l m : List (ℕ × ℕ)} (hl : Apart l) (hm : Apart m)
    (h : ∀ x, Covers l x ↔ Covers m x) : l = m := by
  induction l generalizing m with
  | nil =>
    cases m with
    | nil => rfl
    | cons q m =>
      have hq := (apart_cons.mp hm).1
      obtain ⟨r, hr, -⟩ := (h q.1).mpr (covers_cons.mpr (.inl ⟨le_rfl, hq⟩))
      cases hr
  | cons p l ih =>
    cases m with
    | nil =>
      have hp := (apart_cons.mp hl).1
      obtain ⟨r, hr, -⟩ := (h p.1).mp (covers_cons.mpr (.inl ⟨le_rfl, hp⟩))
      cases hr
    | cons q m =>
      have h₁ := hl.head_unique hm h
      have h₂ := hm.head_unique hl fun x => (h x).symm
      obtain rfl : p = q := Prod.ext (by omega) (by omega)
      have htail : ∀ x, Covers l x ↔ Covers m x := fun x => by
        rw [hl.covers_tail, hm.covers_tail, h]
      rw [ih (apart_cons.mp hl).2.2 (apart_cons.mp hm).2.2 htail]

/-! ## The longest intervals of a set -/

/-- An interval of the set that cannot be made longer. -/
structure Longest (S : ℕ → Prop) (p : ℕ × ℕ) : Prop where
  le : p.1 ≤ p.2
  inside : ∀ x, p.1 ≤ x → x ≤ p.2 → S x
  before : ∀ x, x + 1 = p.1 → ¬ S x
  after : ¬ S (p.2 + 1)

theorem Apart.eq_or_gap {l : List (ℕ × ℕ)} (h : Apart l) {p q : ℕ × ℕ} (hp : p ∈ l) (hq : q ∈ l) :
    p = q ∨ p.2 + 1 < q.1 ∨ q.2 + 1 < p.1 := by
  induction l with
  | nil => cases hp
  | cons r l ih =>
    obtain ⟨-, hr, hl⟩ := apart_cons.mp h
    rcases List.mem_cons.mp hp with rfl | hp'
    · rcases List.mem_cons.mp hq with rfl | hq'
      · exact .inl rfl
      · exact .inr (.inl (hr q hq'))
    · rcases List.mem_cons.mp hq with rfl | hq'
      · exact .inr (.inr (hr p hp'))
      · exact ih hl hp' hq'

theorem Apart.longest {l : List (ℕ × ℕ)} (h : Apart l) {p : ℕ × ℕ} (hp : p ∈ l) :
    Longest (Covers l) p where
  le := h.1 p hp
  inside := fun x h₁ h₂ => ⟨p, hp, h₁, h₂⟩
  before := by
    rintro x hx ⟨q, hq, hqx⟩
    have hle := h.1 p hp
    rcases h.eq_or_gap hp hq with rfl | hgap | hgap <;> omega
  after := by
    rintro ⟨q, hq, hqx⟩
    have hle := h.1 p hp
    rcases h.eq_or_gap hp hq with rfl | hgap | hgap <;> omega

/-- **The intervals of a list are the longest ones** of what it covers. -/
theorem Apart.mem_iff {l : List (ℕ × ℕ)} (h : Apart l) {p : ℕ × ℕ} :
    p ∈ l ↔ Longest (Covers l) p := by
  refine ⟨h.longest, fun hp => ?_⟩
  obtain ⟨q, hq, hstart, hend⟩ := hp.inside p.1 le_rfl hp.le
  have hlong := h.longest hq
  have hfirst : q.1 = p.1 := by
    by_contra hne
    exact hp.before (p.1 - 1) (by omega) (hlong.inside _ (by omega) (by omega))
  have hlast : q.2 = p.2 := by
    rcases lt_trichotomy q.2 p.2 with hlt | heq | hlt
    · exact absurd (hp.inside _ (by omega) hlt) hlong.after
    · exact heq
    · have hple := hp.le
      exact absurd (hlong.inside _ (by omega) hlt) hp.after
  rwa [← show q = p from Prod.ext hfirst hlast]

theorem Apart.length_le {l : List (ℕ × ℕ)} (h : Apart l) {bound : ℕ} (hb : ∀ p ∈ l, p.2 < bound) :
    l.length ≤ bound := by
  have hnd : (l.map Prod.fst).Nodup := by
    refine List.pairwise_map.mpr (h.2.imp_of_mem fun {p q} hp _ hgap => ?_)
    have hle := h.1 p hp
    omega
  have hsub : (l.map Prod.fst) ⊆ List.range bound := by
    intro x hx
    obtain ⟨p, hp, rfl⟩ := List.mem_map.mp hx
    exact List.mem_range.mpr (lt_of_le_of_lt (h.1 p hp) (hb p hp))
  have hle := (hnd.subperm hsub).length_le
  rwa [List.length_map, List.length_range] at hle

/-! ## Merging -/

/-- The interval `p` grows over the intervals that touch it. -/
def mergeFrom (p : ℕ × ℕ) : List (ℕ × ℕ) → List (ℕ × ℕ)
  | [] => [p]
  | q :: l => if p.2 + 1 < q.1 then p :: mergeFrom q l else mergeFrom (p.1, q.2) l

/-- Neighbours become one interval. -/
def merge : List (ℕ × ℕ) → List (ℕ × ℕ)
  | [] => []
  | p :: l => mergeFrom p l

/-- The number of gaps between neighbours. -/
def gaps (l : List (ℕ × ℕ)) : ℕ :=
  ((l.zip l.tail).filter fun pair => pair.1.2 + 1 < pair.2.1).length

theorem mergeFrom_spec {p : ℕ × ℕ} {l : List (ℕ × ℕ)} (h : Ordered (p :: l)) :
    Apart (mergeFrom p l) ∧ (∀ q ∈ mergeFrom p l, p.1 ≤ q.1) ∧
      ∀ x, Covers (mergeFrom p l) x ↔ Covers (p :: l) x := by
  induction l generalizing p with
  | nil =>
    obtain ⟨hp, -⟩ := ordered_cons.mp h
    exact ⟨apart_cons.mpr ⟨hp, by simp, by simp [Apart]⟩, by simp [mergeFrom], fun x => Iff.rfl⟩
  | cons q l ih =>
    obtain ⟨hp, hpl, hq⟩ := ordered_cons.mp h
    obtain ⟨hq', hql, hl⟩ := ordered_cons.mp hq
    have hlt := hpl q List.mem_cons_self
    rw [mergeFrom]
    split_ifs with hgap
    · obtain ⟨hapart, hstart, hcovers⟩ := ih hq
      refine ⟨apart_cons.mpr ⟨hp, fun r hr => lt_of_lt_of_le hgap (hstart r hr), hapart⟩, ?_,
        fun x => by rw [covers_cons, hcovers, covers_cons (p := p)]⟩
      intro r hr
      rcases List.mem_cons.mp hr with rfl | hr
      · exact le_rfl
      · have := hstart r hr
        omega
    · have hgrown : Ordered ((p.1, q.2) :: l) := ordered_cons.mpr ⟨by omega, hql, hl⟩
      obtain ⟨hapart, hstart, hcovers⟩ := ih hgrown
      refine ⟨hapart, hstart, fun x => ?_⟩
      have hjoin : (p.1 ≤ x ∧ x ≤ q.2) ↔ (p.1 ≤ x ∧ x ≤ p.2) ∨ (q.1 ≤ x ∧ x ≤ q.2) := by omega
      rw [hcovers, covers_cons, covers_cons, covers_cons, hjoin, or_assoc]

theorem apart_merge {l : List (ℕ × ℕ)} (h : Ordered l) : Apart (merge l) := by
  cases l with
  | nil => exact ⟨h.1, .nil⟩
  | cons p l => exact (mergeFrom_spec h).1

/-- **Merging keeps the numbers.** -/
theorem covers_merge {l : List (ℕ × ℕ)} (h : Ordered l) (x : ℕ) :
    Covers (merge l) x ↔ Covers l x := by
  cases l with
  | nil => rfl
  | cons p l => exact (mergeFrom_spec h).2.2 x

theorem gaps_cons (p q : ℕ × ℕ) (l : List (ℕ × ℕ)) :
    gaps (p :: q :: l) = (if p.2 + 1 < q.1 then 1 else 0) + gaps (q :: l) := by
  simp only [gaps, List.tail_cons, List.zip_cons_cons, List.filter_cons, decide_eq_true_eq]
  split_ifs
  · rw [List.length_cons, Nat.add_comm]
  · rw [Nat.zero_add]

theorem length_mergeFrom (p : ℕ × ℕ) (l : List (ℕ × ℕ)) :
    (mergeFrom p l).length = 1 + gaps (p :: l) := by
  induction l generalizing p with
  | nil => rfl
  | cons q l ih =>
    rw [mergeFrom, gaps_cons]
    split_ifs
    · rw [List.length_cons, ih, Nat.add_comm]
    · rw [ih, Nat.zero_add]
      cases l with
      | nil => rfl
      | cons r l => rw [gaps_cons, gaps_cons]

/-- **One interval more than there are gaps.** -/
theorem length_merge (l : List (ℕ × ℕ)) :
    (merge l).length = (if l.isEmpty then 0 else 1) + gaps l := by
  cases l with
  | nil => rfl
  | cons p l => exact length_mergeFrom p l

end Intervals
