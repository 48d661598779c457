import Mathlib.Data.List.Nodup
import Mathlib.Tactic

/-!
# Tables with a primary key and a unique column

A table of rows in which no two rows share their primary key, nor the value of a second unique
column, as an SQL table with both constraints.

* `insert?` fails on a conflict; `update` changes other columns, `delete` drops rows.
* `mem_insert?`, `mem_update`, `mem_delete`: the rows after each of them.
-/

/-- Rows with distinct primary keys and distinct unique columns. -/
structure Keyed {R κ μ : Type} (pk : R → κ) (uk : R → μ) where
  rows : List R
  primary_key : (rows.map pk).Nodup
  unique : (rows.map uk).Nodup

namespace Keyed

variable {R κ μ : Type} {pk : R → κ} {uk : R → μ}

instance : Membership R (Keyed pk uk) := ⟨fun t r => r ∈ t.rows⟩

theorem mem_def {t : Keyed pk uk} {r : R} : r ∈ t ↔ r ∈ t.rows := Iff.rfl

def empty : Keyed pk uk := ⟨[], List.nodup_nil, List.nodup_nil⟩

/-- Add a row, unless a row with one of its keys is there. -/
def insert? [DecidableEq κ] [DecidableEq μ] (t : Keyed pk uk) (r : R) : Option (Keyed pk uk) :=
  if h : pk r ∉ t.rows.map pk ∧ uk r ∉ t.rows.map uk then
    some ⟨t.rows ++ [r],
      by rw [List.map_append]; exact List.nodup_append.mpr ⟨t.primary_key, List.nodup_singleton _,
        by rintro a ha b hb rfl; exact h.1 (List.mem_singleton.mp hb ▸ ha)⟩,
      by rw [List.map_append]; exact List.nodup_append.mpr ⟨t.unique, List.nodup_singleton _,
        by rintro a ha b hb rfl; exact h.2 (List.mem_singleton.mp hb ▸ ha)⟩⟩
  else none

/-- Change rows without their keys. -/
def update (t : Keyed pk uk) (f : R → R) (hpk : ∀ r, pk (f r) = pk r)
    (huk : ∀ r, uk (f r) = uk r) : Keyed pk uk :=
  ⟨t.rows.map f, by simpa [Function.comp_def, hpk] using t.primary_key,
    by simpa [Function.comp_def, huk] using t.unique⟩

/-- Drop the rows that satisfy `p`. -/
def delete (t : Keyed pk uk) (p : R → Bool) : Keyed pk uk :=
  ⟨t.rows.filter fun r => !p r, t.primary_key.sublist (List.filter_sublist.map _),
    t.unique.sublist (List.filter_sublist.map _)⟩

section

variable [DecidableEq κ] [DecidableEq μ]

theorem mem_insert? {t t' : Keyed pk uk} {r s : R} (h : t.insert? r = some t') :
    s ∈ t' ↔ s ∈ t ∨ s = r := by
  unfold insert? at h
  split_ifs at h
  cases h
  rw [mem_def, List.mem_append, List.mem_singleton]
  rfl

/-- **A row without conflicts is accepted.** -/
theorem insert?_isSome {t : Keyed pk uk} {r : R} (hpk : ∀ s ∈ t, pk s ≠ pk r)
    (huk : ∀ s ∈ t, uk s ≠ uk r) : ∃ t', t.insert? r = some t' := by
  unfold insert?
  refine ⟨_, dif_pos ⟨fun h => ?_, fun h => ?_⟩⟩
  · obtain ⟨s, hs, he⟩ := List.mem_map.mp h
    exact hpk s hs he
  · obtain ⟨s, hs, he⟩ := List.mem_map.mp h
    exact huk s hs he

end

@[simp] theorem mem_update {t : Keyed pk uk} {f : R → R} {hpk : ∀ r, pk (f r) = pk r}
    {huk : ∀ r, uk (f r) = uk r} {s : R} : s ∈ t.update f hpk huk ↔ ∃ r ∈ t, f r = s :=
  List.mem_map

@[simp] theorem mem_delete {t : Keyed pk uk} {p : R → Bool} {s : R} :
    s ∈ t.delete p ↔ s ∈ t ∧ p s = false := by
  rw [mem_def, delete, List.mem_filter, Bool.not_eq_true']
  rfl

end Keyed
