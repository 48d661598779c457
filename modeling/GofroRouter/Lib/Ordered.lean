import Mathlib.Data.List.Sort
import Mathlib.Order.Basic

/-!
# Ordered maps

A map as the list of its entries, in increasing order of their keys.

* `upsert`: an entry is changed, or put into its place first.
* `increasing_upsert`: the order is kept.
* **`mem_upsert`**: the entries after a change. `keys_upsert`: their keys.
-/

namespace Ordered

variable {κ β : Type} [LinearOrder κ] {key : β → κ} {fresh : β} {f : β → β} {l : List β}

/-- The entries are in increasing order of their keys. -/
def Increasing (key : β → κ) (l : List β) : Prop := l.Pairwise fun a b => key a < key b

/-- Changes the entry with the key of `fresh`; if there is none, `fresh` goes in first. -/
def upsert (key : β → κ) (fresh : β) (f : β → β) : List β → List β
  | [] => [f fresh]
  | b :: l =>
    if key fresh < key b then f fresh :: b :: l
    else if key fresh = key b then f b :: l
    else b :: upsert key fresh f l

/-- What is changed: the entry of the key, or the fresh one. -/
def Target (key : β → κ) (fresh : β) (l : List β) (b : β) : Prop :=
  b ∈ l ∧ key b = key fresh ∨ b = fresh ∧ ∀ c ∈ l, key c ≠ key fresh

theorem Increasing.eq_of_key (h : Increasing key l) {a b : β} (ha : a ∈ l) (hb : b ∈ l)
    (he : key a = key b) : a = b := by
  have hnodup : (l.map key).Nodup := List.pairwise_map.mpr (h.imp fun hlt => hlt.ne)
  exact List.inj_on_of_nodup_map hnodup ha hb he

/-- **The entries after a change**: the changed one, and those of other keys. -/
theorem mem_upsert (h : Increasing key l) {b : β} : b ∈ upsert key fresh f l ↔
    (∃ t, Target key fresh l t ∧ b = f t) ∨ b ∈ l ∧ key b ≠ key fresh := by
  induction l with
  | nil => simp [upsert, Target]
  | cons c l ih =>
    obtain ⟨hc, hl⟩ := List.pairwise_cons.mp h
    rw [upsert]
    split_ifs with hlt heq
    · -- the fresh entry goes before all others
      have hne : ∀ a ∈ c :: l, key a ≠ key fresh := by
        intro a ha
        rcases List.mem_cons.mp ha with rfl | ha
        · exact hlt.ne'
        · exact (hlt.trans (hc a ha)).ne'
      have htarget : ∀ t, Target key fresh (c :: l) t ↔ t = fresh := fun t =>
        ⟨fun h => h.elim (fun ⟨hm, he⟩ => absurd he (hne t hm)) And.left, fun h => .inr ⟨h, hne⟩⟩
      simp only [htarget, exists_eq_left, List.mem_cons (a := b) (b := f fresh)]
      exact or_congr_right ⟨fun hm => ⟨hm, hne b hm⟩, And.left⟩
    · have hne : ∀ a ∈ l, key a ≠ key fresh := fun a ha => heq ▸ (hc a ha).ne'
      have htarget : ∀ t, Target key fresh (c :: l) t ↔ t = c := by
        refine fun t => ⟨fun h => ?_, fun h => .inl ⟨h ▸ List.mem_cons_self, h ▸ heq.symm⟩⟩
        rcases h with ⟨hm, he⟩ | ⟨-, hno⟩
        · rcases List.mem_cons.mp hm with rfl | hm
          · rfl
          · exact absurd he (hne t hm)
        · exact absurd heq.symm (hno c List.mem_cons_self)
      simp only [htarget, exists_eq_left, List.mem_cons]
      refine or_congr_right ⟨fun hm => ⟨.inr hm, hne b hm⟩, ?_⟩
      rintro ⟨rfl | hm, he⟩
      · exact absurd heq.symm he
      · exact hm
    · have hc' : key c ≠ key fresh := fun he => heq he.symm
      have htarget : ∀ t, Target key fresh (c :: l) t ↔ Target key fresh l t := by
        intro t
        simp only [Target, List.mem_cons, forall_eq_or_imp]
        refine or_congr ?_ (and_congr_right fun _ => ⟨And.right, fun h => ⟨hc', h⟩⟩)
        refine and_congr_left fun he => ⟨fun hm => hm.resolve_left ?_, .inr⟩
        rintro rfl
        exact hc' he
      simp only [List.mem_cons, ih hl, htarget]
      constructor
      · rintro (rfl | h | ⟨hm, he⟩)
        · exact .inr ⟨.inl rfl, hc'⟩
        · exact .inl h
        · exact .inr ⟨.inr hm, he⟩
      · rintro (h | ⟨rfl | hm, he⟩)
        · exact .inr (.inl h)
        · exact .inl rfl
        · exact .inr (.inr ⟨hm, he⟩)

theorem keys_upsert (h : Increasing key l) (hf : ∀ b, key (f b) = key b) {k : κ} :
    (∃ b ∈ upsert key fresh f l, key b = k) ↔ (∃ b ∈ l, key b = k) ∨ key fresh = k := by
  have htarget : ∀ t, Target key fresh l t → key t = key fresh := by
    rintro t (⟨-, he⟩ | ⟨rfl, -⟩)
    · exact he
    · rfl
  constructor
  · rintro ⟨b, hb, rfl⟩
    rcases (mem_upsert h).mp hb with ⟨t, ht, rfl⟩ | ⟨hm, -⟩
    · exact .inr ((htarget t ht).symm.trans (hf t).symm)
    · exact .inl ⟨b, hm, rfl⟩
  · intro hk
    by_cases hfresh : key fresh = k
    · subst hfresh
      by_cases hin : ∃ b ∈ l, key b = key fresh
      · obtain ⟨b, hb, he⟩ := hin
        exact ⟨f b, (mem_upsert h).mpr (.inl ⟨b, .inl ⟨hb, he⟩, rfl⟩), (hf b).trans he⟩
      · push Not at hin
        exact ⟨f fresh, (mem_upsert h).mpr (.inl ⟨fresh, .inr ⟨rfl, hin⟩, rfl⟩), hf fresh⟩
    · obtain ⟨b, hb, he⟩ := hk.resolve_right hfresh
      exact ⟨b, (mem_upsert h).mpr (.inr ⟨hb, fun hk => hfresh (hk.symm.trans he)⟩), he⟩

theorem increasing_upsert (h : Increasing key l) (hf : ∀ b, key (f b) = key b) :
    Increasing key (upsert key fresh f l) := by
  induction l with
  | nil => exact List.pairwise_singleton _ _
  | cons c l ih =>
    obtain ⟨hc, hl⟩ := List.pairwise_cons.mp h
    rw [upsert]
    split_ifs with hlt heq
    · refine List.pairwise_cons.mpr ⟨fun a ha => ?_, h⟩
      rw [hf]
      rcases List.mem_cons.mp ha with rfl | ha
      · exact hlt
      · exact hlt.trans (hc a ha)
    · exact List.pairwise_cons.mpr ⟨fun a ha => (hf c).symm ▸ hc a ha, hl⟩
    · refine List.pairwise_cons.mpr ⟨fun a ha => ?_, ih hl⟩
      rcases (mem_upsert hl).mp ha with ⟨t, ht, rfl⟩ | ⟨hm, -⟩
      · rw [hf]
        rcases ht with ⟨hm, -⟩ | ⟨rfl, -⟩
        · exact hc t hm
        · exact lt_of_le_of_ne (not_lt.mp hlt) (Ne.symm heq)
      · exact hc a hm

theorem Increasing.ext {l' : List β} (h : Increasing key l) (h' : Increasing key l')
    (he : ∀ b, b ∈ l ↔ b ∈ l') : l = l' := by
  have : Std.Irrefl fun a b : β => key a < key b := ⟨fun a => lt_irrefl (key a)⟩
  have : Std.Antisymm fun a b : β => key a < key b :=
    ⟨fun a b hab hba => absurd hab hba.asymm⟩
  exact List.Pairwise.eq_of_mem_iff h h' he

end Ordered
