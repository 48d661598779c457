import Mathlib.Computability.RegularExpressions
import Mathlib.Data.List.Basic
import Mathlib.Tactic.Common

/-!
# Patterns with groups

Patterns that have to match a whole text: literal parts and groups, each a regular expression whose
match is captured. Groups take as much as they can. In a definite pattern only the last group has
matches of different lengths; there is then one way to match, whatever the matcher prefers.

* `range`, `oneOf`, `text`, `plus`, `upTo`: character classes and repetitions, with their languages.
* `find`: the captures of a text. **`find_eq_some_iff`**: for a definite pattern, those that fit.
-/

namespace Pattern

open RegularExpression

/-- The patterns of the library, over characters. -/
abbrev Regex := RegularExpression Char

/-! ## Classes and repetitions -/

/-- The characters from one to another. -/
def range (low high : Char) : List Char :=
  (List.range' low.toNat (high.toNat + 1 - low.toNat)).map Char.ofNat

/-- One character of a class. -/
def oneOf : List Char → Regex
  | [] => 0
  | c :: cs => char c + oneOf cs

/-- A given text. -/
def text : List Char → Regex
  | [] => 1
  | c :: cs => char c * text cs

/-- One or more. -/
def plus (P : Regex) : Regex := P * star P

/-- At most `n`. -/
def upTo (P : Regex) : ℕ → Regex
  | 0 => 1
  | n + 1 => 1 + P * upTo P n

theorem mem_range {low high c : Char} (h : high.toNat < 0xd800) :
    c ∈ range low high ↔ low ≤ c ∧ c ≤ high := by
  have hle : ∀ a b : Char, a ≤ b ↔ a.toNat ≤ b.toNat := fun a b => UInt32.le_iff_toNat_le
  rw [range, List.mem_map, hle, hle]
  constructor
  · rintro ⟨n, hn, rfl⟩
    rw [List.mem_range'_1] at hn
    have hvalid : n.isValidChar := Or.inl (by omega)
    have hc : (Char.ofNat n).toNat = n := by
      rw [Char.ofNat, dif_pos hvalid]
      rfl
    omega
  · rintro ⟨hlow, hhigh⟩
    exact ⟨c.toNat, List.mem_range'_1.mpr (by omega), Char.ofNat_toNat c⟩

theorem mem_one {cs : List Char} : cs ∈ (1 : Regex).matches' ↔ cs = [] := by
  rw [← rmatch_iff_matches', one_rmatch_iff]

theorem mem_char {c : Char} {cs : List Char} : cs ∈ (char c).matches' ↔ cs = [c] := by
  rw [← rmatch_iff_matches', char_rmatch_iff]

theorem mem_add {P Q : Regex} {cs : List Char} :
    cs ∈ (P + Q).matches' ↔ cs ∈ P.matches' ∨ cs ∈ Q.matches' := Iff.rfl

theorem mem_mul {P Q : Regex} {cs : List Char} :
    cs ∈ (P * Q).matches' ↔ ∃ xs ∈ P.matches', ∃ ys ∈ Q.matches', xs ++ ys = cs := Iff.rfl

theorem mem_text {word cs : List Char} : cs ∈ (text word).matches' ↔ cs = word := by
  induction word generalizing cs with
  | nil => exact mem_one
  | cons c word ih =>
    rw [text, mem_mul]
    constructor
    · rintro ⟨xs, hxs, ys, hys, rfl⟩
      rw [mem_char.mp hxs, ih.mp hys]
      rfl
    · rintro rfl
      exact ⟨[c], mem_char.mpr rfl, word, ih.mpr rfl, rfl⟩

theorem mem_oneOf {set cs : List Char} : cs ∈ (oneOf set).matches' ↔ ∃ c ∈ set, cs = [c] := by
  induction set with
  | nil => simp [oneOf, Language.notMem_zero]
  | cons c set ih => rw [oneOf, mem_add, mem_char, ih, List.exists_mem_cons_iff]

theorem mem_oneOf_mul {set cs : List Char} {P : Regex} :
    cs ∈ (oneOf set * P).matches' ↔ ∃ c ∈ set, ∃ ys ∈ P.matches', cs = c :: ys := by
  rw [mem_mul]
  constructor
  · rintro ⟨xs, hxs, ys, hys, rfl⟩
    obtain ⟨c, hc, rfl⟩ := mem_oneOf.mp hxs
    exact ⟨c, hc, ys, hys, rfl⟩
  · rintro ⟨c, hc, ys, hys, rfl⟩
    exact ⟨[c], mem_oneOf.mpr ⟨c, hc, rfl⟩, ys, hys, rfl⟩

theorem mem_pow {P : Regex} {n : ℕ} {cs : List Char} :
    cs ∈ (P ^ n).matches' ↔ ∃ xss : List (List Char), cs = xss.flatten ∧ xss.length = n ∧
      ∀ xs ∈ xss, xs ∈ P.matches' := by
  rw [matches'_pow, Language.mem_pow]

theorem mem_oneOf_pow {set cs : List Char} {n : ℕ} :
    cs ∈ (oneOf set ^ n).matches' ↔ cs.length = n ∧ ∀ c ∈ cs, c ∈ set := by
  rw [mem_pow]
  constructor
  · rintro ⟨xss, rfl, rfl, hxss⟩
    induction xss with
    | nil => exact ⟨rfl, fun c hc => nomatch hc⟩
    | cons xs xss ih =>
      obtain ⟨c, hc, rfl⟩ := mem_oneOf.mp (hxss xs List.mem_cons_self)
      obtain ⟨hlen, hmem⟩ := ih fun ys hys => hxss ys (List.mem_cons_of_mem _ hys)
      exact ⟨congrArg (· + 1) hlen, List.forall_mem_cons.mpr ⟨hc, hmem⟩⟩
  · rintro ⟨rfl, hmem⟩
    refine ⟨cs.map fun c => [c], by simp [← List.flatMap_def], List.length_map .., ?_⟩
    intro xs hxs
    obtain ⟨c, hc, rfl⟩ := List.mem_map.mp hxs
    exact mem_oneOf.mpr ⟨c, hmem c hc, rfl⟩

theorem mem_upTo_oneOf {set cs : List Char} {n : ℕ} :
    cs ∈ (upTo (oneOf set) n).matches' ↔ cs.length ≤ n ∧ ∀ c ∈ cs, c ∈ set := by
  induction n generalizing cs with
  | zero =>
    rw [upTo, mem_one, Nat.le_zero, List.length_eq_zero_iff]
    exact ⟨fun h => ⟨h, h ▸ fun c hc => nomatch hc⟩, And.left⟩
  | succ n ih =>
    rw [upTo, mem_add, mem_one, mem_oneOf_mul]
    constructor
    · rintro (rfl | ⟨c, hc, ys, hys, rfl⟩)
      · exact ⟨Nat.zero_le _, fun c hc => nomatch hc⟩
      · obtain ⟨hlen, hmem⟩ := ih.mp hys
        exact ⟨Nat.succ_le_succ hlen, List.forall_mem_cons.mpr ⟨hc, hmem⟩⟩
    · rintro ⟨hlen, hmem⟩
      cases cs with
      | nil => exact Or.inl rfl
      | cons c cs =>
        obtain ⟨hc, hmem⟩ := List.forall_mem_cons.mp hmem
        exact Or.inr ⟨c, hc, cs, ih.mpr ⟨Nat.le_of_succ_le_succ hlen, hmem⟩, rfl⟩

theorem mem_plus_oneOf {set cs : List Char} :
    cs ∈ (plus (oneOf set)).matches' ↔ cs ≠ [] ∧ ∀ c ∈ cs, c ∈ set := by
  have hstar : ∀ cs, cs ∈ (star (oneOf set)).matches' ↔ ∀ c ∈ cs, c ∈ set := by
    intro cs
    rw [matches'_star, Language.mem_kstar]
    constructor
    · rintro ⟨xss, rfl, hxss⟩ c hc
      obtain ⟨xs, hxs, hc⟩ := List.mem_flatten.mp hc
      obtain ⟨d, hd, rfl⟩ := mem_oneOf.mp (hxss xs hxs)
      rwa [List.mem_singleton.mp hc]
    · intro hmem
      obtain ⟨xss, hcs, -, hxss⟩ := mem_pow.mp (mem_oneOf_pow.mpr ⟨rfl, hmem⟩)
      exact ⟨xss, hcs, hxss⟩
  rw [plus, mem_oneOf_mul]
  constructor
  · rintro ⟨c, hc, ys, hys, rfl⟩
    exact ⟨List.cons_ne_nil _ _, List.forall_mem_cons.mpr ⟨hc, (hstar ys).mp hys⟩⟩
  · rintro ⟨hne, hmem⟩
    cases cs with
    | nil => exact absurd rfl hne
    | cons c cs =>
      obtain ⟨hc, hmem⟩ := List.forall_mem_cons.mp hmem
      exact ⟨c, hc, cs, (hstar cs).mpr hmem, rfl⟩

/-! ## Matching -/

/-- A part of a pattern: a given text, or a group to be captured. -/
inductive Part
  | lit (text : List Char)
  | group (P : Regex)

/-- The captures of a whole text, the first groups as long as possible. -/
def find : List Part → List Char → Option (List (List Char))
  | [], cs => if cs = [] then some [] else none
  | .lit text :: parts, cs =>
    if text.isPrefixOf cs then find parts (cs.drop text.length) else none
  | .group P :: parts, cs =>
    (List.range (cs.length + 1)).reverse.findSome? fun n =>
      if P.rmatch (cs.take n) then (find parts (cs.drop n)).map (cs.take n :: ·) else none

/-- Captures that fit. -/
def Fits : List Part → List (List Char) → List Char → Prop
  | [], groups, cs => groups = [] ∧ cs = []
  | .lit text :: parts, groups, cs => ∃ rest, cs = text ++ rest ∧ Fits parts groups rest
  | .group P :: parts, groups, cs => ∃ xs ∈ P.matches', ∃ groups' rest,
      groups = xs :: groups' ∧ cs = xs ++ rest ∧ Fits parts groups' rest

/-- Only the last group has matches of different lengths. -/
def Definite : List Part → Prop
  | [] => True
  | .lit _ :: parts => Definite parts
  | .group P :: parts => (parts = [] ∨ ∃ n, ∀ xs ∈ P.matches', xs.length = n) ∧ Definite parts

variable {parts : List Part} {cs : List Char} {groups : List (List Char)}

theorem fits_of_find (h : find parts cs = some groups) : Fits parts groups cs := by
  induction parts generalizing cs groups with
  | nil =>
    rw [find] at h
    split_ifs at h with hcs
    exact ⟨(Option.some.inj h).symm, hcs⟩
  | cons part parts ih =>
    cases part with
    | lit text =>
      rw [find] at h
      split_ifs at h with hpre
      obtain ⟨rest, rfl⟩ := List.isPrefixOf_iff_prefix.mp hpre
      rw [List.drop_left] at h
      exact ⟨rest, rfl, ih h⟩
    | group P =>
      rw [find] at h
      obtain ⟨n, -, h⟩ := List.exists_of_findSome?_eq_some h
      split_ifs at h with hP
      obtain ⟨groups', hfind, rfl⟩ := Option.map_eq_some_iff.mp h
      exact ⟨cs.take n, (rmatch_iff_matches' P _).mp hP, groups', cs.drop n, rfl,
        (List.take_append_drop n cs).symm, ih hfind⟩

theorem find_of_fits (h : Fits parts groups cs) : ∃ groups', find parts cs = some groups' := by
  induction parts generalizing cs groups with
  | nil => exact ⟨[], if_pos h.2⟩
  | cons part parts ih =>
    cases part with
    | lit text =>
      obtain ⟨rest, rfl, h⟩ := h
      rw [find, if_pos (List.isPrefixOf_iff_prefix.mpr (List.prefix_append _ _)), List.drop_left]
      exact ih h
    | group P =>
      obtain ⟨xs, hxs, groups', rest, rfl, rfl, h⟩ := h
      obtain ⟨found, hfound⟩ := ih h
      rw [find, ← Option.isSome_iff_exists, List.findSome?_isSome_iff]
      refine ⟨xs.length, ?_, ?_⟩
      · rw [List.mem_reverse, List.mem_range, List.length_append]
        omega
      · rw [List.take_left, List.drop_left, if_pos ((rmatch_iff_matches' P _).mpr hxs), hfound]
        rfl

/-- **One way to match.** -/
theorem Fits.unique {groups' : List (List Char)} (hdef : Definite parts)
    (h : Fits parts groups cs) (h' : Fits parts groups' cs) : groups = groups' := by
  induction parts generalizing cs groups groups' with
  | nil => exact h.1.trans h'.1.symm
  | cons part parts ih =>
    cases part with
    | lit text =>
      obtain ⟨rest, rfl, h⟩ := h
      obtain ⟨rest', he, h'⟩ := h'
      cases List.append_cancel_left he
      exact ih hdef h h'
    | group P =>
      obtain ⟨hP, hdef⟩ := hdef
      obtain ⟨xs, hxs, groups, rest, rfl, rfl, h⟩ := h
      obtain ⟨xs', hxs', groups', rest', rfl, he, h'⟩ := h'
      have hlen : xs.length = xs'.length := by
        rcases hP with rfl | ⟨n, hn⟩
        · rw [h.2, h'.2, List.append_nil, List.append_nil] at he
          rw [he]
        · rw [hn xs hxs, hn xs' hxs']
      obtain ⟨rfl, rfl⟩ := List.append_inj he hlen
      rw [ih hdef h h']

/-- **The captures of a definite pattern** are those that fit. -/
theorem find_eq_some_iff (hdef : Definite parts) :
    find parts cs = some groups ↔ Fits parts groups cs := by
  constructor
  · exact fits_of_find
  · intro h
    obtain ⟨groups', hfind⟩ := find_of_fits h
    rw [hfind, (fits_of_find hfind).unique hdef h]

end Pattern
