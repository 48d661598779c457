import Mathlib.Data.List.DropRight
import Mathlib.Data.UInt
import Mathlib.Tactic

/-!
# Text as UTF-16 units

Strings of a language whose strings are lists of 16-bit units, well formed or not, beside texts,
which are lists of characters.

* `encode`, `decode`: the units of a text, and the text of a list of units, if it is well formed.
* **`decode_eq_some_iff`**: they are inverse to one another.
* `Lifts`: a class of units that is a class of characters; `dropWhile_encode`, `rdropWhile_encode`,
  `any_encode` for these.
* `codePoints_encode`: what an iteration over the string counts are the characters of the text.
-/

namespace Utf16

/-- The units of one character. -/
def encodeChar (c : Char) : List UInt16 :=
  if c.toNat < 0x10000 then [UInt16.ofNat c.toNat]
  else
    [UInt16.ofNat (0xd800 + (c.toNat - 0x10000) / 0x400),
      UInt16.ofNat (0xdc00 + (c.toNat - 0x10000) % 0x400)]

/-- The units of a text. -/
def encode (cs : List Char) : List UInt16 := cs.flatMap encodeChar

/-- The first unit of a pair. -/
def is_high (u : UInt16) : Bool := 0xd800 ≤ u.toNat && u.toNat < 0xdc00

def is_low (u : UInt16) : Bool := 0xdc00 ≤ u.toNat && u.toNat < 0xe000

/-- A unit that is no character by itself. -/
def is_surrogate (u : UInt16) : Bool := is_high u || is_low u

/-- The code point of a surrogate pair. -/
def pair (u v : UInt16) : ℕ := 0x10000 + (u.toNat - 0xd800) * 0x400 + (v.toNat - 0xdc00)

/-- The text of the units; `none` if a surrogate stands alone. -/
def decode : List UInt16 → Option (List Char)
  | [] => some []
  | [u] => if is_surrogate u then none else some [Char.ofNat u.toNat]
  | u :: v :: us =>
    if !is_surrogate u then (decode (v :: us)).map (Char.ofNat u.toNat :: ·)
    else if is_high u && is_low v then (decode us).map (Char.ofNat (pair u v) :: ·)
    else none

/-- How many code points an iteration over the string meets. A surrogate that stands alone is one. -/
def codePoints : List UInt16 → ℕ
  | [] => 0
  | [_] => 1
  | u :: v :: us => if is_high u && is_low v then codePoints us + 1 else codePoints (v :: us) + 1

/-! ## One character -/

variable {c : Char} {u v : UInt16} {us : List UInt16} {cs : List Char}

theorem encodeChar_cases (c : Char) :
    (∃ u, encodeChar c = [u] ∧ u.toNat = c.toNat ∧ is_surrogate u = false) ∨
      ∃ u v, encodeChar c = [u, v] ∧ is_high u = true ∧ is_low v = true ∧ pair u v = c.toNat ∧
        0x10000 ≤ c.toNat := by
  have hvalid := c.valid
  have hlt : c.toNat < 0xd800 ∨ 0xdfff < c.toNat ∧ c.toNat < 0x110000 := hvalid
  by_cases hsmall : c.toNat < 0x10000
  · left
    have hnat : (UInt16.ofNat c.toNat).toNat = c.toNat := UInt16.toNat_ofNat_of_lt' hsmall
    refine ⟨_, if_pos hsmall, hnat, ?_⟩
    simp only [is_surrogate, is_high, is_low, hnat, Bool.or_eq_false_iff, Bool.and_eq_false_iff,
      decide_eq_false_iff_not]
    omega
  · right
    have hhigh : (UInt16.ofNat (0xd800 + (c.toNat - 0x10000) / 0x400)).toNat =
        0xd800 + (c.toNat - 0x10000) / 0x400 :=
      UInt16.toNat_ofNat_of_lt' (show _ < 65536 by omega)
    have hlow : (UInt16.ofNat (0xdc00 + (c.toNat - 0x10000) % 0x400)).toNat =
        0xdc00 + (c.toNat - 0x10000) % 0x400 :=
      UInt16.toNat_ofNat_of_lt' (show _ < 65536 by omega)
    refine ⟨_, _, if_neg hsmall, ?_, ?_, ?_, by omega⟩
    · simp only [is_high, hhigh, Bool.and_eq_true, decide_eq_true_eq]
      omega
    · simp only [is_low, hlow, Bool.and_eq_true, decide_eq_true_eq]
      omega
    · unfold pair
      omega

theorem toNat_ofNat {n : ℕ} (h : n.isValidChar) : (Char.ofNat n).toNat = n := by
  rw [Char.ofNat, dif_pos h]
  rfl

theorem encodeChar_ofNat (h : is_surrogate u = false) : encodeChar (Char.ofNat u.toNat) = [u] := by
  have hlt := u.toNat_lt
  have hvalid : u.toNat.isValidChar := by
    simp only [is_surrogate, is_high, is_low, Bool.or_eq_false_iff, Bool.and_eq_false_iff,
      decide_eq_false_iff_not] at h
    simp only [Nat.isValidChar]
    omega
  rw [encodeChar, toNat_ofNat hvalid, if_pos hlt, UInt16.ofNat_toNat]

theorem encodeChar_pair (hu : is_high u = true) (hv : is_low v = true) :
    encodeChar (Char.ofNat (pair u v)) = [u, v] := by
  simp only [is_high, is_low, Bool.and_eq_true, decide_eq_true_eq] at hu hv
  have hvalid : (pair u v).isValidChar := by
    unfold pair Nat.isValidChar
    omega
  have hhigh : 0xd800 + (pair u v - 0x10000) / 0x400 = u.toNat := by
    unfold pair
    omega
  have hlow : 0xdc00 + (pair u v - 0x10000) % 0x400 = v.toNat := by
    unfold pair
    omega
  have hbig : ¬ pair u v < 0x10000 := by unfold pair; omega
  rw [encodeChar, toNat_ofNat hvalid, if_neg hbig, hhigh, hlow, UInt16.ofNat_toNat,
    UInt16.ofNat_toNat]

/-! ## Texts -/

theorem encode_cons (c : Char) (cs : List Char) : encode (c :: cs) = encodeChar c ++ encode cs :=
  List.flatMap_cons

theorem decode_cons (h : is_surrogate u = false) (us : List UInt16) :
    decode (u :: us) = (decode us).map (Char.ofNat u.toNat :: ·) := by
  cases us with
  | nil => simp [decode, h]
  | cons v us => simp [decode, h]

theorem decode_pair (hu : is_high u = true) (hv : is_low v = true) (us : List UInt16) :
    decode (u :: v :: us) = (decode us).map (Char.ofNat (pair u v) :: ·) := by
  simp [decode, is_surrogate, hu, hv]

theorem decode_encode (cs : List Char) : decode (encode cs) = some cs := by
  induction cs with
  | nil => rfl
  | cons c cs ih =>
    rcases encodeChar_cases c with ⟨u, he, hu, hs⟩ | ⟨u, v, he, hu, hv, hp, _⟩
    · rw [encode_cons, he, List.singleton_append, decode_cons hs, ih, hu, Option.map_some,
        Char.ofNat_toNat]
    · rw [encode_cons, he, List.cons_append, List.singleton_append, decode_pair hu hv, ih, hp,
        Option.map_some, Char.ofNat_toNat]

/-- A list of units is decoded if and only if it is the encoding of what comes out. -/
theorem decode_eq_some_iff : decode us = some cs ↔ encode cs = us := by
  constructor
  · intro h
    induction us using decode.induct generalizing cs with
    | case1 =>
      cases h
      rfl
    | case2 u hs =>
      rw [decode, if_pos hs] at h
      cases h
    | case3 u hs =>
      rw [decode, if_neg hs] at h
      cases h
      rw [encode_cons, encodeChar_ofNat (by simpa using hs)]
      rfl
    | case4 u v us hs ih =>
      have hs : is_surrogate u = false := by simpa using hs
      rw [decode_cons hs, Option.map_eq_some_iff] at h
      obtain ⟨ds, hd, rfl⟩ := h
      rw [encode_cons, ih hd, encodeChar_ofNat hs, List.singleton_append]
    | case5 u v us _ hp ih =>
      have hp : is_high u = true ∧ is_low v = true := by simpa using hp
      rw [decode_pair hp.1 hp.2, Option.map_eq_some_iff] at h
      obtain ⟨ds, hd, rfl⟩ := h
      rw [encode_cons, ih hd, encodeChar_pair hp.1 hp.2, List.cons_append, List.singleton_append]
    | case6 u v us hs hp =>
      rw [decode, if_neg hs, if_neg hp] at h
      cases h
  · intro h
    rw [← h, decode_encode]

theorem encode_injective : Function.Injective encode := fun cs ds h =>
  Option.some_injective _ (by rw [← decode_encode cs, h, decode_encode])

theorem codePoints_cons (h : is_high u = false) (us : List UInt16) :
    codePoints (u :: us) = codePoints us + 1 := by
  cases us with
  | nil => rfl
  | cons v us => simp [codePoints, h]

theorem codePoints_encode (cs : List Char) : codePoints (encode cs) = cs.length := by
  induction cs with
  | nil => rfl
  | cons c cs ih =>
    rcases encodeChar_cases c with ⟨u, he, _, hs⟩ | ⟨u, v, he, hu, hv, _⟩
    · have hh : is_high u = false := (Bool.or_eq_false_iff.mp hs).1
      rw [encode_cons, he, List.singleton_append, codePoints_cons hh, ih, List.length_cons]
    · rw [encode_cons, he, List.cons_append, List.singleton_append, codePoints, hu, hv, ih]
      rfl

theorem encode_ascii (h : ∀ c ∈ cs, c.toNat < 128) :
    encode cs = cs.map fun c => UInt16.ofNat c.toNat := by
  rw [encode, List.map_eq_flatMap]
  exact List.flatMap_congr fun c hc => if_pos (by have := h c hc; omega)

/-! ## Classes of characters -/

/-- A class of units that every unit of a character tells of the character. -/
def Lifts (p : Char → Bool) (q : UInt16 → Bool) : Prop := ∀ c, ∀ u ∈ encodeChar c, q u = p c

theorem lifts_of_code (code : ℕ → Bool)
    (h : ∀ n, code n = true → n < 0xd800 ∨ 0xe000 ≤ n ∧ n < 0x10000) :
    Lifts (fun c => code c.toNat) (fun u => code u.toNat) := by
  intro c u hu
  have hout : ∀ n, (0xd800 ≤ n ∧ n < 0xe000 ∨ 0x10000 ≤ n) → code n = false := by
    intro n hn
    by_contra hc
    have := h n (by simpa using hc)
    omega
  rcases encodeChar_cases c with ⟨v, he, hv, _⟩ | ⟨v, w, he, hv, hw, _, hbig⟩
  · rw [he, List.mem_singleton] at hu
    change code u.toNat = code c.toNat
    rw [hu, hv]
  · simp only [is_high, is_low, Bool.and_eq_true, decide_eq_true_eq] at hv hw
    have hs : 0xd800 ≤ u.toNat ∧ u.toNat < 0xe000 := by
      rw [he, List.mem_cons, List.mem_singleton] at hu
      rcases hu with rfl | rfl
      · omega
      · omega
    change code u.toNat = code c.toNat
    rw [hout _ (.inl hs), hout _ (.inr hbig)]

section Lifts

variable {p : Char → Bool} {q : UInt16 → Bool}

theorem encodeChar_ne_nil (c : Char) : encodeChar c ≠ [] := by
  rcases encodeChar_cases c with ⟨u, he, _⟩ | ⟨u, v, he, _⟩
  · simp [he]
  · simp [he]

theorem encode_eq_nil : encode cs = [] ↔ cs = [] := by
  cases cs with
  | nil => exact ⟨fun _ => rfl, fun _ => rfl⟩
  | cons c cs => simp [encode_cons, encodeChar_ne_nil]

theorem dropWhile_flatMap {f : Char → List UInt16} (hne : ∀ c, f c ≠ [])
    (h : ∀ c, ∀ u ∈ f c, q u = p c) (cs : List Char) :
    (cs.flatMap f).dropWhile q = (cs.dropWhile p).flatMap f := by
  induction cs with
  | nil => rfl
  | cons c cs ih =>
    rw [List.flatMap_cons, List.dropWhile_append, List.dropWhile_cons]
    by_cases hc : p c = true
    · have hnil : (f c).dropWhile q = [] :=
        List.dropWhile_eq_nil_iff.mpr fun u hu => by rw [h c u hu, hc]
      rw [hnil, if_pos hc, List.isEmpty_nil, if_pos rfl, ih]
    · have hkeep : (f c).dropWhile q = f c := by
        cases hf : f c with
        | nil => exact absurd hf (hne c)
        | cons u us =>
          have hu : q u = false := by rw [h c u (by simp [hf])]; simpa using hc
          rw [List.dropWhile_cons_of_neg (by simp [hu])]
      rw [hkeep, if_neg hc, if_neg (by simp [hne c]), List.flatMap_cons]

theorem Lifts.dropWhile_encode (h : Lifts p q) (cs : List Char) :
    (encode cs).dropWhile q = encode (cs.dropWhile p) :=
  dropWhile_flatMap encodeChar_ne_nil h cs

theorem Lifts.rdropWhile_encode (h : Lifts p q) (cs : List Char) :
    (encode cs).rdropWhile q = encode (cs.rdropWhile p) := by
  have hrev := dropWhile_flatMap (p := p) (q := q) (f := List.reverse ∘ encodeChar)
    (fun c => by simp [encodeChar_ne_nil]) (fun c u hu => h c u (by simpa using hu)) cs.reverse
  rw [List.rdropWhile, List.rdropWhile, encode, encode, List.reverse_flatMap, hrev,
    List.reverse_flatMap]
  refine List.flatMap_congr fun c _ => ?_
  simp

theorem Lifts.any_encode (h : Lifts p q) (cs : List Char) : (encode cs).any q = cs.any p := by
  induction cs with
  | nil => rfl
  | cons c cs ih =>
    have hc : (encodeChar c).any q = p c := by
      rw [Bool.eq_iff_iff, List.any_eq_true]
      constructor
      · rintro ⟨u, hu, hq⟩
        rw [← h c u hu, hq]
      · intro hp
        obtain ⟨u, hu⟩ := List.exists_mem_of_ne_nil _ (encodeChar_ne_nil c)
        exact ⟨u, hu, by rw [h c u hu, hp]⟩
    rw [encode_cons, List.any_append, hc, ih, List.any_cons]

end Lifts

/-! ## Well-formed parts -/

theorem isSome_decode_append (hu : ∀ u ∈ us, is_surrogate u = false) (vs : List UInt16) :
    (decode (us ++ vs)).isSome = (decode vs).isSome := by
  induction us with
  | nil => rfl
  | cons u us ih =>
    rw [List.cons_append, decode_cons (hu u List.mem_cons_self), Option.isSome_map,
      ih fun v hv => hu v (List.mem_cons_of_mem _ hv)]

theorem isSome_decode_concat (hu : is_surrogate u = false) (us : List UInt16) :
    (decode (us ++ [u])).isSome = (decode us).isSome := by
  have hlow : is_low u = false := (Bool.or_eq_false_iff.mp hu).2
  induction us using decode.induct with
  | case1 => simp [decode, hu]
  | case2 v hs => simp [decode, hs, hlow]
  | case3 v hs => simp [decode, hs, hu]
  | case4 v w us hs ih =>
    have hs : is_surrogate v = false := by simpa using hs
    rw [List.cons_append, decode_cons hs, decode_cons hs, Option.isSome_map, Option.isSome_map, ih]
  | case5 v w us hs hp ih =>
    have hp : is_high v = true ∧ is_low w = true := by simpa using hp
    rw [List.cons_append, List.cons_append, decode_pair hp.1 hp.2, decode_pair hp.1 hp.2,
      Option.isSome_map, Option.isSome_map, ih]
  | case6 v w us hs hp => simp only [List.cons_append, decode, if_neg hs, if_neg hp]

/-- Units that are no surrogates, on either side of a list, do not make it well formed. -/
theorem isSome_decode_between {as bs : List UInt16} (ha : ∀ u ∈ as, is_surrogate u = false)
    (hb : ∀ u ∈ bs, is_surrogate u = false) (us : List UInt16) :
    (decode (as ++ us ++ bs)).isSome = (decode us).isSome := by
  rw [List.append_assoc, isSome_decode_append ha]
  induction bs using List.reverseRecOn with
  | nil => rw [List.append_nil]
  | append_singleton bs b ih =>
    rw [← List.append_assoc, isSome_decode_concat (hb b (by simp)),
      ih fun u hu => hb u (List.mem_append_left _ hu)]

end Utf16
