import Mathlib.Data.List.DropRight
import Mathlib.Data.List.Infix
import Mathlib.Tactic

/-!
# Text functions

The functions of Rust's `str` and `char` that programs use on short texts, on lists of characters
and on strings. A text's length in bytes is the length of its UTF-8 encoding.
-/

namespace Text

/-- The `White_Space` characters. -/
def is_whitespace (c : Char) : Bool :=
  let n := c.toNat
  (9 ≤ n && n ≤ 13) || n = 0x20 || n = 0x85 || n = 0xa0 || n = 0x1680 ||
    (0x2000 ≤ n && n ≤ 0x200a) || n = 0x2028 || n = 0x2029 || n = 0x202f || n = 0x205f || n = 0x3000

/-- The characters of category `Cc`. -/
def is_control (c : Char) : Bool := c.toNat < 0x20 || (0x7f ≤ c.toNat && c.toNat ≤ 0x9f)

/-- Letters of either case and digits. -/
def is_ascii_alphanumeric (c : Char) : Bool := c.isAlphanum

/-- ASCII letters in lower case, every other character as it is. -/
def to_ascii_lowercase (s : String) : String := String.ofList (s.toList.map Char.toLower)

/-- `String::from_utf8` -/
def from_utf8 (bs : List UInt8) : Option String := String.fromUTF8? bs.toByteArray

/-- The length in bytes. -/
def byteLen (cs : List Char) : ℕ := (cs.map Char.utf8Size).sum

/-- The length in bytes. -/
def len (s : String) : ℕ := byteLen s.toList

/-- What is left without the last characters of a class. -/
def trimEnd (p : Char → Bool) (cs : List Char) : List Char := (cs.reverse.dropWhile p).reverse

/-- Without the first and the last characters of a class. -/
def trim_matches (p : Char → Bool) (cs : List Char) : List Char := trimEnd p (cs.dropWhile p)

/-- `str::trim` -/
def trim (s : String) : String :=
  String.ofList (trimEnd is_whitespace (s.toList.dropWhile is_whitespace))

/-- `str::trim_end_matches` for one character. -/
def trim_end_matches (c : Char) (s : String) : String := String.ofList (trimEnd (· == c) s.toList)

/-- `str::split` for one character. -/
def split (c : Char) (s : String) : List (List Char) := s.toList.splitOn c

/-- `str::split_whitespace` -/
def split_whitespace (s : String) : List (List Char) :=
  (s.toList.splitOnP is_whitespace).filter (· ≠ [])

/-- `str::strip_prefix` -/
def strip_start (cs pattern : List Char) : Option (List Char) :=
  if pattern <+: cs then some (cs.drop pattern.length) else none

/-- What is read as text from the first `limit` bytes, unless they end within a character. -/
def take_utf8 : ℕ → List Char → Option (List Char)
  | _, [] => some []
  | 0, _ :: _ => some []
  | limit + 1, c :: cs =>
    if c.utf8Size ≤ limit + 1 then (take_utf8 (limit + 1 - c.utf8Size) cs).map (c :: ·) else none

/-- A line without its carriage return. -/
def strip_cr (cs : List Char) : List Char := if cs.getLast? = some '\r' then cs.dropLast else cs

/-- `str::lines` -/
def lines (s : String) : List (List Char) :=
  let parts := split '\n' s
  parts.dropLast.map strip_cr ++ (parts.getLast?.filter (· ≠ [])).toList

/-- The last character, if there is one. -/
def ends_with (c : Char) (cs : List Char) : Bool := decide (cs.getLast? = some c)

/-- `str::strip_suffix` -/
def strip_suffix (s suffix : String) : Option (List Char) :=
  if suffix.toList <:+ s.toList then
    some (s.toList.take (s.toList.length - suffix.toList.length))
  else none

/-- `str::contains` for a text. -/
def contains (s pattern : String) : Bool := decide (pattern.toList <:+: s.toList)

/-- `str::split_once` for one character: the text before and after its first occurrence. -/
def split_once (c : Char) (s : List Char) : Option (List Char × List Char) :=
  if c ∈ s then some (s.takeWhile (· != c), (s.dropWhile (· != c)).drop 1) else none

/-- `str::rsplit_once` for one character: the text before and after its last occurrence. -/
def rsplit_once (c : Char) (s : String) : Option (List Char × List Char) :=
  let cs := s.toList
  if c ∈ cs then
    some (trimEnd (· != c) cs |>.dropLast, (cs.reverse.takeWhile (· != c)).reverse)
  else none

/-- The value of a digit in `radix`, at most 36. -/
def digit (radix : ℕ) (c : Char) : Option ℕ :=
  let v := if c.isDigit then c.toNat - '0'.toNat
    else if 'a' ≤ c ∧ c ≤ 'z' then c.toNat - 'a'.toNat + 10
    else if 'A' ≤ c ∧ c ≤ 'Z' then c.toNat - 'A'.toNat + 10
    else radix
  if v < radix then some v else none

/-- `from_str_radix` of an unsigned integer type with values up to `max`. -/
def parse_unsigned (radix max : ℕ) (cs : List Char) : Option ℕ :=
  let ds := match cs with
    | '+' :: ds => ds
    | ds => ds
  if ds = [] then none
  else ds.foldl (fun acc c => do
    let v := (← acc) * radix + (← digit radix c)
    if v ≤ max then some v else none) (some 0)

/-- Equal, or a suffix after a dot. -/
def dottedSuffix (s suffix : String) : Bool :=
  decide (s = suffix) || (strip_suffix s suffix).any (ends_with '.')

theorem strip_start_append (pattern cs : List Char) : strip_start (pattern ++ cs) pattern = some cs := by
  rw [strip_start, if_pos (List.prefix_append _ _), List.drop_left]

theorem take_utf8_of_le {limit : ℕ} {cs : List Char} (h : byteLen cs ≤ limit) :
    take_utf8 limit cs = some cs := by
  induction cs generalizing limit with
  | nil => cases limit <;> rfl
  | cons c cs ih =>
    have hsum : c.utf8Size + byteLen cs ≤ limit := by simpa [byteLen] using h
    have hpos : 0 < c.utf8Size := c.utf8Size_pos
    cases limit with
    | zero => omega
    | succ limit => rw [take_utf8, if_pos (by omega), ih (by omega), Option.map_some]

theorem byteLen_append (cs ds : List Char) : byteLen (cs ++ ds) = byteLen cs + byteLen ds := by
  simp [byteLen]

theorem len_append (s t : String) : len (s ++ t) = len s + len t := by
  rw [len, String.toList_append, byteLen_append, len, len]

theorem byteLen_ascii {cs : List Char} (h : ∀ c ∈ cs, c.toNat < 128) : byteLen cs = cs.length := by
  induction cs with
  | nil => rfl
  | cons c cs ih =>
    have hc : c.utf8Size = 1 := by
      have hlt : c.toNat < 128 := h c List.mem_cons_self
      rw [Char.utf8Size, if_pos]
      exact UInt32.le_iff_toNat_le.mpr (show c.toNat ≤ 127 by omega)
    have htail : byteLen cs = cs.length := ih fun d hd => h d (List.mem_cons_of_mem _ hd)
    rw [List.length_cons, ← htail, byteLen, List.map_cons, List.sum_cons, hc, byteLen, Nat.add_comm]

theorem trimEnd_initial (p : Char → Bool) (cs : List Char) : trimEnd p cs <+: cs := by
  rw [← List.reverse_suffix, trimEnd, List.reverse_reverse]
  exact List.dropWhile_suffix p

theorem trimEnd_trimEnd (p : Char → Bool) (cs : List Char) :
    trimEnd p (trimEnd p cs) = trimEnd p cs := by
  rw [trimEnd, trimEnd, List.reverse_reverse, List.dropWhile_idempotent p]

/-- What is left after leading and trailing characters are dropped has none of either. -/
theorem trim_matches_twice (p : Char → Bool) (cs : List Char) :
    trim_matches p (trim_matches p cs) = trim_matches p cs := by
  have hhead : (trimEnd p (cs.dropWhile p)).dropWhile p = trimEnd p (cs.dropWhile p) := by
    obtain ⟨ds, hds⟩ := trimEnd_initial p (cs.dropWhile p)
    cases ht : trimEnd p (cs.dropWhile p) with
    | nil => rfl
    | cons c ts =>
      rw [ht] at hds
      have hc : ¬ p c = true := by
        have hd := List.head_dropWhile_not p (l := cs)
          (by rw [← hds]; exact List.cons_ne_nil _ _)
        simp only [← hds, List.cons_append, List.head_cons] at hd
        simp [hd]
      exact List.dropWhile_cons_of_neg hc
  rw [trim_matches, trim_matches, hhead, trimEnd_trimEnd]

theorem trim_trim (s : String) : trim (trim s) = trim s := by
  have h := trim_matches_twice is_whitespace s.toList
  rw [trim, trim, String.toList_ofList]
  exact congrArg String.ofList h

theorem dropWhile_eq_self {p : Char → Bool} {cs : List Char} :
    cs.dropWhile p = cs ↔ ∀ c ∈ cs.head?, p c = false := by
  cases cs with
  | nil => simp
  | cons c cs =>
    rw [List.head?_cons, List.dropWhile_cons]
    split_ifs with h
    · have hlen : cs.dropWhile p ≠ c :: cs := fun he => by
        have := congrArg List.length he
        have hle : (cs.dropWhile p).length ≤ cs.length := (List.dropWhile_suffix p).length_le
        simp_all
      simp [hlen, h]
    · simp [h]

theorem trimEnd_eq_self {p : Char → Bool} {cs : List Char} :
    trimEnd p cs = cs ↔ ∀ c ∈ cs.getLast?, p c = false := by
  rw [trimEnd, ← List.head?_reverse, ← dropWhile_eq_self, List.reverse_eq_iff]

theorem trim_matches_eq_self {p : Char → Bool} {cs : List Char} :
    trim_matches p cs = cs ↔ (∀ c ∈ cs.head?, p c = false) ∧ ∀ c ∈ cs.getLast?, p c = false := by
  rw [← dropWhile_eq_self, ← trimEnd_eq_self, trim_matches]
  constructor
  · intro h
    have hle := (trimEnd_initial p (cs.dropWhile p)).length_le
    rw [h] at hle
    have hd := (List.dropWhile_suffix p).eq_of_length_le hle
    exact ⟨hd, hd ▸ h.trans hd.symm⟩
  · rintro ⟨hd, he⟩
    rw [hd, he]

theorem trim_matches_of_not {p : Char → Bool} {cs : List Char} (h : ∀ c ∈ cs, p c = false) :
    trim_matches p cs = cs :=
  trim_matches_eq_self.mpr ⟨fun c hc => h c (List.mem_of_mem_head? hc),
    fun c hc => h c (List.mem_of_getLast? hc)⟩

theorem trim_of_not_whitespace {s : String} (h : ∀ c ∈ s.toList, is_whitespace c = false) :
    trim s = s := by
  rw [trim, ← trim_matches, trim_matches_of_not h, String.ofList_toList]

theorem trim_eq_self {s : String} : trim s = s ↔
    (∀ c ∈ s.toList.head?, is_whitespace c = false) ∧
      ∀ c ∈ s.toList.getLast?, is_whitespace c = false := by
  rw [← trim_matches_eq_self, trim, ← trim_matches]
  exact ⟨fun h => by simpa using congrArg String.toList h, fun h => by rw [h, String.ofList_toList]⟩

theorem is_ascii_alphanumeric_iff {c : Char} : is_ascii_alphanumeric c = true ↔
    65 ≤ c.toNat ∧ c.toNat ≤ 90 ∨ 97 ≤ c.toNat ∧ c.toNat ≤ 122 ∨
      48 ≤ c.toNat ∧ c.toNat ≤ 57 := by
  delta is_ascii_alphanumeric Char.isAlphanum Char.isAlpha Char.isUpper Char.isLower Char.isDigit
  simp only [Bool.or_eq_true, Bool.and_eq_true, decide_eq_true_eq, ge_iff_le,
    UInt32.le_iff_toNat_le, or_assoc]
  rfl

theorem ascii_of_alphanumeric {c : Char} (h : is_ascii_alphanumeric c = true) : c.toNat < 128 := by
  rw [is_ascii_alphanumeric_iff] at h
  omega

theorem not_whitespace_of_alphanumeric {c : Char} (h : is_ascii_alphanumeric c = true) :
    is_whitespace c = false := by
  rw [is_ascii_alphanumeric_iff] at h
  simp only [is_whitespace, Bool.or_eq_false_iff, Bool.and_eq_false_iff, decide_eq_false_iff_not]
  omega

theorem toLower_toLower (c : Char) : c.toLower.toLower = c.toLower := by
  by_cases h : c.val ≥ 'A'.val ∧ c.val ≤ 'Z'.val
  · have hval : c.toLower.val = c.val + ('a'.val - 'A'.val) := by
      rw [Char.toLower.eq_def, dif_pos h]
    have hn : ¬ (c.toLower.val ≥ 'A'.val ∧ c.toLower.val ≤ 'Z'.val) := by
      rw [hval]
      simp only [ge_iff_le, UInt32.le_iff_toNat_le, UInt32.toNat_add] at h ⊢
      have h₁ : 'A'.val.toNat = 65 := rfl
      have h₂ : 'Z'.val.toNat = 90 := rfl
      have h₃ : ('a'.val - 'A'.val).toNat = 32 := rfl
      omega
    rw [Char.toLower.eq_def c.toLower, dif_neg hn]
  · have hc : c.toLower = c := by rw [Char.toLower.eq_def, dif_neg h]
    rw [hc, hc]

theorem to_ascii_lowercase_idem (s : String) :
    to_ascii_lowercase (to_ascii_lowercase s) = to_ascii_lowercase s := by
  rw [to_ascii_lowercase, to_ascii_lowercase, String.toList_ofList, List.map_map]
  exact congrArg String.ofList (List.map_congr_left fun c _ => toLower_toLower c)

theorem split_once_append {c : Char} {xs : List Char} (h : c ∉ xs) (ys : List Char) :
    split_once c (xs ++ c :: ys) = some (xs, ys) := by
  have hxs : ∀ x ∈ xs, (x != c) = true := fun x hx => bne_iff_ne.mpr fun he => h (he ▸ hx)
  rw [split_once, if_pos (by simp), List.takeWhile_append_of_pos hxs, List.dropWhile_append_of_pos hxs]
  simp

theorem rsplit_once_append {c : Char} {ys : List Char} (h : c ∉ ys) (xs : List Char) :
    rsplit_once c (String.ofList (xs ++ c :: ys)) = some (xs, ys) := by
  have hys : ∀ y ∈ ys.reverse, (y != c) = true := fun y hy =>
    bne_iff_ne.mpr fun he => h (he ▸ List.mem_reverse.mp hy)
  have hrev : (xs ++ c :: ys).reverse = ys.reverse ++ c :: xs.reverse := by simp
  simp only [rsplit_once, String.toList_ofList, trimEnd, hrev]
  rw [if_pos (by simp), List.takeWhile_append_of_pos hys, List.dropWhile_append_of_pos hys]
  simp

theorem mem_splitOn {c : Char} (sep : Char) {cs : List Char} (h : c ∈ cs) :
    c = sep ∨ ∃ part ∈ cs.splitOn sep, c ∈ part := by
  induction cs with
  | nil => nomatch h
  | cons d cs ih =>
    rw [List.splitOn_cons_eq_if_modifyHead]
    split_ifs with hd
    · rcases List.mem_cons.mp h with rfl | h
      · exact .inl (eq_of_beq hd)
      · exact (ih h).imp_right fun ⟨part, hp, hc⟩ => ⟨part, List.mem_cons_of_mem _ hp, hc⟩
    · obtain ⟨first, rest, hs⟩ := List.exists_cons_of_ne_nil (List.splitOn_ne_nil sep cs)
      rw [hs] at ih ⊢
      rcases List.mem_cons.mp h with rfl | h
      · exact .inr ⟨_, List.mem_cons_self, List.mem_cons_self⟩
      · refine (ih h).imp_right fun ⟨part, hp, hc⟩ => ?_
        rcases List.mem_cons.mp hp with rfl | hp
        · exact ⟨_, List.mem_cons_self, List.mem_cons_of_mem _ hc⟩
        · exact ⟨part, List.mem_cons_of_mem _ hp, hc⟩

theorem digit_digitChar : ∀ n < 10, digit 10 (Nat.digitChar n) = some n := by decide

/-- Reading on with one more digit. -/
def readDigit (radix max : ℕ) (acc : Option ℕ) (c : Char) : Option ℕ := do
  let v := (← acc) * radix + (← digit radix c)
  if v ≤ max then some v else none

theorem foldl_readDigit_toDigits {n max : ℕ} (h : n ≤ max) :
    (Nat.toDigits 10 n).foldl (readDigit 10 max) (some 0) = some n := by
  induction n using Nat.strong_induction_on with
  | _ n ih =>
  rcases Nat.lt_or_ge n 10 with hn | hn
  · rw [Nat.toDigits_of_lt_base hn]
    simp [readDigit, digit_digitChar n hn, h]
  · rw [Nat.toDigits_of_base_le (by decide) hn, List.foldl_append, ih (n / 10) (by omega) (by omega)]
    have hd := digit_digitChar (n % 10) (Nat.mod_lt n (by decide))
    have hv : n / 10 * 10 + n % 10 = n := by omega
    simp [readDigit, hd, hv, h]

/-- **The text of a number is read back.** -/
theorem parse_unsigned_toDigits {n max : ℕ} (h : n ≤ max) :
    parse_unsigned 10 max (Nat.toDigits 10 n) = some n := by
  have hne : Nat.toDigits 10 n ≠ [] := Nat.toDigits_ne_nil
  have hsign : ∀ ds, Nat.toDigits 10 n ≠ '+' :: ds := by
    intro ds he
    have hd := Nat.isDigit_of_mem_toDigits (by decide) (by decide)
      (show '+' ∈ Nat.toDigits 10 n by rw [he]; exact List.mem_cons_self)
    exact absurd hd (by decide)
  rw [parse_unsigned, if_neg hne]
  · exact foldl_readDigit_toDigits h
  · exact hsign

theorem strip_suffix_eq_some {s suffix : String} {cs : List Char} :
    strip_suffix s suffix = some cs ↔ s.toList = cs ++ suffix.toList := by
  unfold strip_suffix
  split_ifs with h
  · obtain ⟨t, ht⟩ := h
    have hlen := congrArg List.length ht
    rw [List.length_append] at hlen
    rw [Option.some.injEq, ← ht, List.length_append, Nat.add_sub_cancel, List.take_left]
    exact ⟨fun h => h ▸ rfl, fun h => List.append_cancel_right h⟩
  · simp only [false_iff]
    exact fun he => h ⟨cs, he.symm⟩

/-- **A dotted suffix** is the text itself or what follows one of its dots. -/
theorem dottedSuffix_iff {s suffix : String} : dottedSuffix s suffix = true ↔
    s = suffix ∨ ∃ pre, s.toList = pre ++ '.' :: suffix.toList := by
  rw [dottedSuffix, Bool.or_eq_true, decide_eq_true_eq]
  refine or_congr_right ?_
  rw [Option.any_eq_true]
  simp only [strip_suffix_eq_some, ends_with, decide_eq_true_eq]
  constructor
  · rintro ⟨cs, hcs, hl⟩
    obtain ⟨pre, rfl⟩ := List.getLast?_eq_some_iff.mp hl
    exact ⟨pre, by rw [hcs, List.append_assoc]; rfl⟩
  · rintro ⟨pre, h⟩
    exact ⟨pre ++ ['.'], by rw [h, List.append_assoc]; rfl, by simp⟩

/-! ## Lines -/

theorem lines_of_ended {ls : List (List Char)} (h : ∀ l ∈ ls, '\n' ∉ l ∧ l.getLast? ≠ some '\r')
    {s : String} (hs : s.toList = ls.flatMap fun l => l ++ ['\n']) : lines s = ls := by
  have hsplit : (ls.flatMap fun l => l ++ ['\n']).splitOn '\n' = ls ++ [[]] := by
    clear hs
    induction ls with
    | nil => rfl
    | cons l ls ih =>
      obtain ⟨hl, hls⟩ := List.forall_mem_cons.mp h
      rw [List.flatMap_cons, List.append_assoc, List.singleton_append,
        List.splitOn_append_cons_self_of_not_mem hl.1, ih hls]
      rfl
  have hcr : ls.map strip_cr = ls := by
    conv_rhs => rw [← List.map_id ls]
    exact List.map_congr_left fun l hl => if_neg (h l hl).2
  rw [lines, split, hs, hsplit]
  simp [hcr]

/-- The ended lines of a text, and what follows the last line end. -/
def line_split : List Char → List (List Char) × List Char
  | [] => ([], [])
  | c :: cs =>
    if c = '\n' then ([] :: (line_split cs).1, (line_split cs).2)
    else match line_split cs with
      | ([], rest) => ([], c :: rest)
      | (line :: lines, rest) => ((c :: line) :: lines, rest)

/-- The lines of a text; the last one need not be ended. -/
def text_lines (cs : List Char) : List (List Char) :=
  if (line_split cs).2 = [] then (line_split cs).1 else (line_split cs).1 ++ [(line_split cs).2]

theorem line_split_initial {cs : List Char} (h : '\n' ∉ cs) (ys : List Char) :
    line_split (cs ++ ys) = match line_split ys with
      | ([], rest) => ([], cs ++ rest)
      | (line :: lines, rest) => ((cs ++ line) :: lines, rest) := by
  induction cs with
  | nil =>
    rw [List.nil_append]
    generalize line_split ys = parts
    obtain ⟨lines, rest⟩ := parts
    cases lines <;> rfl
  | cons c cs ih =>
    rw [List.mem_cons, not_or] at h
    rw [List.cons_append, line_split, if_neg (Ne.symm h.1), ih h.2]
    generalize line_split ys = parts
    obtain ⟨lines, rest⟩ := parts
    cases lines <;> rfl

theorem line_split_of_not_mem {cs : List Char} (h : '\n' ∉ cs) : line_split cs = ([], cs) := by
  simpa [line_split] using line_split_initial h []

theorem line_split_line {line : List Char} (h : '\n' ∉ line) (rest : List Char) :
    line_split (line ++ '\n' :: rest) = (line :: (line_split rest).1, (line_split rest).2) := by
  rw [line_split_initial h, line_split, if_pos rfl]
  simp

/-- A text can be split in two steps: what its first part leaves is put before the second. -/
theorem line_split_append (xs ys : List Char) : line_split (xs ++ ys) =
    ((line_split xs).1 ++ (line_split ((line_split xs).2 ++ ys)).1,
      (line_split ((line_split xs).2 ++ ys)).2) := by
  induction xs with
  | nil => rfl
  | cons c xs ih =>
    by_cases hc : c = '\n'
    · simp [line_split, hc, ih]
    · rw [List.cons_append, line_split, if_neg hc, ih, line_split, if_neg hc]
      generalize line_split xs = parts
      obtain ⟨lines, rest⟩ := parts
      cases lines with
      | nil => simp [line_split, hc]
      | cons line lines => rfl

theorem not_mem_rest (cs : List Char) : '\n' ∉ (line_split cs).2 := by
  induction cs with
  | nil => simp [line_split]
  | cons c cs ih =>
    by_cases hc : c = '\n'
    · simpa [line_split, hc] using ih
    · rw [line_split, if_neg hc]
      generalize line_split cs = parts at ih
      obtain ⟨lines, rest⟩ := parts
      cases lines with
      | nil => exact List.not_mem_cons_of_ne_of_not_mem (Ne.symm hc) ih
      | cons line lines => exact ih

end Text
