import GofroRouter.Lib.Text
import Mathlib.Data.List.TakeWhile

/-!
# JSON

Values, their texts and a strict reader, as RFC 8259 has them: the members of an object keep
their order and their duplicates, a number is its token, and values are nested at most `MAX_DEPTH`
deep. What is read off a value is up to its user: `member` for the visitors of a record, `get` for
a look into an object.

* `string_quote`, `numeral_token`: strings and numbers are read back.
* **`from_str_to_string`**: the text of a value is read back; **`from_str_to_string_pretty`**: so is
  its indented text.
-/

namespace Json

open Text

/-! ## Values -/

/-- A character that a number may have. -/
def isNumeralChar (c : Char) : Bool := c.isDigit || c ∈ ['-', '+', '.', 'e', 'E']

/-- What follows the digits of a whole number: a fraction and an exponent, if any. -/
def isFraction (cs : List Char) : Bool :=
  let exponent : List Char → Bool := fun cs => match cs with
    | [] => true
    | c :: cs => c.toLower = 'e' && (match cs with
      | '+' :: ds | '-' :: ds | ds => ds ≠ [] && ds.all Char.isDigit)
  match cs with
  | '.' :: cs => cs.takeWhile Char.isDigit ≠ [] && exponent (cs.dropWhile Char.isDigit)
  | cs => exponent cs

/-- The tokens of numbers. -/
def isNumeral (cs : List Char) : Bool :=
  let cs := match cs with
    | '-' :: cs => cs
    | cs => cs
  match cs with
  | '0' :: cs => isFraction cs
  | cs => cs.takeWhile Char.isDigit ≠ [] && isFraction (cs.dropWhile Char.isDigit)

/-- A number, as its token. -/
structure Numeral where
  token : List Char
  chars : token.all isNumeralChar = true
  valid : isNumeral token = true

theorem toDigits_head {n : ℕ} (hn : 0 < n) (ds : List Char) : Nat.toDigits 10 n ≠ '0' :: ds := by
  induction n using Nat.strong_induction_on generalizing ds with
  | _ n ih =>
  rcases Nat.lt_or_ge n 10 with h | h
  · have hlow : ∀ m < 10, 0 < m → Nat.digitChar m ≠ '0' := by decide
    rw [Nat.toDigits_of_lt_base h]
    exact fun he => hlow n h hn (List.cons.inj he).1
  · rw [Nat.toDigits_of_base_le (by decide) h]
    cases hd : Nat.toDigits 10 (n / 10) with
    | nil => exact absurd hd Nat.toDigits_ne_nil
    | cons c cs =>
      intro he
      rw [List.cons_append] at he
      exact ih (n / 10) (by omega) (by omega) cs (hd.trans (by rw [(List.cons.inj he).1]))

theorem isNumeral_toDigits (n : ℕ) : isNumeral (Nat.toDigits 10 n) = true := by
  have hdigits : ∀ c ∈ Nat.toDigits 10 n, c.isDigit = true := fun c hc =>
    Nat.isDigit_of_mem_toDigits (by decide) (by decide) hc
  rcases Nat.eq_zero_or_pos n with rfl | hn
  · decide
  · have hzero := toDigits_head hn
    have hminus : ∀ ds, Nat.toDigits 10 n ≠ '-' :: ds := by
      intro ds he
      exact absurd (hdigits '-' (by rw [he]; exact List.mem_cons_self)) (by decide)
    have htake : (Nat.toDigits 10 n).takeWhile Char.isDigit = Nat.toDigits 10 n :=
      List.takeWhile_eq_self_iff.mpr hdigits
    have hdrop : (Nat.toDigits 10 n).dropWhile Char.isDigit = [] :=
      List.dropWhile_eq_nil_iff.mpr hdigits
    rw [isNumeral]
    · rw [htake, hdrop, decide_eq_true Nat.toDigits_ne_nil]
      rfl
    · exact hminus
    · exact hzero

/-- The number of a natural number. -/
def Numeral.ofNat (n : ℕ) : Numeral where
  token := Nat.toDigits 10 n
  chars := by
    rw [List.all_eq_true]
    intro c hc
    rw [isNumeralChar, Nat.isDigit_of_mem_toDigits (by decide) (by decide) hc, Bool.true_or]
  valid := isNumeral_toDigits n

/-- A document. -/
inductive Value
  | null
  | bool (b : Bool)
  | number (n : Numeral)
  | string (s : String)
  | array (items : List Value)
  | object (members : List (String × Value))

/-- The value of a number that is an unsigned 64-bit integer. -/
def Numeral.as_u64 (n : Numeral) : Option ℕ :=
  if n.token.all Char.isDigit then parse_unsigned 10 (2 ^ 64 - 1) n.token else none

theorem Numeral.as_u64_ofNat {n : ℕ} (h : n < 2 ^ 64) : (Numeral.ofNat n).as_u64 = some n := by
  have hall : (Numeral.ofNat n).token.all Char.isDigit = true := by
    rw [List.all_eq_true]
    exact fun c hc => Nat.isDigit_of_mem_toDigits (by decide) (by decide) hc
  rw [Numeral.as_u64, if_pos hall]
  exact parse_unsigned_toDigits (Nat.le_pred_of_lt h)

/-- `Value::as_u64` -/
def Value.as_u64 : Value → Option ℕ
  | .number n => n.as_u64
  | _ => none

/-- `Value::get`: of several members of one name, the last. -/
def Value.get (name : String) : Value → Option Value
  | .object members => (members.reverse.find? (·.1 = name)).map Prod.snd
  | _ => none

/-- The member of a record: `none` if it is given twice, `some none` if it is missing. -/
def member (members : List (String × Value)) (name : String) : Option (Option Value) :=
  match members.filter (·.1 = name) with
  | [] => some none
  | [(_, v)] => some (some v)
  | _ => none

theorem get_of_member {members : List (String × Value)} {name : String} {v : Value}
    (h : member members name = some (some v)) : (Value.object members).get name = some v := by
  unfold member at h
  split at h
  · cases h
  · rename_i k w hf
    cases h
    rw [Value.get, ← List.head?_filter, List.filter_reverse, hf]
    rfl
  · cases h

/-! ## Text -/

def hexDigit (n : ℕ) : Char := Nat.digitChar n

/-- One character of a string. -/
def escape (c : Char) : List Char :=
  if c = '"' then ['\\', '"']
  else if c = '\\' then ['\\', '\\']
  else if c = Char.ofNat 8 then ['\\', 'b']
  else if c = Char.ofNat 12 then ['\\', 'f']
  else if c = '\n' then ['\\', 'n']
  else if c = '\r' then ['\\', 'r']
  else if c = '\t' then ['\\', 't']
  else if c.toNat < 0x20 then
    ['\\', 'u', '0', '0', hexDigit (c.toNat / 16), hexDigit (c.toNat % 16)]
  else [c]

/-- A text between quotation marks. -/
def quote (s : String) : List Char := '"' :: (s.toList.flatMap escape ++ ['"'])

mutual

/-- The compact text of a value. -/
def Value.print : Value → List Char
  | .null => ['n', 'u', 'l', 'l']
  | .bool true => ['t', 'r', 'u', 'e']
  | .bool false => ['f', 'a', 'l', 's', 'e']
  | .number n => n.token
  | .string s => quote s
  | .array items => '[' :: (printItems items ++ [']'])
  | .object members => '{' :: (printMembers members ++ ['}'])

/-- Items with commas between them. -/
def printItems : List Value → List Char
  | [] => []
  | [v] => v.print
  | v :: vs => v.print ++ ',' :: printItems vs

def printMembers : List (String × Value) → List Char
  | [] => []
  | [(k, v)] => quote k ++ ':' :: v.print
  | (k, v) :: ms => (quote k ++ ':' :: v.print) ++ ',' :: printMembers ms

end

/-- `serde_json::to_string` -/
def to_string (v : Value) : String := String.ofList v.print

/-! ## Reading -/

/-- A reader takes what it reads from the front. -/
abbrev Reader (α : Type) := List Char → Option (α × List Char)

def isSpace (c : Char) : Bool := c ∈ [' ', '\n', '\r', '\t']

/-- What follows white space. -/
def skip (cs : List Char) : List Char := cs.dropWhile isSpace

/-- One character, after white space. -/
def expect (c : Char) (cs : List Char) : Option (List Char) :=
  match skip cs with
  | [] => none
  | d :: cs => if d = c then some cs else none

/-- Four digits of either case. -/
def hex4 : Reader ℕ
  | a :: b :: c :: d :: cs => do
    some (((← digit 16 a) * 16 + (← digit 16 b)) * 256 + (← digit 16 c) * 16 + (← digit 16 d), cs)
  | _ => none

/-- An escape by number; one beyond the first 65536 characters is a pair of surrogates. -/
def unicode : Reader Char := fun cs => do
  let (n, cs) ← hex4 cs
  if 0xdc00 ≤ n ∧ n ≤ 0xdfff then none
  else if 0xd800 ≤ n ∧ n ≤ 0xdbff then
    match cs with
    | '\\' :: 'u' :: cs =>
      let (m, cs) ← hex4 cs
      if 0xdc00 ≤ m ∧ m ≤ 0xdfff then
        some (Char.ofNat (0x10000 + (n - 0xd800) * 0x400 + (m - 0xdc00)), cs)
      else none
    | _ => none
  else some (Char.ofNat n, cs)

/-- The character after a backslash, but for `u`. -/
def escaped (c : Char) : Reader Char := fun cs =>
  if c ∈ ['"', '\\', '/'] then some (c, cs)
  else if c = 'b' then some (Char.ofNat 8, cs)
  else if c = 'f' then some (Char.ofNat 12, cs)
  else if c = 'n' then some ('\n', cs)
  else if c = 'r' then some ('\r', cs)
  else if c = 't' then some ('\t', cs)
  else if c = 'u' then unicode cs
  else none

/-- One character of a string. -/
def character : Reader Char
  | [] => none
  | c :: cs =>
    if c = '\\' then
      match cs with
      | [] => none
      | d :: cs => escaped d cs
    else if c.toNat < 0x20 then none
    else some (c, cs)

/-- The characters up to the closing quote; there are at most `fuel` of them. -/
def characters : ℕ → Reader (List Char)
  | 0, _ => none
  | fuel + 1, cs =>
    match cs with
    | '"' :: cs => some ([], cs)
    | cs => do
      let (a, cs) ← character cs
      let (as, cs) ← characters fuel cs
      some (a :: as, cs)

/-- A text from its first quotation mark to its last. -/
def string : Reader String := fun cs => do
  let cs ← expect '"' cs
  let (as, cs) ← characters cs.length cs
  some (String.ofList as, cs)

/-- A number: all that may belong to its token. -/
def numeral : Reader Numeral := fun cs =>
  if h : isNumeral (cs.takeWhile isNumeralChar) = true then
    some (⟨cs.takeWhile isNumeralChar, by simp, h⟩, cs.dropWhile isNumeralChar)
  else none

/-- One or more items with commas between them; there are at most `fuel` of them. -/
def items {α : Type} (item : Reader α) : ℕ → Reader (List α)
  | 0, _ => none
  | fuel + 1, cs => do
    let (a, cs) ← item cs
    match expect ',' cs with
    | some cs =>
      let (as, cs) ← items item fuel cs
      some (a :: as, cs)
    | none => some ([a], cs)

/-- Items up to a closing character. -/
def enclosed {α : Type} (item : Reader α) (close : Char) : Reader (List α) := fun cs =>
  match expect close cs with
  | some cs => some ([], cs)
  | none => do
    let (as, cs) ← items item cs.length cs
    some (as, ← expect close cs)

/-- A member: its name, a colon and its value. -/
def pair {α : Type} (item : Reader α) : Reader (String × α) := fun cs => do
  let (k, cs) ← string cs
  let (a, cs) ← item (← expect ':' cs)
  some ((k, a), cs)

/-- A value without parts. -/
def scalar : Reader Value := fun cs =>
  match skip cs with
  | 'n' :: 'u' :: 'l' :: 'l' :: cs => some (.null, cs)
  | 't' :: 'r' :: 'u' :: 'e' :: cs => some (.bool true, cs)
  | 'f' :: 'a' :: 'l' :: 's' :: 'e' :: cs => some (.bool false, cs)
  | '"' :: cs => (string ('"' :: cs)).map fun p => (.string p.1, p.2)
  | cs => (numeral cs).map fun p => (.number p.1, p.2)

/-- A value nested at most `depth` deep. -/
def value : ℕ → Reader Value
  | 0, cs => scalar cs
  | depth + 1, cs =>
    match expect '[' cs, expect '{' cs with
    | some cs, _ => (enclosed (value depth) ']' cs).map fun p => (.array p.1, p.2)
    | none, some cs => (enclosed (pair (value depth)) '}' cs).map fun p => (.object p.1, p.2)
    | none, none => scalar cs

/-- How deep brackets may be nested. -/
def MAX_DEPTH : ℕ := 127

/-- `serde_json::from_str` -/
def from_str (s : String) : Option Value := do
  let (v, cs) ← value MAX_DEPTH s.toList
  if skip cs = [] then some v else none

/-! ## Round trip -/

/-- A text that does not go on with the token of a number. -/
def Stops (cs : List Char) : Prop := ∀ c ∈ cs.head?, isNumeralChar c = false

/-- A text that begins as a value or a name does. -/
def Begins (cs : List Char) : Prop :=
  ∃ c ds, cs = c :: ds ∧ isSpace c = false ∧ c ≠ ']' ∧ c ≠ '}'

theorem stops_cons {c : Char} {cs : List Char} (h : isNumeralChar c = false) : Stops (c :: cs) := by
  intro d hd
  rw [List.head?_cons, Option.mem_some_iff] at hd
  rwa [← hd]

theorem expect_same {c : Char} (h : isSpace c = false) (cs : List Char) :
    expect c (c :: cs) = some cs := by
  rw [expect, skip, List.dropWhile_cons_of_neg (by simp [h])]
  exact if_pos rfl

theorem expect_other {c d : Char} (h : isSpace d = false) (hne : d ≠ c) (cs : List Char) :
    expect c (d :: cs) = none := by
  rw [expect, skip, List.dropWhile_cons_of_neg (by simp [h])]
  exact if_neg hne

theorem Begins.append {cs : List Char} (h : Begins cs) (ds : List Char) : Begins (cs ++ ds) := by
  obtain ⟨c, cs', rfl, hc⟩ := h
  exact ⟨c, cs' ++ ds, rfl, hc⟩

/-! ### Strings -/

theorem digit_hexDigit : ∀ n < 16, digit 16 (hexDigit n) = some n := by decide

theorem character_escape (c : Char) (rest : List Char) :
    character (escape c ++ rest) = some (c, rest) := by
  unfold escape
  split_ifs with h₁ h₂ h₃ h₄ h₅ h₆ h₇ h₈
  · subst h₁; rfl
  · subst h₂; rfl
  · subst h₃; rfl
  · subst h₄; rfl
  · subst h₅; rfl
  · subst h₆; rfl
  · subst h₇; rfl
  · have hq := digit_hexDigit (c.toNat / 16) (by omega)
    have hr := digit_hexDigit (c.toNat % 16) (by omega)
    have h0 : digit 16 '0' = some 0 := by decide
    have hc : c.toNat / 16 * 16 + c.toNat % 16 = c.toNat := by omega
    have hlow : ¬ (0xdc00 ≤ c.toNat ∧ c.toNat ≤ 0xdfff) := by omega
    have hhigh : ¬ (0xd800 ≤ c.toNat ∧ c.toNat ≤ 0xdbff) := by omega
    simp only [List.cons_append, List.nil_append, character, escaped, unicode, hex4, h0, hq, hr]
    simp [hc, hlow, hhigh, Char.ofNat_toNat]
  · have hb : ¬ c = '\\' := h₂
    simp only [List.cons_append, List.nil_append, character, if_neg hb, if_neg h₈]

theorem escape_head (c : Char) : ∃ d ds, escape c = d :: ds ∧ d ≠ '"' := by
  unfold escape
  split_ifs with h₁
  all_goals first | exact ⟨'\\', _, rfl, by decide⟩ | exact ⟨c, _, rfl, h₁⟩

theorem characters_escape (cs rest : List Char) {fuel : ℕ} (hf : cs.length < fuel) :
    characters fuel (cs.flatMap escape ++ '"' :: rest) = some (cs, rest) := by
  induction cs generalizing fuel with
  | nil =>
    obtain ⟨n, rfl⟩ := Nat.exists_eq_succ_of_ne_zero (Nat.ne_of_gt hf)
    rfl
  | cons c cs ih =>
    obtain ⟨n, rfl⟩ := Nat.exists_eq_succ_of_ne_zero (Nat.ne_of_gt (Nat.zero_lt_of_lt hf))
    have hchar := character_escape c (cs.flatMap escape ++ '"' :: rest)
    have hrest := ih (Nat.lt_of_succ_lt_succ hf)
    obtain ⟨d, ds, hd, hne⟩ := escape_head c
    rw [List.flatMap_cons, List.append_assoc]
    rw [hd] at hchar ⊢
    rw [List.cons_append] at hchar ⊢
    rw [characters]
    · rw [hchar]
      simp only [Option.bind_eq_bind, Option.bind_some, hrest]
    · rintro cs' h
      exact hne (List.cons.inj h).1

theorem length_le_flatMap_escape (cs : List Char) : cs.length ≤ (cs.flatMap escape).length := by
  induction cs with
  | nil => exact Nat.le_refl _
  | cons c cs ih =>
    obtain ⟨d, ds, hd, -⟩ := escape_head c
    rw [List.flatMap_cons, List.length_append, hd, List.length_cons, List.length_cons]
    omega

/-- **A string is read back.** -/
theorem string_quote (s : String) (rest : List Char) : string (quote s ++ rest) = some (s, rest) := by
  have hlen := length_le_flatMap_escape s.toList
  have hchars := characters_escape s.toList rest
    (show s.toList.length < (s.toList.flatMap escape ++ '"' :: rest).length by
      rw [List.length_append, List.length_cons]; omega)
  rw [string, quote, List.cons_append, expect_same (by decide), List.append_assoc]
  simp only [Option.bind_eq_bind, Option.bind_some, List.cons_append, List.nil_append, hchars,
    String.ofList_toList]

theorem quote_begins (s : String) : Begins (quote s) := ⟨'"', _, rfl, by decide, by decide, by decide⟩

/-! ### Numbers -/

theorem numeral_token (n : Numeral) {rest : List Char} (hr : Stops rest) :
    numeral (n.token ++ rest) = some (n, rest) := by
  have hall : ∀ c ∈ n.token, isNumeralChar c = true := List.all_eq_true.mp n.chars
  have hrest : rest.takeWhile isNumeralChar = [] ∧ rest.dropWhile isNumeralChar = rest := by
    cases rest with
    | nil => exact ⟨rfl, rfl⟩
    | cons c cs =>
      have hc := hr c rfl
      exact ⟨List.takeWhile_cons_of_neg (by simp [hc]), List.dropWhile_cons_of_neg (by simp [hc])⟩
  have htake : (n.token ++ rest).takeWhile isNumeralChar = n.token := by
    rw [List.takeWhile_append_of_pos hall, hrest.1, List.append_nil]
  have hdrop : (n.token ++ rest).dropWhile isNumeralChar = rest := by
    rw [List.dropWhile_append_of_pos hall, hrest.2]
  have hvalid := n.valid
  rw [numeral]
  simp only [htake, hdrop]
  rw [dif_pos hvalid]

theorem isNumeralChar_begins {c : Char} (h : isNumeralChar c = true) :
    isSpace c = false ∧ c ≠ ']' ∧ c ≠ '}' ∧ c ≠ '[' ∧ c ≠ '{' ∧ c ≠ '"' ∧ c ≠ 'n' ∧ c ≠ 't' ∧
      c ≠ 'f' := by
  have hspace : isSpace c = false := by
    by_contra hs
    rw [Bool.not_eq_false, isSpace, decide_eq_true_eq] at hs
    simp only [List.mem_cons, List.not_mem_nil, or_false] at hs
    rcases hs with rfl | rfl | rfl | rfl <;> exact absurd h (by decide)
  refine ⟨hspace, ?_, ?_, ?_, ?_, ?_, ?_, ?_, ?_⟩ <;> (rintro rfl; exact absurd h (by decide))

theorem Numeral.token_cons (n : Numeral) : ∃ c cs, n.token = c :: cs ∧ isNumeralChar c = true := by
  have hv := n.valid
  have hc := n.chars
  cases ht : n.token with
  | nil => rw [ht] at hv; exact absurd hv (by decide)
  | cons c cs =>
    rw [ht, List.all_cons, Bool.and_eq_true] at hc
    exact ⟨c, cs, rfl, hc.1⟩

/-! ### Values -/

/-- `item` reads back what `print` writes for `a`. -/
def ReadsBack {α : Type} (item : Reader α) (print : α → List Char) (a : α) : Prop :=
  Begins (print a) ∧ ∀ rest, Stops rest → item (print a ++ rest) = some (a, rest)

section

variable {α : Type} {item : Reader α} {print : α → List Char}

/-- Items with commas between them. -/
def printed (print : α → List Char) : List α → List Char
  | [] => []
  | [a] => print a
  | a :: as => print a ++ ',' :: printed print as

theorem printed_begins {as : List α} (h : ∀ a ∈ as, ReadsBack item print a) (hne : as ≠ []) :
    Begins (printed print as) := by
  match as with
  | [a] => exact (h a (by simp)).1
  | a :: b :: as => exact (h a (by simp)).1.append _

theorem items_printed {as : List α} (h : ∀ a ∈ as, ReadsBack item print a) (hne : as ≠ [])
    {rest : List Char} (hs : Stops rest) (hcomma : expect ',' rest = none) {fuel : ℕ}
    (hf : as.length ≤ fuel) : items item fuel (printed print as ++ rest) = some (as, rest) := by
  induction fuel generalizing as with
  | zero => exact absurd (List.length_eq_zero_iff.mp (Nat.le_zero.mp hf)) hne
  | succ n ih =>
    match as with
    | [a] =>
      rw [printed, items, (h a (by simp)).2 rest hs]
      simp only [Option.bind_eq_bind, Option.bind_some, hcomma]
    | a :: b :: as =>
      have htail := @ih (b :: as) (fun x hx => h x (List.mem_cons_of_mem _ hx)) (by simp)
        (Nat.le_of_succ_le_succ hf)
      rw [printed, List.append_assoc, List.cons_append, items,
        (h a (by simp)).2 _ (stops_cons (by decide))]
      · simp only [Option.bind_eq_bind, Option.bind_some, expect_same (show isSpace ',' = false by decide),
          htail]
      · simp

theorem length_le_printed {as : List α} (h : ∀ a ∈ as, ReadsBack item print a) :
    as.length ≤ (printed print as).length := by
  induction as with
  | nil => exact Nat.le_refl _
  | cons a as ih =>
    have htail := ih fun x hx => h x (List.mem_cons_of_mem _ hx)
    obtain ⟨c, cs, hc, -⟩ := (h a (by simp)).1
    cases as with
    | nil => rw [printed, hc]; simp
    | cons b as =>
      have hp : printed print (a :: b :: as) = print a ++ ',' :: printed print (b :: as) := by
        rw [printed]
        simp
      have ha : 0 < (print a).length := by
        rw [hc]
        exact Nat.succ_pos _
      simp only [hp, List.length_append, List.length_cons] at htail ⊢
      omega

theorem enclosed_printed {as : List α} (h : ∀ a ∈ as, ReadsBack item print a) {close : Char}
    (hclose : close = ']' ∨ close = '}') (rest : List Char) :
    enclosed item close (printed print as ++ close :: rest) = some (as, rest) := by
  have hspace : isSpace close = false := by rcases hclose with rfl | rfl <;> decide
  have hstops : Stops (close :: rest) :=
    stops_cons (by rcases hclose with rfl | rfl <;> decide)
  have hcomma : expect ',' (close :: rest) = none :=
    expect_other hspace (by rcases hclose with rfl | rfl <;> decide) rest
  by_cases hne : as = []
  · subst hne
    rw [printed, List.nil_append, enclosed, expect_same hspace]
  · obtain ⟨c, cs, hc, hcs, hbracket, hbrace⟩ := printed_begins h hne
    have hopen : expect close (printed print as ++ close :: rest) = none := by
      rw [hc, List.cons_append]
      exact expect_other hcs (by rcases hclose with rfl | rfl <;> assumption) _
    have hlen : as.length ≤ (printed print as ++ close :: rest).length := by
      have := length_le_printed h
      rw [List.length_append]
      omega
    rw [enclosed, hopen, items_printed h hne hstops hcomma hlen]
    simp only [Option.bind_eq_bind, Option.bind_some, expect_same hspace]

end

theorem printItems_eq (vs : List Value) : printItems vs = printed Value.print vs := by
  induction vs with
  | nil => rw [printItems, printed]
  | cons v vs ih =>
    cases vs with
    | nil => rw [printItems, printed]
    | cons w vs => rw [printItems, printed, ih] <;> simp

/-- A member of an object. -/
def printMember (m : String × Value) : List Char := quote m.1 ++ ':' :: m.2.print

theorem printMembers_eq (ms : List (String × Value)) :
    printMembers ms = printed printMember ms := by
  induction ms with
  | nil => rw [printMembers, printed]
  | cons m ms ih =>
    obtain ⟨k, v⟩ := m
    cases ms with
    | nil => rw [printMembers, printed, printMember]
    | cons n ms => rw [printMembers, printed, ih, printMember] <;> simp

mutual

/-- How deep a value is nested. -/
def Value.depth : Value → ℕ
  | .array items => depthItems items + 1
  | .object members => depthMembers members + 1
  | _ => 0

/-- The deepest item. -/
def depthItems : List Value → ℕ
  | [] => 0
  | v :: vs => max v.depth (depthItems vs)

def depthMembers : List (String × Value) → ℕ
  | [] => 0
  | (_, v) :: ms => max v.depth (depthMembers ms)

end

theorem depth_le_items {v : Value} {vs : List Value} (h : v ∈ vs) : v.depth ≤ depthItems vs := by
  induction vs with
  | nil => cases h
  | cons w vs ih =>
    rw [depthItems]
    rcases List.mem_cons.mp h with rfl | h
    · exact le_max_left _ _
    · exact (ih h).trans (le_max_right _ _)

theorem depth_le_members {m : String × Value} {ms : List (String × Value)} (h : m ∈ ms) :
    m.2.depth ≤ depthMembers ms := by
  induction ms with
  | nil => cases h
  | cons n ms ih =>
    rw [depthMembers]
    rcases List.mem_cons.mp h with rfl | h
    · exact le_max_left _ _
    · exact (ih h).trans (le_max_right _ _)

theorem pair_printMember {depth : ℕ} {m : String × Value}
    (h : ReadsBack (value depth) Value.print m.2) :
    ReadsBack (pair (value depth)) printMember m := by
  refine ⟨(quote_begins m.1).append _, fun rest hr => ?_⟩
  rw [printMember, List.append_assoc, List.cons_append, pair, string_quote]
  simp only [Option.bind_eq_bind, Option.bind_some, expect_same (show isSpace ':' = false by decide),
    h.2 rest hr]

theorem value_scalar {c : Char} {cs : List Char} {depth : ℕ} (hs : isSpace c = false)
    (ha : c ≠ '[') (ho : c ≠ '{') : value depth (c :: cs) = scalar (c :: cs) := by
  cases depth with
  | zero => rw [value]
  | succ n => rw [value, expect_other hs ha, expect_other hs ho]

theorem skip_cons {c : Char} (h : isSpace c = false) (cs : List Char) : skip (c :: cs) = c :: cs := by
  rw [skip, List.dropWhile_cons_of_neg (by simp [h])]

/-- **The text of a value is read back**, by induction on the depth that is left. -/
theorem value_print {depth : ℕ} {v : Value} (h : v.depth ≤ depth) :
    ReadsBack (value depth) Value.print v := by
  induction depth using Nat.strong_induction_on generalizing v with
  | _ depth ih =>
  cases v with
  | null => exact ⟨⟨'n', _, by rw [Value.print], by decide, by decide, by decide⟩, fun rest _ => by
      rw [Value.print, List.cons_append, value_scalar (by decide) (by decide) (by decide)]; rfl⟩
  | bool b =>
    cases b
    · exact ⟨⟨'f', _, by rw [Value.print], by decide, by decide, by decide⟩, fun rest _ => by
        rw [Value.print, List.cons_append, value_scalar (by decide) (by decide) (by decide)]; rfl⟩
    · exact ⟨⟨'t', _, by rw [Value.print], by decide, by decide, by decide⟩, fun rest _ => by
        rw [Value.print, List.cons_append, value_scalar (by decide) (by decide) (by decide)]; rfl⟩
  | number n =>
    obtain ⟨c, cs, hc, hn⟩ := n.token_cons
    obtain ⟨hs, h₁, h₂, h₃, h₄, h₅, h₆, h₇, h₈⟩ := isNumeralChar_begins hn
    refine ⟨⟨c, cs, by rw [Value.print, hc], hs, h₁, h₂⟩, fun rest hr => ?_⟩
    have hnum := numeral_token n hr
    rw [Value.print]
    rw [hc, List.cons_append] at hnum ⊢
    rw [value_scalar hs h₃ h₄, scalar, skip_cons hs]
    split
    case h_1 he => exact absurd (List.cons.inj he).1 h₆
    case h_2 he => exact absurd (List.cons.inj he).1 h₇
    case h_3 he => exact absurd (List.cons.inj he).1 h₈
    case h_4 he => exact absurd (List.cons.inj he).1 h₅
    case h_5 => rw [hnum, Option.map_some]
  | string s =>
    refine ⟨by rw [Value.print]; exact quote_begins s, fun rest _ => ?_⟩
    have hs := string_quote s rest
    rw [Value.print, quote, List.cons_append] at *
    rw [value_scalar (by decide) (by decide) (by decide), scalar, skip_cons (by decide)]
    simp only [hs, Option.map_some]
  | array items =>
    rw [Value.depth] at h
    obtain ⟨n, rfl⟩ := Nat.exists_eq_add_one_of_ne_zero (show depth ≠ 0 by omega)
    refine ⟨⟨'[', _, by rw [Value.print], by decide, by decide, by decide⟩, fun rest _ => ?_⟩
    have hitems : ∀ v ∈ items, ReadsBack (value n) Value.print v := fun v hv =>
      ih n (Nat.lt_succ_self n) ((depth_le_items hv).trans (by omega))
    rw [Value.print, List.cons_append, value, expect_same (by decide), printItems_eq,
      List.append_assoc, List.cons_append, List.nil_append]
    simp only [enclosed_printed hitems (.inl rfl), Option.map_some]
  | object members =>
    rw [Value.depth] at h
    obtain ⟨n, rfl⟩ := Nat.exists_eq_add_one_of_ne_zero (show depth ≠ 0 by omega)
    refine ⟨⟨'{', _, by rw [Value.print], by decide, by decide, by decide⟩, fun rest _ => ?_⟩
    have hmembers : ∀ m ∈ members, ReadsBack (pair (value n)) printMember m := fun m hm =>
      pair_printMember (ih n (Nat.lt_succ_self n) ((depth_le_members hm).trans (by omega)))
    rw [Value.print, List.cons_append, value, expect_other (by decide) (by decide),
      expect_same (by decide), printMembers_eq, List.append_assoc, List.cons_append,
      List.nil_append]
    simp only [enclosed_printed hmembers (.inr rfl), Option.map_some]

/-- **Round trip of a whole text**, also one that is followed by white space. -/
theorem from_str_to_string {v : Value} (h : v.depth ≤ MAX_DEPTH) {space : List Char}
    (hs : ∀ c ∈ space, isSpace c = true) :
    from_str (String.ofList (v.print ++ space)) = some v := by
  have hstops : Stops space := by
    cases space with
    | nil => intro c hc; cases hc
    | cons c cs =>
      apply stops_cons
      have hc := hs c (by simp)
      rw [isSpace, decide_eq_true_eq] at hc
      simp only [List.mem_cons, List.not_mem_nil, or_false] at hc
      rcases hc with rfl | rfl | rfl | rfl <;> decide
  have hskip : skip space = [] := by
    rw [skip, List.dropWhile_eq_nil_iff]
    exact hs
  rw [from_str, String.toList_ofList, (value_print h).2 space hstops]
  simp only [Option.bind_eq_bind, Option.bind_some, hskip, if_true]

/-! ## Indented text -/

/-- A new line at a level. -/
def newline (level : ℕ) : List Char := '\n' :: List.replicate (2 * level) ' '

mutual

/-- The indented text of a value whose first line stands at a level. -/
def Value.pretty : ℕ → Value → List Char
  | _, .array [] => ['[', ']']
  | level, .array items => '[' :: (prettyItems (level + 1) items ++ newline level ++ [']'])
  | _, .object [] => ['{', '}']
  | level, .object members => '{' :: (prettyMembers (level + 1) members ++ newline level ++ ['}'])
  | _, v => v.print

/-- Items on lines of their own. -/
def prettyItems : ℕ → List Value → List Char
  | _, [] => []
  | level, [v] => newline level ++ v.pretty level
  | level, v :: vs => newline level ++ v.pretty level ++ ',' :: prettyItems level vs

def prettyMembers : ℕ → List (String × Value) → List Char
  | _, [] => []
  | level, [(k, v)] => newline level ++ (quote k ++ ':' :: ' ' :: v.pretty level)
  | level, (k, v) :: ms =>
    newline level ++ (quote k ++ ':' :: ' ' :: v.pretty level) ++ ',' :: prettyMembers level ms

end

/-- `serde_json::to_string_pretty` -/
def to_string_pretty (v : Value) : String := String.ofList (v.pretty 0)

/-- White space. -/
def Spaces (space : List Char) : Prop := ∀ c ∈ space, isSpace c = true

theorem spaces_newline (level : ℕ) : Spaces (newline level) := by
  intro c hc
  rcases List.mem_cons.mp hc with rfl | hc
  · rfl
  · rw [List.eq_of_mem_replicate hc]
    rfl

theorem skip_spaces {space : List Char} (h : Spaces space) (cs : List Char) :
    skip (space ++ cs) = skip cs := by
  rw [skip, skip, List.dropWhile_append_of_pos h]

theorem expect_spaces {space : List Char} (h : Spaces space) (c : Char) (cs : List Char) :
    expect c (space ++ cs) = expect c cs := by
  rw [expect, expect, skip_spaces h]

theorem stops_newline (level : ℕ) (cs : List Char) : Stops (newline level ++ cs) :=
  stops_cons (by decide)

theorem value_spaces {space : List Char} (h : Spaces space) (depth : ℕ) (cs : List Char) :
    value depth (space ++ cs) = value depth cs := by
  have hscalar : scalar (space ++ cs) = scalar cs := by
    rw [scalar, scalar, skip_spaces h]
  cases depth with
  | zero => rw [value, value, hscalar]
  | succ n => rw [value, value, expect_spaces h, expect_spaces h, hscalar]

theorem pair_spaces {space : List Char} (h : Spaces space) {α : Type} (item : Reader α)
    (cs : List Char) : pair item (space ++ cs) = pair item cs := by
  have hstring : string (space ++ cs) = string cs := by
    rw [string, string, expect_spaces h]
  rw [pair, pair, hstring]

section

variable {α : Type} {item : Reader α} {print : α → List Char}

/-- Items with commas between them, each after the same white space. -/
def spaced (space : List Char) (print : α → List Char) : List α → List Char
  | [] => []
  | [a] => space ++ print a
  | a :: as => space ++ print a ++ ',' :: spaced space print as

theorem spaced_cons {space : List Char} {a b : α} {as : List α} : spaced space print (a :: b :: as) =
    space ++ (print a ++ ',' :: spaced space print (b :: as)) := by
  rw [spaced, List.append_assoc]
  simp

theorem items_spaced {space : List Char} (hspace : ∀ cs, item (space ++ cs) = item cs)
    {as : List α} (h : ∀ a ∈ as, ReadsBack item print a) (hne : as ≠ []) {rest : List Char}
    (hs : Stops rest) (hcomma : expect ',' rest = none) {fuel : ℕ} (hf : as.length ≤ fuel) :
    items item fuel (spaced space print as ++ rest) = some (as, rest) := by
  induction fuel generalizing as with
  | zero => exact absurd (List.length_eq_zero_iff.mp (Nat.le_zero.mp hf)) hne
  | succ n ih =>
    match as with
    | [a] =>
      rw [spaced, List.append_assoc, items, hspace, (h a (by simp)).2 rest hs]
      simp only [Option.bind_eq_bind, Option.bind_some, hcomma]
    | a :: b :: as =>
      have htail := @ih (b :: as) (fun x hx => h x (List.mem_cons_of_mem _ hx)) (by simp)
        (Nat.le_of_succ_le_succ hf)
      rw [spaced_cons, List.append_assoc, List.append_assoc, List.cons_append, items, hspace,
        (h a (by simp)).2 _ (stops_cons (by decide))]
      simp only [Option.bind_eq_bind, Option.bind_some,
        expect_same (show isSpace ',' = false by decide), htail]

theorem length_le_spaced {space : List Char} {as : List α} (h : ∀ a ∈ as, ReadsBack item print a) :
    as.length ≤ (spaced space print as).length := by
  induction as with
  | nil => exact Nat.le_refl _
  | cons a as ih =>
    have htail := ih fun x hx => h x (List.mem_cons_of_mem _ hx)
    obtain ⟨c, cs, hc, -⟩ := (h a (by simp)).1
    cases as with
    | nil =>
      rw [spaced, hc, List.length_append, List.length_cons, List.length_cons, List.length_nil]
      omega
    | cons b as =>
      simp only [spaced_cons, List.length_append, List.length_cons] at htail ⊢
      omega

theorem enclosed_spaced {level : ℕ} (hspace : ∀ cs, item (newline level ++ cs) = item cs)
    {as : List α} (h : ∀ a ∈ as, ReadsBack item print a) (hne : as ≠ []) {close : Char}
    (hclose : close = ']' ∨ close = '}') (outer : ℕ) (rest : List Char) :
    enclosed item close (spaced (newline level) print as ++ (newline outer ++ close :: rest)) =
      some (as, rest) := by
  have hchar : isSpace close = false := by rcases hclose with rfl | rfl <;> decide
  have hcomma : expect ',' (newline outer ++ close :: rest) = none := by
    rw [expect_spaces (spaces_newline outer)]
    exact expect_other hchar (by rcases hclose with rfl | rfl <;> decide) rest
  have hopen : ∀ cs, expect close (spaced (newline level) print as ++ cs) = none := by
    intro cs
    obtain ⟨a, as', rfl⟩ := List.exists_cons_of_ne_nil hne
    obtain ⟨c, ds, hc, hcs, hbracket, hbrace⟩ := (h a (by simp)).1
    have hfirst : ∃ es, spaced (newline level) print (a :: as') = newline level ++ (c :: es) := by
      cases as' with
      | nil => exact ⟨ds, by rw [spaced, hc]⟩
      | cons b bs => exact ⟨_, by rw [spaced_cons, hc, List.cons_append]⟩
    obtain ⟨es, he⟩ := hfirst
    rw [he, List.append_assoc, expect_spaces (spaces_newline level), List.cons_append]
    exact expect_other hcs (by rcases hclose with rfl | rfl <;> assumption) _
  have hlen : as.length ≤
      (spaced (newline level) print as ++ (newline outer ++ close :: rest)).length := by
    have hspaced : as.length ≤ (spaced (newline level) print as).length := length_le_spaced h
    rw [List.length_append]
    omega
  rw [enclosed, hopen, items_spaced hspace h hne (stops_newline outer _) hcomma hlen]
  simp only [Option.bind_eq_bind, Option.bind_some, expect_spaces (spaces_newline outer),
    expect_same hchar]

end

theorem prettyItems_eq (level : ℕ) (vs : List Value) :
    prettyItems level vs = spaced (newline level) (Value.pretty level) vs := by
  induction vs with
  | nil => rw [prettyItems, spaced]
  | cons v vs ih =>
    cases vs with
    | nil => rw [prettyItems, spaced]
    | cons w vs => rw [prettyItems, spaced, ih] <;> simp

/-- A member of an indented object. -/
def prettyMember (level : ℕ) (m : String × Value) : List Char :=
  quote m.1 ++ ':' :: ' ' :: m.2.pretty level

theorem prettyMembers_eq (level : ℕ) (ms : List (String × Value)) :
    prettyMembers level ms = spaced (newline level) (prettyMember level) ms := by
  induction ms with
  | nil => rw [prettyMembers, spaced]
  | cons m ms ih =>
    obtain ⟨k, v⟩ := m
    cases ms with
    | nil => rw [prettyMembers, spaced, prettyMember]
    | cons n ms => rw [prettyMembers, spaced, ih, prettyMember] <;> simp

theorem pair_prettyMember {depth level : ℕ} {m : String × Value}
    (h : ReadsBack (value depth) (Value.pretty level) m.2) :
    ReadsBack (pair (value depth)) (prettyMember level) m := by
  refine ⟨(quote_begins m.1).append _, fun rest hr => ?_⟩
  have hspace : Spaces [' '] := fun c hc => by rw [List.mem_singleton.mp hc]; rfl
  have hvalue := value_spaces hspace depth (m.2.pretty level ++ rest)
  rw [List.singleton_append, h.2 rest hr] at hvalue
  rw [prettyMember, List.append_assoc, List.cons_append, List.cons_append, pair, string_quote]
  simp only [Option.bind_eq_bind, Option.bind_some, expect_same (show isSpace ':' = false by decide),
    hvalue]

theorem pretty_scalar {v : Value} (h : v.depth = 0) (level : ℕ) : v.pretty level = v.print := by
  cases v with
  | array items => rw [Value.depth] at h; cases h
  | object members => rw [Value.depth] at h; cases h
  | null => rw [Value.pretty] <;> nofun
  | bool b => rw [Value.pretty] <;> nofun
  | number n => rw [Value.pretty] <;> nofun
  | string s => rw [Value.pretty] <;> nofun

/-- **The indented text of a value is read back**, by induction on the depth that is left. -/
theorem value_pretty {depth : ℕ} {v : Value} (h : v.depth ≤ depth) (level : ℕ) :
    ReadsBack (value depth) (Value.pretty level) v := by
  induction depth using Nat.strong_induction_on generalizing v level with
  | _ depth ih =>
  cases v with
  | null | bool b | number n | string s =>
    rw [ReadsBack, pretty_scalar rfl]
    exact value_print h
  | array items =>
    rw [Value.depth] at h
    obtain ⟨n, rfl⟩ := Nat.exists_eq_add_one_of_ne_zero (show depth ≠ 0 by omega)
    by_cases hne : items = []
    · subst hne
      refine ⟨⟨'[', _, by rw [Value.pretty], by decide, by decide, by decide⟩, fun rest _ => ?_⟩
      rw [Value.pretty, List.cons_append, value, expect_same (by decide)]
      rfl
    · have hitems : ∀ v ∈ items, ReadsBack (value n) (Value.pretty (level + 1)) v := fun v hv =>
        ih n (Nat.lt_succ_self n) ((depth_le_items hv).trans (by omega)) (level + 1)
      have hspace := value_spaces (spaces_newline (level + 1)) n
      have htext : (Value.array items).pretty level =
          '[' :: (prettyItems (level + 1) items ++ newline level ++ [']']) := by
        rw [Value.pretty]
        exact hne
      refine ⟨⟨'[', _, htext, by decide, by decide, by decide⟩, fun rest _ => ?_⟩
      rw [htext, List.cons_append, value, expect_same (by decide), prettyItems_eq]
      simp only [List.append_assoc, List.cons_append, List.nil_append,
        enclosed_spaced hspace hitems hne (.inl rfl) level rest, Option.map_some]
  | object members =>
    rw [Value.depth] at h
    obtain ⟨n, rfl⟩ := Nat.exists_eq_add_one_of_ne_zero (show depth ≠ 0 by omega)
    by_cases hne : members = []
    · subst hne
      refine ⟨⟨'{', _, by rw [Value.pretty], by decide, by decide, by decide⟩, fun rest _ => ?_⟩
      rw [Value.pretty, List.cons_append, value, expect_other (by decide) (by decide),
        expect_same (by decide)]
      rfl
    · have hmembers : ∀ m ∈ members,
          ReadsBack (pair (value n)) (prettyMember (level + 1)) m := fun m hm =>
        pair_prettyMember (ih n (Nat.lt_succ_self n) ((depth_le_members hm).trans (by omega)) _)
      have hspace := pair_spaces (spaces_newline (level + 1)) (value n)
      have htext : (Value.object members).pretty level =
          '{' :: (prettyMembers (level + 1) members ++ newline level ++ ['}']) := by
        rw [Value.pretty]
        exact hne
      refine ⟨⟨'{', _, htext, by decide, by decide, by decide⟩, fun rest _ => ?_⟩
      rw [htext, List.cons_append, value, expect_other (by decide) (by decide),
        expect_same (by decide), prettyMembers_eq]
      simp only [List.append_assoc, List.cons_append, List.nil_append,
        enclosed_spaced hspace hmembers hne (.inr rfl) level rest, Option.map_some]

/-- **Round trip of an indented text.** -/
theorem from_str_to_string_pretty {v : Value} (h : v.depth ≤ MAX_DEPTH) :
    from_str (to_string_pretty v) = some v := by
  have hread := (value_pretty h 0).2 [] fun c hc => nomatch hc
  rw [List.append_nil] at hread
  rw [from_str, to_string_pretty, String.toList_ofList, hread]
  rfl

end Json
