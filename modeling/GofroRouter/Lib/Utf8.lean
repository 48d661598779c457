import Mathlib.Data.UInt
import Mathlib.Tactic

/-!
# Decoding UTF-8 byte by byte

The UTF-8 decoder of the Encoding Standard, as a state that takes one byte after another, so that a
text can come in pieces.

* `Decoder.step`, `Decoder.feed`: one byte, and a list of bytes; `feed_append`.
* `feed_encode`: the encoding of a text is decoded.
* `Pending`: the decoder within a character, with the bytes it has seen of it.
* **`feed_eq_some_iff`**: what is decoded without an error and without a rest is the encoding of the
  characters that come out.
* `TextDecoder`: the decoder of a text with an optional byte-order mark; `decode_append`,
  **`decode_eq_some_iff`**.
-/

namespace Utf8

/-- A decoder within or between characters: what it has of the code point, the number of bytes that
are still needed, and the bounds of the next one. -/
structure Decoder where
  code_point : ℕ
  bytes_needed : ℕ
  lower : ℕ
  upper : ℕ
deriving DecidableEq

/-- Between two characters. -/
def Decoder.start : Decoder := ⟨0, 0, 0x80, 0xbf⟩

/-- The next byte, which may complete a character; `none` is an error. -/
def Decoder.step (d : Decoder) (byte : UInt8) : Option (Decoder × Option Char) :=
  let b := byte.toNat
  if d.bytes_needed = 0 then
    if b ≤ 0x7f then some (.start, some (Char.ofNat b))
    else if 0xc2 ≤ b ∧ b ≤ 0xdf then some (⟨b % 32, 1, 0x80, 0xbf⟩, none)
    else if 0xe0 ≤ b ∧ b ≤ 0xef then
      some (⟨b % 16, 2, if b = 0xe0 then 0xa0 else 0x80, if b = 0xed then 0x9f else 0xbf⟩, none)
    else if 0xf0 ≤ b ∧ b ≤ 0xf4 then
      some (⟨b % 8, 3, if b = 0xf0 then 0x90 else 0x80, if b = 0xf4 then 0x8f else 0xbf⟩, none)
    else none
  else if b < d.lower ∨ d.upper < b then none
  else
    let code_point := d.code_point * 64 + b % 64
    if d.bytes_needed = 1 then some (.start, some (Char.ofNat code_point))
    else some (⟨code_point, d.bytes_needed - 1, 0x80, 0xbf⟩, none)

/-- The bytes one after the other, and the characters that come out. -/
def Decoder.feed : Decoder → List UInt8 → Option (Decoder × List Char)
  | d, [] => some (d, [])
  | d, b :: bs => do
    let (d, c) ← d.step b
    let (d, cs) ← d.feed bs
    return (d, c.toList ++ cs)

variable {d d' : Decoder} {as bs : List UInt8} {cs : List Char}

theorem Decoder.feed_append (d : Decoder) (as bs : List UInt8) :
    d.feed (as ++ bs) = do
      let (d, cs) ← d.feed as
      let (d, cs') ← d.feed bs
      return (d, cs ++ cs') := by
  induction as generalizing d with
  | nil => simp [feed]
  | cons a as ih =>
    simp only [List.cons_append, feed, ih]
    cases d.step a with
    | none => rfl
    | some r =>
      simp only [Option.bind_eq_bind, Option.bind_some]
      cases r.1.feed as with
      | none => rfl
      | some r' =>
        simp only [Option.bind_some, Option.pure_def, List.append_assoc]
        cases r'.1.feed bs <;> rfl

/-- The encoding of a text. -/
def encode (cs : List Char) : List UInt8 := cs.flatMap String.utf8EncodeChar

@[simp] theorem encode_nil : encode [] = [] := rfl

theorem encode_cons (c : Char) (cs : List Char) :
    encode (c :: cs) = String.utf8EncodeChar c ++ encode cs := rfl

/-! ## Decoding what was encoded -/

theorem encode_ofNat {v : ℕ} (hv : v.isValidChar) : String.utf8EncodeChar (Char.ofNat v) =
    if v ≤ 0x7f then [UInt8.ofNat v]
    else if v ≤ 0x7ff then [UInt8.ofNat (v / 64 % 32 + 0xc0), UInt8.ofNat (v % 64 + 0x80)]
    else if v ≤ 0xffff then [UInt8.ofNat (v / 4096 % 16 + 0xe0), UInt8.ofNat (v / 64 % 64 + 0x80),
      UInt8.ofNat (v % 64 + 0x80)]
    else [UInt8.ofNat (v / 262144 % 8 + 0xf0), UInt8.ofNat (v / 4096 % 64 + 0x80),
      UInt8.ofNat (v / 64 % 64 + 0x80), UInt8.ofNat (v % 64 + 0x80)] := by
  have hc : (Char.ofNat v).val.toNat = v := by
    change (Char.ofNat v).toNat = v
    rw [Char.ofNat, dif_pos hv]
    rfl
  unfold String.utf8EncodeChar
  rw [hc]

theorem toNat_byte {n : ℕ} (hn : n < 256) : (UInt8.ofNat n).toNat = n :=
  UInt8.toNat_ofNat_of_lt' hn

theorem byte_eq {n : ℕ} {b : UInt8} (hn : n = b.toNat) : UInt8.ofNat n = b := by
  rw [hn, UInt8.ofNat_toNat]

/-! ### One byte -/

theorem Decoder.start_bytes_needed : Decoder.start.bytes_needed = 0 := rfl

theorem Decoder.step_one {b : UInt8} (hb : b.toNat ≤ 0x7f) :
    Decoder.start.step b = some (.start, some (Char.ofNat b.toNat)) := by
  rw [step, if_pos start_bytes_needed, if_pos hb]

theorem Decoder.step_two {b : UInt8} (hb : 0xc2 ≤ b.toNat ∧ b.toNat ≤ 0xdf) :
    Decoder.start.step b = some (⟨b.toNat % 32, 1, 0x80, 0xbf⟩, none) := by
  rw [step, if_pos start_bytes_needed, if_neg (by omega), if_pos hb]

theorem Decoder.step_three {b : UInt8} (hb : 0xe0 ≤ b.toNat ∧ b.toNat ≤ 0xef) :
    Decoder.start.step b = some (⟨b.toNat % 16, 2, if b.toNat = 0xe0 then 0xa0 else 0x80,
      if b.toNat = 0xed then 0x9f else 0xbf⟩, none) := by
  rw [step, if_pos start_bytes_needed, if_neg (by omega), if_neg (by omega), if_pos hb]

theorem Decoder.step_four {b : UInt8} (hb : 0xf0 ≤ b.toNat ∧ b.toNat ≤ 0xf4) :
    Decoder.start.step b = some (⟨b.toNat % 8, 3, if b.toNat = 0xf0 then 0x90 else 0x80,
      if b.toNat = 0xf4 then 0x8f else 0xbf⟩, none) := by
  rw [step, if_pos start_bytes_needed, if_neg (by omega), if_neg (by omega), if_neg (by omega),
    if_pos hb]

theorem Decoder.step_next {b : UInt8} {code_point needed lower upper : ℕ}
    (hb : lower ≤ b.toNat ∧ b.toNat ≤ upper) :
    Decoder.step ⟨code_point, needed + 2, lower, upper⟩ b =
      some (⟨code_point * 64 + b.toNat % 64, needed + 1, 0x80, 0xbf⟩, none) := by
  simp only [step]
  rw [if_neg (by omega), if_neg (by omega), if_neg (by omega)]
  rfl

theorem Decoder.step_last {b : UInt8} {code_point lower upper : ℕ}
    (hb : lower ≤ b.toNat ∧ b.toNat ≤ upper) :
    Decoder.step ⟨code_point, 1, lower, upper⟩ b =
      some (.start, some (Char.ofNat (code_point * 64 + b.toNat % 64))) := by
  simp only [step]
  rw [if_neg (by omega), if_neg (by omega), if_pos trivial]

theorem Decoder.step_bounds {b : UInt8} {r : Decoder × Option Char} (hd : d.bytes_needed ≠ 0)
    (hs : d.step b = some r) : d.lower ≤ b.toNat ∧ b.toNat ≤ d.upper := by
  rw [step, if_neg hd] at hs
  split_ifs at hs with hb
  all_goals omega

theorem Decoder.feed_cons {b : UInt8} {c : Option Char} (hd : d.step b = some (d', c)) :
    d.feed (b :: bs) = (d'.feed bs).map fun r => (r.1, c.toList ++ r.2) := by
  simp only [feed, hd, Option.bind_eq_bind, Option.bind_some]
  cases d'.feed bs <;> rfl

/-- **A character's encoding is decoded.** -/
theorem Decoder.feed_char (c : Char) :
    Decoder.start.feed (String.utf8EncodeChar c) = some (.start, [c]) := by
  have hv : c.toNat.isValidChar := c.valid
  have hc : Char.ofNat c.toNat = c := Char.ofNat_toNat c
  generalize c.toNat = v at hv hc
  subst hc
  rw [encode_ofNat hv]
  unfold Nat.isValidChar at hv
  split_ifs with h₁ h₂ h₃
  · have hb : (UInt8.ofNat v).toNat = v := toNat_byte (by omega)
    rw [feed_cons (step_one (by omega)), hb]
    rfl
  · have hb₁ := toNat_byte (show v / 64 % 32 + 0xc0 < 256 by omega)
    have hb₂ := toNat_byte (show v % 64 + 0x80 < 256 by omega)
    have hv' : (v / 64 % 32 + 0xc0) % 32 * 64 + (v % 64 + 0x80) % 64 = v := by omega
    rw [feed_cons (step_two (by omega)), feed_cons (step_last (by omega)), hb₁, hb₂, hv']
    rfl
  · have hb₁ := toNat_byte (show v / 4096 % 16 + 0xe0 < 256 by omega)
    have hb₂ := toNat_byte (show v / 64 % 64 + 0x80 < 256 by omega)
    have hb₃ := toNat_byte (show v % 64 + 0x80 < 256 by omega)
    have hv' : ((v / 4096 % 16 + 0xe0) % 16 * 64 + (v / 64 % 64 + 0x80) % 64) * 64 +
        (v % 64 + 0x80) % 64 = v := by omega
    rw [feed_cons (step_three (by omega)), feed_cons (step_next (by split_ifs <;> omega)),
      feed_cons (step_last (by omega)), hb₁, hb₂, hb₃, hv']
    rfl
  · have hb₁ := toNat_byte (show v / 262144 % 8 + 0xf0 < 256 by omega)
    have hb₂ := toNat_byte (show v / 4096 % 64 + 0x80 < 256 by omega)
    have hb₃ := toNat_byte (show v / 64 % 64 + 0x80 < 256 by omega)
    have hb₄ := toNat_byte (show v % 64 + 0x80 < 256 by omega)
    have hv' : (((v / 262144 % 8 + 0xf0) % 8 * 64 + (v / 4096 % 64 + 0x80) % 64) * 64 +
        (v / 64 % 64 + 0x80) % 64) * 64 + (v % 64 + 0x80) % 64 = v := by omega
    rw [feed_cons (step_four (by omega)), feed_cons (step_next (by split_ifs <;> omega)),
      feed_cons (step_next (by omega)), feed_cons (step_last (by omega)), hb₁, hb₂, hb₃, hb₄, hv']
    rfl

/-- **A text's encoding is decoded.** -/
theorem Decoder.feed_encode (cs : List Char) : Decoder.start.feed (encode cs) = some (.start, cs) := by
  induction cs with
  | nil => rfl
  | cons c cs ih =>
    rw [encode_cons, feed_append, feed_char]
    simp [ih]

/-! ## What is decoded was encoded -/

/-- The decoder after the first bytes of a character. -/
inductive Pending : Decoder → List UInt8 → Prop where
  | start : Pending .start []
  | two (b : UInt8) : 0xc2 ≤ b.toNat ∧ b.toNat ≤ 0xdf →
      Pending ⟨b.toNat % 32, 1, 0x80, 0xbf⟩ [b]
  | three (b : UInt8) : 0xe0 ≤ b.toNat ∧ b.toNat ≤ 0xef →
      Pending ⟨b.toNat % 16, 2, if b.toNat = 0xe0 then 0xa0 else 0x80,
        if b.toNat = 0xed then 0x9f else 0xbf⟩ [b]
  | three_next (b b₁ : UInt8) : 0xe0 ≤ b.toNat ∧ b.toNat ≤ 0xef →
      0x80 ≤ b₁.toNat ∧ b₁.toNat ≤ 0xbf → (b.toNat = 0xe0 → 0xa0 ≤ b₁.toNat) →
      (b.toNat = 0xed → b₁.toNat ≤ 0x9f) →
      Pending ⟨b.toNat % 16 * 64 + b₁.toNat % 64, 1, 0x80, 0xbf⟩ [b, b₁]
  | four (b : UInt8) : 0xf0 ≤ b.toNat ∧ b.toNat ≤ 0xf4 →
      Pending ⟨b.toNat % 8, 3, if b.toNat = 0xf0 then 0x90 else 0x80,
        if b.toNat = 0xf4 then 0x8f else 0xbf⟩ [b]
  | four_next (b b₁ : UInt8) : 0xf0 ≤ b.toNat ∧ b.toNat ≤ 0xf4 →
      0x80 ≤ b₁.toNat ∧ b₁.toNat ≤ 0xbf → (b.toNat = 0xf0 → 0x90 ≤ b₁.toNat) →
      (b.toNat = 0xf4 → b₁.toNat ≤ 0x8f) →
      Pending ⟨b.toNat % 8 * 64 + b₁.toNat % 64, 2, 0x80, 0xbf⟩ [b, b₁]
  | four_last (b b₁ b₂ : UInt8) : 0xf0 ≤ b.toNat ∧ b.toNat ≤ 0xf4 →
      0x80 ≤ b₁.toNat ∧ b₁.toNat ≤ 0xbf → (b.toNat = 0xf0 → 0x90 ≤ b₁.toNat) →
      (b.toNat = 0xf4 → b₁.toNat ≤ 0x8f) → 0x80 ≤ b₂.toNat ∧ b₂.toNat ≤ 0xbf →
      Pending ⟨(b.toNat % 8 * 64 + b₁.toNat % 64) * 64 + b₂.toNat % 64, 1, 0x80, 0xbf⟩ [b, b₁, b₂]

/-- What one byte does within a character: it ends it, or more are needed. -/
theorem Pending.step {seen : List UInt8} {b : UInt8} {c : Option Char} (hp : Pending d seen)
    (hd : d.step b = some (d', c)) :
    (∃ c', c = some c' ∧ d' = .start ∧ seen ++ [b] = String.utf8EncodeChar c') ∨
      c = none ∧ Pending d' (seen ++ [b]) := by
  cases hp with
  | start =>
    by_cases h₁ : b.toNat ≤ 0x7f
    · rw [Decoder.step_one h₁] at hd
      cases hd
      refine .inl ⟨_, rfl, rfl, ?_⟩
      rw [encode_ofNat (by unfold Nat.isValidChar; omega), if_pos h₁, byte_eq rfl]
      rfl
    by_cases h₂ : 0xc2 ≤ b.toNat ∧ b.toNat ≤ 0xdf
    · rw [Decoder.step_two h₂] at hd
      cases hd
      exact .inr ⟨rfl, .two b h₂⟩
    by_cases h₃ : 0xe0 ≤ b.toNat ∧ b.toNat ≤ 0xef
    · rw [Decoder.step_three h₃] at hd
      cases hd
      exact .inr ⟨rfl, .three b h₃⟩
    by_cases h₄ : 0xf0 ≤ b.toNat ∧ b.toNat ≤ 0xf4
    · rw [Decoder.step_four h₄] at hd
      cases hd
      exact .inr ⟨rfl, .four b h₄⟩
    rw [Decoder.step, if_pos Decoder.start_bytes_needed, if_neg h₁, if_neg h₂, if_neg h₃,
      if_neg h₄] at hd
    cases hd
  | two b₀ h₀ =>
    have hb := Decoder.step_bounds (by simp) hd
    dsimp only at hb
    rw [Decoder.step_last hb] at hd
    cases hd
    refine .inl ⟨_, rfl, rfl, ?_⟩
    rw [encode_ofNat (by unfold Nat.isValidChar; omega), if_neg (by omega), if_pos (by omega),
      byte_eq (b := b₀) (by omega), byte_eq (b := b) (by omega)]
    rfl
  | three b₀ h₀ =>
    have hb := Decoder.step_bounds (by simp) hd
    dsimp only at hb
    rw [Decoder.step_next hb] at hd
    cases hd
    refine .inr ⟨rfl, .three_next b₀ b h₀ ?_ ?_ ?_⟩ <;> split_ifs at hb <;> omega
  | three_next b₀ b₁ h₀ h₁ hlow hhigh =>
    have hb := Decoder.step_bounds (by simp) hd
    dsimp only at hb
    rw [Decoder.step_last hb] at hd
    cases hd
    refine .inl ⟨_, rfl, rfl, ?_⟩
    rw [encode_ofNat (by unfold Nat.isValidChar; omega), if_neg (by omega), if_neg (by omega),
      if_pos (by omega), byte_eq (b := b₀) (by omega), byte_eq (b := b₁) (by omega),
      byte_eq (b := b) (by omega)]
    rfl
  | four b₀ h₀ =>
    have hb := Decoder.step_bounds (by simp) hd
    dsimp only at hb
    rw [Decoder.step_next hb] at hd
    cases hd
    refine .inr ⟨rfl, .four_next b₀ b h₀ ?_ ?_ ?_⟩ <;> split_ifs at hb <;> omega
  | four_next b₀ b₁ h₀ h₁ hlow hhigh =>
    have hb := Decoder.step_bounds (by simp) hd
    dsimp only at hb
    rw [Decoder.step_next hb] at hd
    cases hd
    exact .inr ⟨rfl, .four_last b₀ b₁ b h₀ h₁ hlow hhigh hb⟩
  | four_last b₀ b₁ b₂ h₀ h₁ hlow hhigh h₂ =>
    have hb := Decoder.step_bounds (by simp) hd
    dsimp only at hb
    rw [Decoder.step_last hb] at hd
    cases hd
    refine .inl ⟨_, rfl, rfl, ?_⟩
    rw [encode_ofNat (by unfold Nat.isValidChar; omega), if_neg (by omega), if_neg (by omega),
      if_neg (by omega), byte_eq (b := b₀) (by omega), byte_eq (b := b₁) (by omega),
      byte_eq (b := b₂) (by omega), byte_eq (b := b) (by omega)]
    rfl

theorem Pending.complete {seen : List UInt8} (hp : Pending d seen) (hd : d.bytes_needed = 0) :
    d = .start ∧ seen = [] := by
  cases hp with
  | start => exact ⟨rfl, rfl⟩
  | _ => cases hd

/-- What comes out is encoded in what went in, but for the first bytes of a character. -/
theorem Pending.feed {seen : List UInt8} (hp : Pending d seen) (hd : d.feed bs = some (d', cs)) :
    ∃ seen', Pending d' seen' ∧ seen ++ bs = encode cs ++ seen' := by
  induction bs generalizing d seen cs with
  | nil =>
    obtain ⟨rfl, rfl⟩ : d = d' ∧ [] = cs := by simpa [Decoder.feed] using hd
    exact ⟨seen, hp, by simp⟩
  | cons b bs ih =>
    cases hs : d.step b with
    | none => simp [Decoder.feed, hs] at hd
    | some r =>
      rw [Decoder.feed_cons hs, Option.map_eq_some_iff] at hd
      obtain ⟨⟨d'', cs'⟩, hfeed, heq⟩ := hd
      obtain ⟨rfl, rfl⟩ := Prod.mk.inj heq
      dsimp only
      rcases hp.step hs with ⟨c, hc, hstart, hseen⟩ | ⟨hc, hp'⟩
      · obtain ⟨seen', hp', hrest⟩ := ih (hstart ▸ Pending.start) hfeed
        refine ⟨seen', hp', ?_⟩
        rw [hc, Option.toList_some, List.singleton_append, encode_cons, List.append_assoc, ← hrest,
          ← hseen, List.nil_append, List.append_assoc, List.singleton_append]
      · obtain ⟨seen', hp', hrest⟩ := ih hp' hfeed
        refine ⟨seen', hp', ?_⟩
        rw [hc, Option.toList_none, List.nil_append, ← hrest, List.append_assoc,
          List.singleton_append]

/-- **Decoding is exact:** what comes out without an error and without a rest is the text whose
encoding went in. -/
theorem Decoder.feed_eq_some_iff :
    Decoder.start.feed bs = some (d, cs) ∧ d.bytes_needed = 0 ↔ d = .start ∧ bs = encode cs := by
  constructor
  · rintro ⟨hd, hneeded⟩
    obtain ⟨seen, hp, hbs⟩ := Pending.start.feed hd
    obtain ⟨rfl, rfl⟩ := hp.complete hneeded
    exact ⟨rfl, by simpa using hbs⟩
  · rintro ⟨rfl, rfl⟩
    exact ⟨feed_encode cs, rfl⟩

/-! ## Texts with a byte-order mark -/

/-- The byte-order mark. -/
def BOM : Char := Char.ofNat 0xfeff

/-- A text without the byte-order mark that it may begin with. -/
def strip_bom : List Char → List Char
  | c :: cs => if c = BOM then cs else c :: cs
  | [] => []

/-- `new TextDecoder("utf-8", { fatal: true })` -/
structure TextDecoder where
  decoder : Decoder
  bom_seen : Bool
deriving DecidableEq

/-- Nothing has been read yet. -/
def TextDecoder.new : TextDecoder := ⟨.start, false⟩

/-- The characters that come out, where the first of all is dropped if it is a byte-order mark. -/
def serialize : Bool → List Char → Bool × List Char
  | false, c :: cs => (true, strip_bom (c :: cs))
  | bom_seen, cs => (bom_seen, cs)

/-- With `stream`, a character may be unfinished and more is to come; else the decoder is reset. -/
def TextDecoder.decode (t : TextDecoder) (value : List UInt8) (stream : Bool) :
    Option (TextDecoder × List Char) := do
  let (decoder, cs) ← t.decoder.feed value
  let (bom_seen, text) := serialize t.bom_seen cs
  if stream then return (⟨decoder, bom_seen⟩, text)
  else if decoder.bytes_needed ≠ 0 then failure
  else return (.new, text)

theorem serialize_append (bom_seen : Bool) (cs cs' : List Char) :
    serialize bom_seen (cs ++ cs') =
      ((serialize (serialize bom_seen cs).1 cs').1,
        (serialize bom_seen cs).2 ++ (serialize (serialize bom_seen cs).1 cs').2) := by
  cases bom_seen with
  | true => rfl
  | false =>
    cases cs with
    | nil => rfl
    | cons c cs =>
      simp only [List.cons_append, serialize, strip_bom]
      split_ifs <;> rfl

/-- **A text can be decoded in pieces.** -/
theorem TextDecoder.decode_append (t : TextDecoder) (as bs : List UInt8) (stream : Bool) :
    t.decode (as ++ bs) stream = do
      let (t, text) ← t.decode as true
      let (t, text') ← t.decode bs stream
      return (t, text ++ text') := by
  simp only [decode, Decoder.feed_append]
  cases t.decoder.feed as with
  | none => rfl
  | some r =>
    obtain ⟨d, cs⟩ := r
    simp only [Option.bind_eq_bind, Option.bind_some, if_true, Option.pure_def]
    cases d.feed bs with
    | none => rfl
    | some r' =>
      simp only [Option.bind_some, serialize_append]
      split_ifs <;> rfl

/-- **What is decoded at once:** the text of an encoding, without its byte-order mark. -/
theorem TextDecoder.decode_eq_some_iff {t : TextDecoder} {text : List Char} :
    TextDecoder.new.decode bs false = some (t, text) ↔
      t = .new ∧ ∃ cs, bs = encode cs ∧ text = strip_bom cs := by
  have hserialize : ∀ cs, (serialize false cs).2 = strip_bom cs := by
    intro cs
    cases cs <;> rfl
  simp only [decode, new, Option.bind_eq_bind, Option.bind_eq_some_iff, Bool.false_eq_true, if_false,
    hserialize]
  constructor
  · rintro ⟨⟨d, cs⟩, hfeed, hd⟩
    split_ifs at hd with hneeded
    obtain ⟨rfl, rfl⟩ := Prod.mk.inj (Option.some.inj hd)
    exact ⟨rfl, cs, (Decoder.feed_eq_some_iff.mp ⟨hfeed, not_not.mp hneeded⟩).2, rfl⟩
  · rintro ⟨rfl, cs, hbs, rfl⟩
    obtain ⟨hfeed, hneeded⟩ := Decoder.feed_eq_some_iff.mpr ⟨rfl, hbs⟩
    exact ⟨_, hfeed, by simp [hneeded]⟩

end Utf8
