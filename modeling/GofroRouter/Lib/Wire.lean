import Mathlib.Tactic

/-!
# The protobuf wire format

A message is a list of numbered fields. The reference reading works on byte lists and follows the
encoding rules directly, without positions.

* `u64`: a base-128 integer of at most ten bytes and 64 bits; `put` is its shortest encoding
  (`u64_put`), and `u64_encoding` says which encodings are read.
* `field`, `fields`: one field, and all fields of a message; `fields_of_ne_nil` and
  `fields_foldlM` unfold one step.
* `lastInteger`, `lastBytes`, `byteStrings`: the value of a field by its number.
* `resume_last`, `resume_more`: what one byte of an integer contributes.
* `putField`: the encoding of an integer or bytes field; `fields_putField`, `fields_flatMap` read a
  sequence of encoded fields back.
-/

namespace Wire

/-- The payload of a field. -/
inductive Value
  | integer (v : ℕ)
  | bytes (bs : List UInt8)
  | fixed
deriving DecidableEq

/-- A base-128 integer of at most `n` bytes, and the bytes after it. -/
def varint : ℕ → List UInt8 → Option (ℕ × List UInt8)
  | 0, _ => none
  | _ + 1, [] => none
  | n + 1, b :: bs =>
    if b.toNat < 128 then some (b.toNat, bs)
    else (varint n bs).map fun (v, rest) => (b.toNat - 128 + 128 * v, rest)

/-- A 64-bit integer, and the bytes after it. -/
def u64 (bs : List UInt8) : Option (ℕ × List UInt8) := do
  let (v, rest) ← varint 10 bs
  if v < 2 ^ 64 then some (v, rest) else none

/-- The first `n` bytes, and the bytes after them. -/
def split (n : ℕ) (bs : List UInt8) : Option (List UInt8 × List UInt8) :=
  if n ≤ bs.length then some (bs.take n, bs.drop n) else none

/-- The payload of a field with wire type `wire`, and the bytes after it. -/
def payload (wire : ℕ) (bs : List UInt8) : Option (Value × List UInt8) :=
  match wire with
  | 0 => (u64 bs).map fun (v, rest) => (.integer v, rest)
  | 1 => (split 8 bs).map fun (_, rest) => (.fixed, rest)
  | 2 => do
    let (len, bs) ← u64 bs
    (split len bs).map fun (v, rest) => (.bytes v, rest)
  | 5 => (split 4 bs).map fun (_, rest) => (.fixed, rest)
  | _ => none

/-- A field number and its payload. -/
abbrev Field := ℕ × Value

/-- The first field of a message, and the bytes after it. -/
def field (bs : List UInt8) : Option (Field × List UInt8) := do
  let (key, bs) ← u64 bs
  if 1 ≤ key / 8 ∧ key / 8 ≤ 0x1fffffff then
    (payload (key % 8) bs).map fun (v, rest) => ((key / 8, v), rest)
  else none

/-- At most `n` fields, up to the end of the bytes. -/
def fieldsUpTo : ℕ → List UInt8 → Option (List Field)
  | _, [] => some []
  | 0, _ :: _ => none
  | n + 1, b :: bs => do
    let (f, rest) ← field (b :: bs)
    (fieldsUpTo n rest).map (f :: ·)

/-- **The fields of a message**, in order. -/
def fields (bs : List UInt8) : Option (List Field) := fieldsUpTo bs.length bs

/-! ## Reading a message by field number -/

/-- The integers of field `n`, in order. -/
def integers (n : ℕ) (fs : List Field) : List ℕ :=
  fs.filterMap fun f => match f.2 with
    | .integer v => if f.1 = n then some v else none
    | _ => none

/-- The byte strings of field `n`, in order. -/
def byteStrings (n : ℕ) (fs : List Field) : List (List UInt8) :=
  fs.filterMap fun f => match f.2 with
    | .bytes bs => if f.1 = n then some bs else none
    | _ => none

/-- An integer field that is set at most once: the last value wins, the default is 0. -/
def lastInteger (n : ℕ) (fs : List Field) : ℕ := (integers n fs).getLast?.getD 0

/-- A bytes field that is set at most once: the last value wins. -/
def lastBytes (n : ℕ) (fs : List Field) : Option (List UInt8) := (byteStrings n fs).getLast?

@[simp] theorem integers_concat (n : ℕ) (fs : List Field) (f : Field) :
    integers n (fs ++ [f]) = integers n fs ++ integers n [f] := List.filterMap_append ..

@[simp] theorem byteStrings_concat (n : ℕ) (fs : List Field) (f : Field) :
    byteStrings n (fs ++ [f]) = byteStrings n fs ++ byteStrings n [f] := List.filterMap_append ..

@[simp] theorem lastInteger_nil (n : ℕ) : lastInteger n [] = 0 := rfl

@[simp] theorem lastBytes_nil (n : ℕ) : lastBytes n [] = none := rfl

theorem lastInteger_concat (n : ℕ) (fs : List Field) (f : Field) :
    lastInteger n (fs ++ [f]) = match f.2 with
      | .integer v => if f.1 = n then v else lastInteger n fs
      | _ => lastInteger n fs := by
  obtain ⟨m, v | bs⟩ := f
  · by_cases h : m = n <;> simp [lastInteger, integers, h]
  · simp [lastInteger, integers]
  · simp [lastInteger, integers]

theorem lastBytes_concat (n : ℕ) (fs : List Field) (f : Field) :
    lastBytes n (fs ++ [f]) = match f.2 with
      | .bytes bs => if f.1 = n then some bs else lastBytes n fs
      | _ => lastBytes n fs := by
  obtain ⟨m, v | bs⟩ := f
  · simp [lastBytes, byteStrings]
  · by_cases h : m = n <;> simp [lastBytes, byteStrings, h]
  · simp [lastBytes, byteStrings]

/-! ## Reading consumes bytes -/

theorem varint_suffix {n v : ℕ} {bs rest : List UInt8} (h : varint n bs = some (v, rest)) :
    rest <:+ bs ∧ rest.length < bs.length := by
  induction n generalizing bs v with
  | zero => simp [varint] at h
  | succ n ih =>
    cases bs with
    | nil => simp [varint] at h
    | cons b bs =>
      rw [varint] at h
      split_ifs at h with hb
      · obtain ⟨-, rfl⟩ := Prod.mk.inj (Option.some.inj h)
        exact ⟨List.suffix_cons _ _, by simp⟩
      · obtain ⟨⟨w, r⟩, hv, he⟩ := Option.map_eq_some_iff.mp h
        obtain ⟨-, rfl⟩ := Prod.mk.inj he
        have := ih hv
        exact ⟨this.1.trans (List.suffix_cons _ _), by simp; omega⟩

theorem u64_eq_some {bs rest : List UInt8} {v : ℕ} :
    u64 bs = some (v, rest) ↔ varint 10 bs = some (v, rest) ∧ v < 2 ^ 64 := by
  unfold u64
  cases h : varint 10 bs with
  | none => simp
  | some p =>
    obtain ⟨w, r⟩ := p
    simp only [Option.bind_eq_bind, Option.bind_some, Option.some.injEq, Prod.mk.injEq]
    split_ifs with hw
    · simp only [Option.some.injEq, Prod.mk.injEq]
      exact ⟨fun ⟨a, b⟩ => ⟨⟨a, b⟩, a ▸ hw⟩, fun h => h.1⟩
    · simp only [false_iff, not_and]
      rintro ⟨rfl, -⟩
      exact hw

theorem u64_suffix {bs rest : List UInt8} {v : ℕ} (h : u64 bs = some (v, rest)) :
    rest <:+ bs ∧ rest.length < bs.length := varint_suffix (u64_eq_some.mp h).1

/-! ## Reading an integer byte by byte -/

/-- An integer of which `shift` bits have been read, with the value so far. -/
def resume (shift value : ℕ) (rest : Option (ℕ × List UInt8)) : Option (ℕ × List UInt8) :=
  rest.bind fun p =>
    if value + 2 ^ shift * p.1 < 2 ^ 64 then some (value + 2 ^ shift * p.1, p.2) else none

theorem resume_zero (bs : List UInt8) : resume 0 0 (varint 10 bs) = u64 bs := by
  simp only [resume, pow_zero, Nat.zero_add, Nat.one_mul, u64]
  rfl

theorem or_shift {value shift v : ℕ} (h : value < 2 ^ shift) :
    value ||| v <<< shift = value + 2 ^ shift * v := by
  rw [Nat.shiftLeft_eq, Nat.or_comm, Nat.mul_comm, ← Nat.two_pow_add_eq_or_of_lt h, Nat.add_comm]

theorem byte_low (b : UInt8) : b.toNat &&& 0x7f = b.toNat % 128 :=
  Nat.and_two_pow_sub_one_eq_mod _ 7

section

variable {n shift value : ℕ} {b : UInt8} {bs : List UInt8}

theorem value_lt (hv : value < 2 ^ shift) :
    value + 2 ^ shift * (b.toNat % 128) < 2 ^ (shift + 7) := by
  have h : 2 ^ shift * (b.toNat % 128) ≤ 2 ^ shift * 127 :=
    Nat.mul_le_mul_left _ (Nat.le_of_lt_succ (Nat.mod_lt _ (by norm_num)))
  rw [pow_add]
  omega

/-- **The last byte**: a tenth byte holds one bit. -/
theorem resume_last (hn : shift + 7 * (n + 1) = 70) (hv : value < 2 ^ shift)
    (hb : b.toNat < 128) : resume shift value (varint (n + 1) (b :: bs)) =
      if shift < 63 ∨ b.toNat ≤ 1 then some (value + 2 ^ shift * (b.toNat % 128), bs) else none := by
  have hfits : value + 2 ^ shift * b.toNat < 2 ^ 64 ↔ shift < 63 ∨ b.toNat ≤ 1 := by
    by_cases hs : shift < 63
    · have h₁ : 2 ^ shift ≤ 2 ^ 56 := Nat.pow_le_pow_right (by norm_num) (by omega)
      have h₂ : 2 ^ shift * b.toNat ≤ 2 ^ 56 * 127 := Nat.mul_le_mul h₁ (by omega)
      exact iff_of_true (by omega) (.inl hs)
    · obtain rfl : shift = 63 := by omega
      omega
  rw [resume, varint, if_pos hb, Option.bind_some, Nat.mod_eq_of_lt hb]
  exact if_congr hfits rfl rfl

/-- **A byte with a successor**: there is none after a tenth byte. -/
theorem resume_more (hn : shift + 7 * (n + 1) = 70) (hb : ¬ b.toNat < 128) :
    resume shift value (varint (n + 1) (b :: bs)) =
      if shift < 63 ∨ b.toNat ≤ 1 then
        resume (shift + 7) (value + 2 ^ shift * (b.toNat % 128)) (varint n bs)
      else none := by
  have hmod : b.toNat % 128 = b.toNat - 128 := by have := b.toNat_lt; omega
  rw [varint, if_neg hb, hmod]
  by_cases hs : shift < 63
  · have hsum : ∀ q : ℕ, value + 2 ^ shift * (b.toNat - 128) + 2 ^ (shift + 7) * q =
        value + 2 ^ shift * (b.toNat - 128 + 128 * q) := by
      intro q
      rw [pow_add]
      ring
    rw [if_pos (.inl hs)]
    simp only [resume, hsum, Option.bind_map, Function.comp_def]
  · obtain rfl : n = 0 := by omega
    rw [if_neg (by omega)]
    rfl

end

theorem split_eq_some {n : ℕ} {bs a rest : List UInt8} (h : split n bs = some (a, rest)) :
    bs = a ++ rest ∧ a.length = n := by
  unfold split at h
  split_ifs at h with hn
  obtain ⟨rfl, rfl⟩ := Prod.mk.inj (Option.some.inj h)
  exact ⟨(List.take_append_drop n bs).symm, by simpa using hn⟩

theorem split_suffix {n : ℕ} {bs a rest : List UInt8} (h : split n bs = some (a, rest)) :
    rest <:+ bs := by
  rw [(split_eq_some h).1]; exact List.suffix_append _ _

theorem payload_suffix {wire : ℕ} {bs rest : List UInt8} {v : Value}
    (h : payload wire bs = some (v, rest)) : rest <:+ bs := by
  unfold payload at h
  split at h
  · obtain ⟨⟨w, r⟩, hu, he⟩ := Option.map_eq_some_iff.mp h
    obtain ⟨-, rfl⟩ := Prod.mk.inj he
    exact (u64_suffix hu).1
  · obtain ⟨⟨w, r⟩, hu, he⟩ := Option.map_eq_some_iff.mp h
    obtain ⟨-, rfl⟩ := Prod.mk.inj he
    exact split_suffix hu
  · obtain ⟨⟨len, bs'⟩, hu, h⟩ := Option.bind_eq_some_iff.mp h
    obtain ⟨⟨w, r⟩, hs, he⟩ := Option.map_eq_some_iff.mp h
    obtain ⟨-, rfl⟩ := Prod.mk.inj he
    exact (split_suffix hs).trans (u64_suffix hu).1
  · obtain ⟨⟨w, r⟩, hu, he⟩ := Option.map_eq_some_iff.mp h
    obtain ⟨-, rfl⟩ := Prod.mk.inj he
    exact split_suffix hu
  · cases h

theorem field_suffix {bs rest : List UInt8} {f : Field} (h : field bs = some (f, rest)) :
    rest <:+ bs ∧ rest.length < bs.length := by
  unfold field at h
  obtain ⟨⟨key, bs'⟩, hu, h⟩ := Option.bind_eq_some_iff.mp h
  simp only at h
  split_ifs at h
  obtain ⟨⟨w, r⟩, hp, he⟩ := Option.map_eq_some_iff.mp h
  obtain ⟨-, rfl⟩ := Prod.mk.inj he
  have h₁ := u64_suffix hu
  have h₂ := payload_suffix hp
  exact ⟨h₂.trans h₁.1, lt_of_le_of_lt h₂.length_le h₁.2⟩

theorem fieldsUpTo_eq {n m : ℕ} {bs : List UInt8} (hn : bs.length ≤ n) (hm : bs.length ≤ m) :
    fieldsUpTo n bs = fieldsUpTo m bs := by
  induction n generalizing m bs with
  | zero =>
    obtain rfl := List.length_eq_zero_iff.mp (Nat.le_zero.mp hn)
    cases m <;> rfl
  | succ n ih =>
    cases bs with
    | nil => cases m <;> rfl
    | cons b bs =>
      cases m with
      | zero => simp at hm
      | succ m =>
        simp only [fieldsUpTo]
        cases hf : field (b :: bs) with
        | none => rfl
        | some p =>
          obtain ⟨f, rest⟩ := p
          have := (field_suffix hf).2
          simp only [List.length_cons] at *
          simp only [Option.bind_eq_bind, Option.bind_some]
          rw [ih (m := m) (by omega) (by omega)]

@[simp] theorem fields_nil : fields [] = some [] := rfl

/-- **One step of reading a message.** -/
theorem fields_of_ne_nil {bs : List UInt8} (h : bs ≠ []) :
    fields bs = (field bs).bind fun p => (fields p.2).map (p.1 :: ·) := by
  cases bs with
  | nil => exact absurd rfl h
  | cons b bs =>
    rw [fields, List.length_cons, fieldsUpTo]
    cases hf : field (b :: bs) with
    | none => rfl
    | some p =>
      have := (field_suffix hf).2
      simp only [List.length_cons] at this
      simp only [Option.bind_eq_bind, Option.bind_some]
      rw [fields, fieldsUpTo_eq (m := p.2.length) (by omega) le_rfl]

/-- **A loop over the fields**: the first field is handled, and then the others. -/
theorem fields_foldlM {τ : Type} (f : τ → Field → Option τ) (t : τ) {bs : List UInt8}
    (h : bs ≠ []) : ((fields bs).bind fun fs => fs.foldlM f t) =
      (field bs).bind fun p => (f t p.1).bind fun t =>
        (fields p.2).bind fun fs => fs.foldlM f t := by
  rw [fields_of_ne_nil h]
  cases field bs with
  | none => rfl
  | some p =>
    simp only [Option.bind_some, Option.bind_map, Function.comp_def, List.foldlM_cons]
    cases f t p.1 with
    | none => cases fields p.2 <;> rfl
    | some t => rfl

/-! ## Encoding -/

/-- The shortest encoding of an integer of at most `n + 1` bytes. -/
def putUpTo : ℕ → ℕ → List UInt8
  | 0, v => [UInt8.ofNat v]
  | n + 1, v => if v < 128 then [UInt8.ofNat v] else UInt8.ofNat (v % 128 + 128) :: putUpTo n (v / 128)

/-- The shortest encoding of a 64-bit integer. -/
def put (v : ℕ) : List UInt8 := putUpTo 9 v

/-- An encoded field. -/
def putField : Field → List UInt8
  | (n, .integer v) => put (n * 8) ++ put v
  | (n, .bytes bs) => put (n * 8 + 2) ++ put bs.length ++ bs
  | (n, .fixed) => put (n * 8 + 5) ++ [0, 0, 0, 0]

theorem byte_toNat {v : ℕ} (h : v < 256) : (UInt8.ofNat v).toNat = v := by
  rw [UInt8.toNat_ofNat']; omega

theorem varint_putUpTo (n v : ℕ) (h : v < 128 ^ (n + 1)) (rest : List UInt8) :
    varint (n + 1) (putUpTo n v ++ rest) = some (v, rest) := by
  induction n generalizing v with
  | zero =>
    have hv : v < 128 := by simpa using h
    simp [putUpTo, varint, byte_toNat (show v < 256 by omega), hv]
  | succ n ih =>
    rw [putUpTo]
    split_ifs with hv
    · simp [varint, byte_toNat (show v < 256 by omega), hv]
    · have hlt : v / 128 < 128 ^ (n + 1) := by
        rw [Nat.div_lt_iff_lt_mul (by norm_num), ← pow_succ]; exact h
      have hb := byte_toNat (show v % 128 + 128 < 256 by omega)
      rw [List.cons_append, varint, hb, if_neg (by omega), ih _ hlt]
      simp only [Option.map_some, Option.some.injEq, Prod.mk.injEq, and_true]
      omega

/-- **The shortest encoding is read back.** -/
theorem u64_put {v : ℕ} (h : v < 2 ^ 64) (rest : List UInt8) :
    u64 (put v ++ rest) = some (v, rest) :=
  u64_eq_some.mpr ⟨varint_putUpTo 9 v (lt_trans h (by norm_num)) rest, h⟩

/-- The integer that bytes encode, the least significant seven bits first. -/
def base128 (bs : List UInt8) : ℕ := bs.foldr (fun b v => b.toNat % 128 + 128 * v) 0

section

variable {init : List UInt8} {last : UInt8}

theorem varint_encoding (hinit : ∀ b ∈ init, 128 ≤ b.toNat) (hlast : last.toNat < 128) (n : ℕ)
    (rest : List UInt8) : varint n (init ++ last :: rest) =
      if init.length < n then some (base128 (init ++ [last]), rest) else none := by
  induction init generalizing n with
  | nil =>
    cases n with
    | zero => rfl
    | succ n => simp [varint, base128, hlast, Nat.mod_eq_of_lt hlast]
  | cons b init ih =>
    cases n with
    | zero => rfl
    | succ n =>
      have hb : 128 ≤ b.toNat := hinit b (.head _)
      have hmod : b.toNat % 128 = b.toNat - 128 := by have := b.toNat_lt; omega
      rw [List.cons_append, varint, if_neg (by omega), ih (fun c hc => hinit c (.tail _ hc))]
      by_cases hlen : init.length < n
      · simp [hlen, base128, hmod]
      · simp [hlen]

/-- **Any encoding** is read if it has at most ten bytes and fits into 64 bits. -/
theorem u64_encoding (hinit : ∀ b ∈ init, 128 ≤ b.toNat) (hlast : last.toNat < 128)
    (rest : List UInt8) : u64 (init ++ last :: rest) =
      if init.length < 10 ∧ base128 (init ++ [last]) < 2 ^ 64 then
        some (base128 (init ++ [last]), rest)
      else none := by
  rw [u64, varint_encoding hinit hlast]
  by_cases hlen : init.length < 10
  · simp [hlen]
  · simp [hlen]

end

theorem put_ne_nil (v : ℕ) : put v ≠ [] := by
  rw [put, putUpTo]; split_ifs <;> simp

/-- The fields `putField` can encode. -/
def Field.Small : Field → Prop
  | (n, .integer v) => 1 ≤ n ∧ n ≤ 0x1fffffff ∧ v < 2 ^ 64
  | (n, .bytes bs) => 1 ≤ n ∧ n ≤ 0x1fffffff ∧ bs.length < 2 ^ 64
  | (n, .fixed) => 1 ≤ n ∧ n ≤ 0x1fffffff

theorem field_key {n wire : ℕ} (hn : 1 ≤ n) (hn' : n ≤ 0x1fffffff) (hw : wire < 8)
    (bs : List UInt8) : field (put (n * 8 + wire) ++ bs) =
      (payload wire bs).map fun p => ((n, p.1), p.2) := by
  have h₁ : (n * 8 + wire) / 8 = n := by omega
  have h₂ : (n * 8 + wire) % 8 = wire := by omega
  rw [field, u64_put (by omega)]
  simp only [Option.bind_eq_bind, Option.bind_some, h₁, h₂, if_pos (And.intro hn hn')]

theorem split_append {n : ℕ} {a : List UInt8} (h : a.length = n) (rest : List UInt8) :
    split n (a ++ rest) = some (a, rest) := by
  rw [split, if_pos (by simp [h]), List.take_left' h, List.drop_left' h]

theorem field_putField {f : Field} (hf : Field.Small f) (rest : List UInt8) :
    field (putField f ++ rest) = some (f, rest) := by
  obtain ⟨n, v | bs⟩ := f
  · obtain ⟨h₁, h₂, h₃⟩ := hf
    have := field_key h₁ h₂ (show 0 < 8 by norm_num) (put v ++ rest)
    rw [Nat.add_zero] at this
    rw [putField, List.append_assoc, this, payload, u64_put h₃]
    rfl
  · obtain ⟨h₁, h₂, h₃⟩ := hf
    rw [putField, List.append_assoc, List.append_assoc,
      field_key h₁ h₂ (show 2 < 8 by norm_num), payload, u64_put h₃]
    simp only [Option.bind_eq_bind, Option.bind_some, split_append rfl]
    rfl
  · obtain ⟨h₁, h₂⟩ := hf
    rw [putField, List.append_assoc, field_key h₁ h₂ (show 5 < 8 by norm_num), payload,
      split_append (n := 4) (a := [0, 0, 0, 0]) rfl]
    rfl

theorem putField_ne_nil (f : Field) : putField f ≠ [] := by
  obtain ⟨n, v | bs⟩ := f <;> simp [putField, put_ne_nil]

theorem fields_putField {f : Field} (hf : Field.Small f) (rest : List UInt8) :
    fields (putField f ++ rest) = (fields rest).map (f :: ·) := by
  rw [fields_of_ne_nil (by simp [putField_ne_nil]), field_putField hf, Option.bind_some]

/-- **Encoded fields are read back in order.** -/
theorem fields_flatMap {fs : List Field} (h : ∀ f ∈ fs, Field.Small f) :
    fields (fs.flatMap putField) = some fs := by
  induction fs with
  | nil => rfl
  | cons f fs ih =>
    rw [List.flatMap_cons, fields_putField (h f List.mem_cons_self),
      ih fun f hf => h f (List.mem_cons_of_mem _ hf), Option.map_some]

end Wire
