import GofroRouter.Lib.Sim
import GofroRouter.Lib.Wire
import GofroRouter.Lib.Text

/-!
# The bounded protobuf reader

`geodata/wire.rs`: a reader over an open file with a position and an end. A length-delimited field
is returned as a range of the file, not as bytes.

* `Reader`, `integer`, `field`, `within`, `bytes`, `string`: the reader's operations.
* `fields_loop`: the loop `while let Some((field, value)) = reader.field()?` of every decoder.
* `Reads`: a read simulates a reading of the bytes between position and end.
* **`reads_fields_loop`**: the loop reads the fields that `Wire.fields` finds in those bytes.
-/

namespace Gofro.Agent.Geodata

/-- The contents of an open file. A file offset fits a signed 64-bit integer. -/
structure File where
  bytes : List UInt8
  small : bytes.length < 2 ^ 63
deriving DecidableEq

/-- A part of the file. -/
structure Range where
  start : ℕ
  len : ℕ
deriving DecidableEq

inductive Value
  | integer (v : ℕ)
  | bytes (range : Range)
  | fixed
deriving DecidableEq

/-- The reader's bounds; the file is passed beside it. -/
structure Reader where
  position : ℕ
  end_ : ℕ
deriving DecidableEq

/-- A read may fail, and moves the reader on. -/
abbrev Read := StateT Reader (Except String)

/-- A reader for the whole file. -/
def Reader.new (file : File) : Reader := ⟨0, file.bytes.length⟩

def fail {α : Type} (message : String) : Read α := fun _ => .error message

def ensure (cond : Bool) (message : String) : Read Unit :=
  if cond then return () else fail message

/-! ## Operations -/

/-- `read_exact` of one byte; the caller moves the position. -/
def read_byte (file : File) : Read UInt8 := do
  match file.bytes[(← get).position]? with
  | some byte => return byte
  | none => fail "failed to fill whole buffer"

/-- `read_exact` of `n` bytes; the caller moves the position. -/
def read_exact (file : File) (n : ℕ) : Read (List UInt8) := do
  let r ← get
  ensure (r.position + n ≤ file.bytes.length) "failed to fill whole buffer"
  return (file.bytes.drop r.position).take n

/-- The last `n` rounds of the loop in `integer`. -/
def integer_loop (file : File) : ℕ → ℕ → ℕ → Read ℕ
  | 0, _, _ => fail "protobuf integer overflow"
  | n + 1, shift, value => do
    let r ← get
    ensure (r.position < r.end_) "truncated protobuf integer"
    let byte ← read_byte file
    set { r with position := r.position + 1 }
    ensure (shift < 63 || byte ≤ 1) "protobuf integer overflow"
    let value := value ||| (byte.toNat &&& 0x7f) <<< shift
    if byte.toNat &&& 0x80 = 0 then return value
    else integer_loop file n (shift + 7) value

/-- At most ten bytes. -/
def integer (file : File) : Read ℕ := integer_loop file 10 0 0

/-- The distance has to fit into a signed word. -/
def seek (position : ℕ) : Read Unit := do
  let r ← get
  let delta := (position : ℤ) - r.position
  ensure (-2 ^ 63 ≤ delta && delta < 2 ^ 63) "out of range integral type conversion attempted"
  set { r with position }

/-- The end of the range may not be passed. -/
def skip (len : ℕ) : Read Unit := do
  let r ← get
  ensure (r.position + len < 2 ^ 64) "protobuf offset overflow"
  ensure (r.position + len ≤ r.end_) "truncated protobuf field"
  seek (r.position + len)

/-- The payload of a field with wire type `wire`. -/
def field_value (file : File) (wire : ℕ) : Read Value := do
  match wire with
  | 0 => return .integer (← integer file)
  | 1 => skip 8; return .fixed
  | 2 =>
    let len ← integer file
    let range : Range := ⟨(← get).position, len⟩
    skip len
    return .bytes range
  | 5 => skip 4; return .fixed
  | _ => fail "unsupported protobuf wire type"

/-- The next field, or none at the end of the range. -/
def field (file : File) : Read (Option (ℕ × Value)) := do
  let r ← get
  if r.position = r.end_ then return none
  let key ← integer file
  let number := key >>> 3
  ensure (number < 2 ^ 32) "out of range integral type conversion attempted"
  ensure (1 ≤ number && number ≤ 0x1fffffff) "invalid protobuf field number"
  return some (number, ← field_value file (key &&& 7))

/-- Run `read` between the bounds of `range`. -/
def within {α : Type} (range : Range) (read : Read α) : Read α := do
  let r ← get
  seek range.start
  modify fun r => { r with end_ := range.start + range.len }
  let result ← read
  modify fun s => { s with end_ := r.end_ }
  seek r.position
  return result

/-- The bytes of a range of `n` bytes. -/
def bytes (file : File) (n : ℕ) (range : Range) : Read (List UInt8) := do
  ensure (range.len = n) "invalid protobuf byte length"
  within range do
    let bytes ← read_exact file n
    modify fun r => { r with position := r.position + n }
    return bytes

/-- A text of at most `limit` bytes. -/
def string (file : File) (range : Range) (limit : ℕ) : Read String := do
  ensure (range.len ≤ limit) "protobuf string is too large"
  within range do
    let bytes ← read_exact file range.len
    modify fun r => { r with position := r.position + range.len }
    match Text.from_utf8 bytes with
    | some s => return s
    | none => fail "invalid protobuf UTF-8"

/-- At most `n` rounds of `while let Some((field, value)) = reader.field()?`. -/
def fields_rounds {σ : Type} (file : File) (body : σ → ℕ → Value → Read σ) : ℕ → σ → Read σ
  | 0, _ => fail "unreachable"
  | n + 1, s => do
    match ← field file with
    | none => return s
    | some (number, value) => fields_rounds file body n (← body s number value)

/-- The loop over all fields up to the reader's end; every field takes at least one byte. -/
def fields_loop {σ : Type} (file : File) (body : σ → ℕ → Value → Read σ) (s : σ) : Read σ := do
  let r ← get
  fields_rounds file body (r.end_ - r.position + 1) s

/-! ## What a read sees -/

/-- The reader is in the file. -/
def Reader.Valid (file : File) (r : Reader) : Prop :=
  r.position ≤ r.end_ ∧ r.end_ ≤ file.bytes.length

/-- The range is in the file. -/
def Range.Valid (file : File) (range : Range) : Prop := range.start + range.len ≤ file.bytes.length

/-- The bytes between position and end. -/
def window (file : File) (r : Reader) : List UInt8 := (file.bytes.take r.end_).drop r.position

/-- The bytes of a range. -/
def slice (file : File) (range : Range) : List UInt8 := (file.bytes.drop range.start).take range.len

/-- A payload with its bytes in place of their range. -/
def Value.contents (file : File) : Value → Wire.Value
  | .integer v => .integer v
  | .bytes range => .bytes (slice file range)
  | .fixed => .fixed

/-- The payload is in the file. -/
def Value.Valid (file : File) : Value → Prop
  | .bytes range => range.Valid file
  | _ => True

/-- A read that simulates `y` and leaves `rest` of the bytes to its reader. -/
def Reads {α β : Type} (file : File) (r : Reader) (R : α → β → Prop) (m : Read α)
    (y : Option (β × List UInt8)) : Prop :=
  Sim (fun a b => R a.1 b.1 ∧ a.2.end_ = r.end_ ∧ r.position ≤ a.2.position ∧ a.2.Valid file ∧
    window file a.2 = b.2) (m.run r) y

section

variable {file : File} {r : Reader}

@[simp] theorem run_ensure (cond : Bool) (message : String) :
    (ensure cond message).run r = if cond then .ok ((), r) else .error message := by
  cases cond <;> rfl

theorem ok_bind {α β : Type} (a : α) (f : α → Except String β) : (Except.ok a >>= f) = f a := rfl

theorem window_length (hr : r.Valid file) : (window file r).length = r.end_ - r.position := by
  have := hr.2
  rw [window, List.length_drop, List.length_take]
  omega

theorem window_eq_nil (hr : r.Valid file) : window file r = [] ↔ r.position = r.end_ := by
  have := hr.1
  rw [← List.length_eq_zero_iff, window_length hr]
  omega

theorem window_cons (hr : r.Valid file) (hlt : r.position < r.end_) :
    ∃ b, file.bytes[r.position]? = some b ∧
      window file r = b :: window file { r with position := r.position + 1 } := by
  have hlen : r.position < (file.bytes.take r.end_).length := by
    have := hr.2
    rw [List.length_take]; omega
  have hbound : r.position < file.bytes.length := by have := hr.2; omega
  refine ⟨file.bytes[r.position], List.getElem?_eq_getElem hbound, ?_⟩
  rw [window, List.drop_eq_getElem_cons hlen, List.getElem_take]
  rfl

theorem window_drop (n : ℕ) : window file { r with position := r.position + n } =
    (window file r).drop n := by
  rw [window, window, List.drop_drop]

theorem window_take {n : ℕ} (h : r.position + n ≤ r.end_) :
    (window file r).take n = slice file ⟨r.position, n⟩ := by
  rw [window, slice, List.take_drop, List.take_take, List.take_drop, min_eq_left (by omega)]

/-! ## Integers -/

theorem byte_high : ∀ b : ℕ, b < 256 → (b &&& 0x80 = 0 ↔ b < 128) := by decide +kernel

theorem reads_integer_loop {n shift value : ℕ} (hn : shift + 7 * n = 70) (hv : value < 2 ^ shift)
    (hr : r.Valid file) :
    Reads file r Eq (integer_loop file n shift value)
      (Wire.resume shift value (Wire.varint n (window file r))) := by
  induction n generalizing r shift value with
  | zero => exact .error _
  | succ n ih =>
    rw [Reads, integer_loop]
    by_cases hlt : r.position < r.end_
    · obtain ⟨b, hb, hw⟩ := window_cons hr hlt
      have hr' : Reader.Valid file { r with position := r.position + 1 } := ⟨hlt, hr.2⟩
      simp only [StateT.run_bind, StateT.run_get, pure_bind, run_ensure, hlt, decide_true, if_true,
        ok_bind, read_byte, hb, StateT.run_pure, StateT.run_set, Wire.byte_low, Wire.or_shift hv]
      have hcond : (shift < 63 || b ≤ 1) = decide (shift < 63 ∨ b.toNat ≤ 1) := by
        rw [Bool.decide_or]
        rfl
      rw [hw, hcond]
      by_cases hsmall : b.toNat < 128
      · -- the last byte of the integer
        rw [Wire.resume_last hn hv hsmall]
        simp only [(byte_high _ b.toNat_lt).mpr hsmall, if_true, decide_eq_true_eq]
        split_ifs
        · exact .ok ⟨rfl, rfl, Nat.le_succ _, hr', rfl⟩
        · exact .error _
      · have hhigh : ¬ b.toNat &&& 0x80 = 0 := fun h => hsmall ((byte_high _ b.toNat_lt).mp h)
        rw [Wire.resume_more hn hsmall]
        simp only [hhigh, if_false, decide_eq_true_eq]
        split_ifs
        · refine (ih (by omega) (Wire.value_lt hv) hr').mono fun a c h => ?_
          exact ⟨h.1, h.2.1, le_trans (Nat.le_succ _) h.2.2.1, h.2.2.2⟩
        · exact .error _
    · have hnil := (window_eq_nil hr).mpr (by have := hr.1; omega)
      simp only [StateT.run_bind, StateT.run_get, pure_bind, run_ensure, hlt, decide_false]
      rw [hnil, Wire.varint]
      exact .error _

/-- **The reader reads the integer that the bytes encode.** -/
theorem reads_integer (hr : r.Valid file) :
    Reads file r Eq (integer file) (Wire.u64 (window file r)) := by
  rw [← Wire.resume_zero]
  exact reads_integer_loop rfl (by norm_num) hr

/-! ## Fields -/

/-- **Reads compose**: the second one starts on the bytes that the first one left. -/
theorem Reads.bind {α β γ δ : Type} {R : α → β → Prop} {S : γ → δ → Prop} {m : Read α}
    {y : Option (β × List UInt8)} {k : α → Read γ} {l : β × List UInt8 → Option (δ × List UInt8)}
    (h : Reads file r R m y)
    (hk : ∀ a b (r' : Reader), R a b → r'.Valid file → r'.end_ = r.end_ →
      Reads file r' S (k a) (l (b, window file r'))) :
    Reads file r S (m >>= k) (y.bind l) := by
  rw [Reads, StateT.run_bind]
  refine Sim.bind h ?_
  rintro ⟨a, r'⟩ ⟨b, rest⟩ ⟨hab, he, hp, hr', hw⟩
  have := hk a b r' hab hr' he
  rw [show rest = window file r' from hw.symm]
  exact this.mono fun _ _ h => ⟨h.1, h.2.1.trans he, le_trans hp h.2.2.1, h.2.2.2⟩

theorem Reads.map {α β γ : Type} {R : α → β → Prop} {S : γ → β → Prop} {m : Read α} {f : α → γ}
    {y : Option (β × List UInt8)} (h : Reads file r R m y) (hf : ∀ a b, R a b → S (f a) b) :
    Reads file r S (do return f (← m)) y := by
  rw [Reads, StateT.run_bind]
  exact Sim.finish h fun a b hab => ⟨(f a.1, a.2), rfl, hf _ _ hab.1, hab.2⟩

theorem Reads.get {α β : Type} {R : α → β → Prop} {k : Reader → Read α}
    {y : Option (β × List UInt8)} (h : Reads file r R (k r) y) :
    Reads file r R (MonadState.get >>= k) y := h

theorem Reads.ensure {α β : Type} {R : α → β → Prop} {cond : Bool} {message : String}
    {m : Read α} {y : Option (β × List UInt8)} (h : cond = true → Reads file r R m y)
    (hy : cond = false → y = none) :
    Reads file r R (do ensure cond message; m) y := by
  rw [Reads, StateT.run_bind, run_ensure]
  cases cond with
  | true => exact h rfl
  | false => rw [hy rfl]; exact .error _

theorem Reads.pure {α β : Type} {R : α → β → Prop} {a : α} {b : β} (hr : r.Valid file)
    (h : R a b) : Reads file r R (Pure.pure a) (some (b, window file r)) :=
  .ok ⟨h, rfl, le_rfl, hr, rfl⟩

theorem run_seek {position : ℕ} (hr : r.position ≤ file.bytes.length) (hp : position ≤ file.bytes.length) :
    (seek position).run r = .ok ((), { r with position }) := by
  have hs := file.small
  have hc : (decide (-2 ^ 63 ≤ (position : ℤ) - r.position) &&
      decide ((position : ℤ) - r.position < 2 ^ 63)) = true := by
    simp only [Bool.and_eq_true, decide_eq_true_eq]
    omega
  rw [seek]
  simp only [StateT.run_bind, StateT.run_get, pure_bind, run_ensure, hc, if_true, ok_bind]
  rfl

theorem reads_skip (n : ℕ) (hr : r.Valid file) :
    Reads file r (fun _ a => a = slice file ⟨r.position, n⟩ ∧ Range.Valid file ⟨r.position, n⟩)
      (skip n) (Wire.split n (window file r)) := by
  have hs := file.small
  have h₁ := hr.1
  have h₂ := hr.2
  rw [Reads, skip, Wire.split, window_length hr]
  simp only [StateT.run_bind, StateT.run_get, pure_bind, run_ensure]
  by_cases hn : n ≤ r.end_ - r.position
  · have ho : r.position + n < 2 ^ 64 := by omega
    have he : r.position + n ≤ r.end_ := by omega
    simp only [ho, he, decide_true, if_true, ok_bind, run_seek (le_trans h₁ h₂) (le_trans he h₂), if_pos hn]
    exact .ok ⟨⟨window_take he, le_trans he h₂⟩, rfl, Nat.le_add_right _ _, ⟨he, h₂⟩, window_drop n⟩
  · have he : ¬ r.position + n ≤ r.end_ := by omega
    simp only [he, decide_false, if_neg hn]
    split
    · exact .error _
    · exact .error _

/-- A range or integer stands for a payload. -/
def Stands (file : File) (v : Value) (w : Wire.Value) : Prop := v.contents file = w ∧ v.Valid file

theorem reads_field_value (wire : ℕ) (hr : r.Valid file) :
    Reads file r (Stands file) (field_value file wire) (Wire.payload wire (window file r)) := by
  unfold field_value Wire.payload
  have hfixed : ∀ n, Reads file r (Stands file) (do skip n; return .fixed)
      ((Wire.split n (window file r)).map fun p => (.fixed, p.2)) := by
    intro n
    rw [Option.map_eq_bind]
    exact (reads_skip n hr).bind fun _ _ r' _ hr' _ => .pure hr' ⟨rfl, trivial⟩
  match wire with
  | 0 =>
    show Reads file r _ _ (Option.map _ _)
    rw [Option.map_eq_bind]
    exact (reads_integer hr).bind fun a b r' hab hr' _ => .pure hr' ⟨by rw [hab]; rfl, trivial⟩
  | 1 => exact hfixed 8
  | 2 =>
    refine (reads_integer hr).bind fun len b r' hab hr' _ => .get ?_
    subst hab
    show Reads file r' _ _ (Option.map _ _)
    rw [Option.map_eq_bind]
    exact (reads_skip len hr').bind fun _ a r'' ha hr'' _ => .pure hr'' ⟨by rw [ha.1]; rfl, ha.2⟩
  | 3 => exact .error _
  | 4 => exact .error _
  | 5 => exact hfixed 4
  | n + 6 => exact .error _

/-- **One field**, when the reader is not at its end. -/
theorem reads_field (hr : r.Valid file) (hne : r.position ≠ r.end_) :
    Reads file r (fun a f => ∃ v, a = some (f.1, v) ∧ Stands file v f.2) (field file)
      (Wire.field (window file r)) := by
  refine Reads.get ?_
  rw [if_neg hne]
  refine (reads_integer hr).bind fun key b r' hab hr' _ => ?_
  subst hab
  have hnum : key >>> 3 = key / 8 := by rw [Nat.shiftRight_eq_div_pow]
  have hwire : key &&& 7 = key % 8 := Nat.and_two_pow_sub_one_eq_mod _ 3
  simp only [hnum, hwire]
  refine .ensure (fun _ => .ensure (fun hn => ?_) fun hn => ?_) fun hn => ?_
  · rw [if_pos (by simpa using hn), Option.map_eq_bind]
    exact (reads_field_value _ hr').bind fun v w r'' hv hr'' _ => .pure hr'' ⟨v, rfl, hv⟩
  · rw [if_neg (by simpa using hn)]
  · rw [if_neg]
    have := of_decide_eq_false hn
    omega

/-! ## Nested reads -/

/-- A read that simulates `y` and puts its reader back where it was. -/
def Restores {α β : Type} (r : Reader) (R : α → β → Prop) (m : Read α)
    (y : Option β) : Prop :=
  Sim (fun a b => R a.1 b ∧ a.2 = r) (m.run r) y

theorem Restores.bind {α β γ δ : Type} {R : α → β → Prop} {S : γ → δ → Prop} {m : Read α}
    {y : Option β} {k : α → Read γ} {l : β → Option δ} (h : Restores r R m y)
    (hk : ∀ a b, R a b → Restores r S (k a) (l b)) :
    Restores r S (m >>= k) (y.bind l) := by
  rw [Restores, StateT.run_bind]
  refine Sim.bind h ?_
  rintro ⟨a, r'⟩ b ⟨hab, rfl⟩
  exact hk a b hab

theorem Restores.pure {α β : Type} {R : α → β → Prop} {a : α} {b : β} (h : R a b) :
    Restores r R (Pure.pure a) (some b) := .ok ⟨h, rfl⟩

theorem Restores.lift {α β : Type} {R : α → β → Prop} {x : Except String α} {y : Option β}
    (h : Sim R x y) : Restores r R (fun r => x.map (·, r)) y := by
  cases h with
  | ok h => exact .ok ⟨h, rfl⟩
  | error e => exact .error e

theorem Restores.fail {α β : Type} {R : α → β → Prop} {message : String} :
    @Restores α β r R (Geodata.fail message) none := Sim.error message

theorem Restores.ensure {α β : Type} {R : α → β → Prop} {cond : Bool} {message : String}
    {m : Read α} {y : Option β} (h : cond = true → Restores r R m y)
    (hy : cond = false → y = none) :
    Restores r R (do ensure cond message; m) y := by
  rw [Restores, StateT.run_bind, run_ensure]
  cases cond with
  | true => exact h rfl
  | false => rw [hy rfl]; exact .error _

theorem Range.Valid.reader {range : Range} (h : range.Valid file) :
    Reader.Valid file ⟨range.start, range.start + range.len⟩ := ⟨Nat.le_add_right _ _, h⟩

theorem window_range (range : Range) :
    window file ⟨range.start, range.start + range.len⟩ = slice file range := by
  rw [window, slice, List.take_drop]

/-- **`within` reads the bytes of the range and restores the reader.** -/
theorem restores_within {α β : Type} {R : α → β → Prop} {range : Range} {read : Read α}
    {y : Option β} (hrange : range.Valid file) (hr : r.Valid file)
    (h : Sim (fun a b => R a.1 b ∧ a.2.position ≤ file.bytes.length)
      (read.run ⟨range.start, range.start + range.len⟩) y) :
    Restores r R (within range read) y := by
  have hp := le_trans hr.1 hr.2
  have hstart : range.start ≤ file.bytes.length := le_trans (Nat.le_add_right _ _) hrange
  rw [Restores, within]
  simp only [StateT.run_bind, StateT.run_get, pure_bind, run_seek hp hstart, ok_bind,
    StateT.run_modify]
  refine h.finish ?_
  rintro ⟨a, s⟩ b ⟨hab, hs⟩
  refine ⟨(a, r), ?_, hab, rfl⟩
  rw [run_seek (r := { s with end_ := r.end_ }) hs hp]
  rfl

theorem restores_within_reads {α β : Type} {R : α → β → Prop} {range : Range} {read : Read α}
    {y : Option (β × List UInt8)} (hrange : range.Valid file) (hr : r.Valid file)
    (h : Reads file ⟨range.start, range.start + range.len⟩ R read y) :
    Restores r R (within range read) (y.map Prod.fst) := by
  refine restores_within hrange hr ?_
  rw [Reads] at h
  generalize read.run _ = x at h
  cases h with
  | ok h => exact .ok ⟨h.1, le_trans h.2.2.2.1.1 h.2.2.2.1.2⟩
  | error e => exact .error e

theorem run_read_exact {range : Range} (h : range.Valid file) :
    (read_exact file range.len).run ⟨range.start, range.start + range.len⟩ =
      .ok (slice file range, ⟨range.start, range.start + range.len⟩) := by
  have hc : decide (range.start + range.len ≤ file.bytes.length) = true := decide_eq_true h
  rw [read_exact]
  simp only [StateT.run_bind, StateT.run_get, pure_bind, run_ensure, hc, if_true, ok_bind]
  rfl

theorem slice_length {range : Range} (h : range.Valid file) :
    (slice file range).length = range.len := by
  rw [Range.Valid] at h
  rw [slice, List.length_take, List.length_drop]
  omega

theorem restores_bytes {n : ℕ} {range : Range} (hrange : range.Valid file) (hr : r.Valid file) :
    Restores r Eq (bytes file n range)
      (if (slice file range).length = n then some (slice file range) else none) := by
  rw [slice_length hrange]
  refine .ensure (fun hn => ?_) fun hn => if_neg (of_decide_eq_false hn)
  have hn := of_decide_eq_true hn
  subst hn
  rw [if_pos rfl]
  refine restores_within hrange hr ?_
  rw [StateT.run_bind, run_read_exact hrange, ok_bind]
  exact .ok ⟨rfl, hrange⟩

theorem restores_string {limit : ℕ} {range : Range} (hrange : range.Valid file)
    (hr : r.Valid file) :
    Restores r Eq (string file range limit)
      (if (slice file range).length ≤ limit then Text.from_utf8 (slice file range) else none) := by
  rw [slice_length hrange]
  refine .ensure (fun hn => ?_) fun hn => if_neg (of_decide_eq_false hn)
  rw [if_pos (of_decide_eq_true hn)]
  refine restores_within hrange hr ?_
  rw [StateT.run_bind, run_read_exact hrange, ok_bind, StateT.run_bind, StateT.run_modify,
    pure_bind]
  cases Text.from_utf8 (slice file range) with
  | none => exact .error _
  | some s => exact .ok ⟨rfl, hrange⟩

/-! ## Loops over fields -/

theorem fields_step {τ : Type} (ref : τ → Wire.Field → Option τ) (t : τ) {bs : List UInt8}
    (h : bs ≠ []) :
    ((Wire.fields bs).bind fun fs => (fs.foldlM ref t).map fun t => (t, ([] : List UInt8))) =
      (Wire.field bs).bind fun p => (ref t p.1).bind fun t =>
        (Wire.fields p.2).bind fun fs => (fs.foldlM ref t).map fun t => (t, []) := by
  simpa only [Option.map_bind, Function.comp_def] using
    congrArg (Option.map fun t => (t, ([] : List UInt8))) (Wire.fields_foldlM ref t h)

theorem reads_fields_rounds {σ τ : Type} {R : σ → τ → Prop} {body : σ → ℕ → Value → Read σ}
    {ref : τ → Wire.Field → Option τ}
    (hbody : ∀ s t number v w (r : Reader), R s t → Stands file v w → r.Valid file →
      Restores r R (body s number v) (ref t (number, w)))
    {n : ℕ} {s : σ} {t : τ} (hr : r.Valid file) (hn : r.end_ - r.position < n) (h : R s t) :
    Reads file r R (fields_rounds file body n s)
      ((Wire.fields (window file r)).bind fun fs => (fs.foldlM ref t).map fun t => (t, [])) := by
  induction n generalizing r s t with
  | zero => omega
  | succ n ih =>
    by_cases he : r.position = r.end_
    · have hw := (window_eq_nil hr).mpr he
      have hf : (field file).run r = .ok (none, r) := by
        rw [field]
        simp only [StateT.run_bind, StateT.run_get, pure_bind, if_pos he]
        rfl
      rw [hw, Reads, fields_rounds]
      simp only [StateT.run_bind, hf, ok_bind, Wire.fields_nil, Option.bind_some, List.foldlM_nil]
      exact .ok ⟨h, rfl, le_rfl, hr, hw⟩
    · rw [fields_step ref t fun hw => he ((window_eq_nil hr).mp hw)]
      have hf := reads_field hr he
      rw [Reads, fields_rounds, StateT.run_bind]
      cases hw : Wire.field (window file r) with
      | none =>
        rw [hw] at hf
        obtain ⟨e, hrun⟩ := hf.isError
        rw [hrun]
        exact .error _
      | some p =>
        obtain ⟨f, rest⟩ := p
        rw [hw] at hf
        obtain ⟨⟨a, r'⟩, hrun, ⟨v, rfl, hv⟩, hend, hle, hr', hrest⟩ := hf.isOk
        simp only at hend hle hr' hrest hv hrun
        -- the field took at least one byte
        have hlen := (Wire.field_suffix hw).2
        rw [← hrest, window_length hr', window_length hr] at hlen
        rw [hrun, ok_bind, Option.bind_some, ← hrest]
        refine Sim.bind (hbody s t f.1 v f.2 r' h hv hr') ?_
        rintro ⟨s', r''⟩ t' ⟨hst, rfl⟩
        refine (ih hr' (by omega) hst).mono fun _ _ h => ⟨h.1, h.2.1.trans hend, ?_, h.2.2.2⟩
        exact le_trans hle h.2.2.1

/-- **A loop over fields reads the fields of its bytes**, if its body handles one field. -/
theorem reads_fields_loop {σ τ : Type} {R : σ → τ → Prop} {body : σ → ℕ → Value → Read σ}
    {ref : τ → Wire.Field → Option τ}
    (hbody : ∀ s t number v w (r : Reader), R s t → Stands file v w → r.Valid file →
      Restores r R (body s number v) (ref t (number, w)))
    {s : σ} {t : τ} (hr : r.Valid file) (h : R s t) :
    Reads file r R (fields_loop file body s)
      ((Wire.fields (window file r)).bind fun fs => (fs.foldlM ref t).map fun t => (t, [])) :=
  .get (reads_fields_rounds hbody hr (Nat.lt_succ_self _) h)

theorem restores_fields_loop {σ τ : Type} {R : σ → τ → Prop} {body : σ → ℕ → Value → Read σ}
    {ref : τ → Wire.Field → Option τ}
    (hbody : ∀ s t number v w (r : Reader), R s t → Stands file v w → r.Valid file →
      Restores r R (body s number v) (ref t (number, w)))
    {s : σ} {t : τ} {range : Range} (hrange : range.Valid file) (hr : r.Valid file) (h : R s t) :
    Restores r R (within range (fields_loop file body s))
      ((Wire.fields (slice file range)).bind fun fs => fs.foldlM ref t) := by
  have := restores_within_reads hrange hr (reads_fields_loop hbody hrange.reader h)
  rw [window_range] at this
  simpa only [Option.map_bind, Function.comp_def, Option.map_map, Option.map_id'] using this

end

end Gofro.Agent.Geodata
