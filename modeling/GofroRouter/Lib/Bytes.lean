import Mathlib.Tactic

/-!
# Little-endian bytes and key streams

* `toLE n v`: the `n` low bytes of `v`, least significant first; `ofLE` reads them back
  (`ofLE_toLE`, `toLE_ofLE`).
* `xorWith g s bs`: a byte list xored with the bytes a generator `g` draws one after the other from
  a state `s`; applied twice from one state it is the identity (`xorWith_xorWith`).
-/

namespace Bytes

/-! ## Little-endian integers -/

/-- The `n` low bytes of `v`, least significant first. -/
def toLE : ℕ → ℕ → List UInt8
  | 0, _ => []
  | n + 1, v => UInt8.ofNat (v % 256) :: toLE n (v / 256)

/-- The value of a little-endian byte list. -/
def ofLE : List UInt8 → ℕ
  | [] => 0
  | b :: bs => b.toNat + 256 * ofLE bs

@[simp] theorem toLE_length (n v : ℕ) : (toLE n v).length = n := by
  induction n generalizing v with
  | zero => rfl
  | succ n ih => simp [toLE, ih]

theorem ofLE_toLE (n v : ℕ) : ofLE (toLE n v) = v % 256 ^ n := by
  induction n generalizing v with
  | zero => simp [toLE, ofLE, Nat.mod_one]
  | succ n ih =>
    have hb : (UInt8.ofNat (v % 256)).toNat = v % 256 := by
      rw [UInt8.toNat_ofNat']; omega
    rw [toLE, ofLE, ih, hb, pow_succ', Nat.mod_mul]

theorem ofLE_lt (bs : List UInt8) : ofLE bs < 256 ^ bs.length := by
  induction bs with
  | nil => simp [ofLE]
  | cons b bs ih =>
    have := b.toNat_lt
    simp only [ofLE, List.length_cons, pow_succ']
    omega

theorem ofLE_append (as bs : List UInt8) : ofLE (as ++ bs) = ofLE as + 256 ^ as.length * ofLE bs := by
  induction as with
  | nil => simp [ofLE]
  | cons a as ih =>
    rw [List.cons_append, ofLE, ofLE, ih, List.length_cons, pow_succ']
    ring

theorem toLE_ofLE (bs : List UInt8) : toLE bs.length (ofLE bs) = bs := by
  induction bs with
  | nil => rfl
  | cons b bs ih =>
    have := b.toNat_lt
    have h₁ : (b.toNat + 256 * ofLE bs) % 256 = b.toNat := by omega
    have h₂ : (b.toNat + 256 * ofLE bs) / 256 = ofLE bs := by omega
    rw [List.length_cons, toLE, ofLE, h₁, h₂, ih, UInt8.ofNat_toNat]

theorem toLE_xor (n a b : ℕ) : toLE n (a ^^^ b) = (toLE n a).zipWith (· ^^^ ·) (toLE n b) := by
  induction n generalizing a b with
  | zero => rfl
  | succ n ih =>
    have hmod : (a ^^^ b) % 256 = a % 256 ^^^ b % 256 := Nat.xor_mod_two_pow (n := 8)
    have hdiv : (a ^^^ b) / 256 = a / 256 ^^^ b / 256 := Nat.xor_div_two_pow (n := 8)
    have hbyte : UInt8.ofNat (a % 256 ^^^ b % 256) =
        UInt8.ofNat (a % 256) ^^^ UInt8.ofNat (b % 256) := UInt8.ofNat_xor _ _
    rw [toLE, toLE, toLE, List.zipWith_cons_cons, hmod, hdiv, hbyte, ih]

/-! ## Key streams -/

section Stream

variable {σ : Type} (g : σ → UInt8 × σ)

/-- Xor each byte with the next byte the generator draws; the generator's last state. -/
def xorWith : σ → List UInt8 → List UInt8 × σ
  | s, [] => ([], s)
  | s, b :: bs =>
    let (k, s) := g s
    let (rest, s) := xorWith s bs
    ((b ^^^ k) :: rest, s)

@[simp] theorem xorWith_length (s : σ) (bs : List UInt8) :
    (xorWith g s bs).1.length = bs.length := by
  induction bs generalizing s with
  | nil => rfl
  | cons b bs ih => simp [xorWith, ih]

theorem xorWith_state (s : σ) {as bs : List UInt8} (h : as.length = bs.length) :
    (xorWith g s as).2 = (xorWith g s bs).2 := by
  induction as generalizing s bs with
  | nil => obtain rfl := List.length_eq_zero_iff.mp h.symm; rfl
  | cons a as ih =>
    cases bs with
    | nil => cases h
    | cons b bs => exact ih _ (by simpa using h)

/-- **The key stream cancels itself.** -/
theorem xorWith_xorWith (s : σ) (bs : List UInt8) :
    (xorWith g s (xorWith g s bs).1).1 = bs := by
  induction bs generalizing s with
  | nil => rfl
  | cons b bs ih =>
    show (b ^^^ (g s).1 ^^^ (g s).1) :: (xorWith g (g s).2 (xorWith g (g s).2 bs).1).1 = b :: bs
    rw [ih, UInt8.xor_assoc, UInt8.xor_self, UInt8.xor_zero]

theorem xorWith_inj (s : σ) {as bs : List UInt8} (h : (xorWith g s as).1 = (xorWith g s bs).1) :
    as = bs := by
  rw [← xorWith_xorWith g s as, h, xorWith_xorWith]

end Stream

end Bytes
