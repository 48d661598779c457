import GofroRouter.Lib.Bytes

/-!
# scrypt

RFC 7914 on octet strings, with the dense table, over an abstract PBKDF2.

* `core`: the Salsa20/8 core, by its rows and columns.
* `blockMix`, `romix`, `scrypt`: sections 4, 5 and 6, for all parameters.
* `fill_eq`: the table holds the iterates of `blockMix`.
-/

namespace Scrypt

open Bytes (toLE ofLE)

abbrev Octets := List UInt8

/-! ## Salsa20/8 -/

abbrev State := Vector UInt32 16

/-- `R(a, b)` -/
def rotl (a : UInt32) (b : ℕ) : UInt32 := ⟨a.toBitVec <<< b ||| a.toBitVec >>> (32 - b)⟩

/-- The quarter round of Salsa20. -/
def quarterround (y₀ y₁ y₂ y₃ : UInt32) : UInt32 × UInt32 × UInt32 × UInt32 :=
  let z₁ := y₁ ^^^ rotl (y₀ + y₃) 7
  let z₂ := y₂ ^^^ rotl (z₁ + y₀) 9
  let z₃ := y₃ ^^^ rotl (z₂ + z₁) 13
  let z₀ := y₀ ^^^ rotl (z₃ + z₂) 18
  (z₀, z₁, z₂, z₃)

/-- A quarter round on each column. -/
def columnround (x : State) : State :=
  let (y₀, y₄, y₈, y₁₂) := quarterround x[0] x[4] x[8] x[12]
  let (y₅, y₉, y₁₃, y₁) := quarterround x[5] x[9] x[13] x[1]
  let (y₁₀, y₁₄, y₂, y₆) := quarterround x[10] x[14] x[2] x[6]
  let (y₁₅, y₃, y₇, y₁₁) := quarterround x[15] x[3] x[7] x[11]
  #v[y₀, y₁, y₂, y₃, y₄, y₅, y₆, y₇, y₈, y₉, y₁₀, y₁₁, y₁₂, y₁₃, y₁₄, y₁₅]

def rowround (y : State) : State :=
  let (z₀, z₁, z₂, z₃) := quarterround y[0] y[1] y[2] y[3]
  let (z₅, z₆, z₇, z₄) := quarterround y[5] y[6] y[7] y[4]
  let (z₁₀, z₁₁, z₈, z₉) := quarterround y[10] y[11] y[8] y[9]
  let (z₁₅, z₁₂, z₁₃, z₁₄) := quarterround y[15] y[12] y[13] y[14]
  #v[z₀, z₁, z₂, z₃, z₄, z₅, z₆, z₇, z₈, z₉, z₁₀, z₁₁, z₁₂, z₁₃, z₁₄, z₁₅]

/-- Columns first, then rows. -/
def doubleround (x : State) : State := rowround (columnround x)

/-- The Salsa20/8 core. -/
def core (x : State) : State := x.zipWith (· + ·) (doubleround^[4] x)

/-! ## Words and octets -/

/-- The little-endian words of 64 octets. -/
def words (bs : Octets) : State :=
  Vector.ofFn fun i => UInt32.ofNat (ofLE ((bs.drop (4 * i)).take 4))

/-- Words as octets, the lowest one first. -/
def octets (ws : List UInt32) : Octets := ws.flatMap fun w => toLE 4 w.toNat

/-- `Salsa(T)` -/
def salsa (bs : Octets) : Octets := octets (core (words bs)).toList

/-- Octet by octet. -/
def xor (a b : Octets) : Octets := a.zipWith (· ^^^ ·) b

/-! ## The algorithm -/

/-- `Y[0], Y[1], …` -/
def mix : Octets → List Octets → List Octets
  | _, [] => []
  | X, b :: B => salsa (xor X b) :: mix (salsa (xor X b)) B

/-- `scryptBlockMix` on `2 * r` blocks of 64 octets. -/
def blockMix (r : ℕ) (B : List Octets) : List Octets :=
  let Y := mix (B.getLastD []) B
  (List.range r).map (fun i => Y.getD (2 * i) []) ++
    (List.range r).map fun i => Y.getD (2 * i + 1) []

/-- The last block as a little-endian integer. -/
def integerify (B : List Octets) : ℕ := ofLE (B.getLastD [])

/-- The table `V` and the block `X` after `n` rounds of the first loop. -/
def fill (r : ℕ) : ℕ → List Octets → List (List Octets) × List Octets
  | 0, B => ([], B)
  | n + 1, B => ((fill r n B).1 ++ [(fill r n B).2], blockMix r (fill r n B).2)

/-- One round of the second loop, with the table `V`. -/
def mixing (r N : ℕ) (V : List (List Octets)) (X : List Octets) : List Octets :=
  blockMix r (X.zipWith xor (V.getD (integerify X % N) []))

/-- `scryptROMix` -/
def romix (r N : ℕ) (B : List Octets) : List Octets :=
  (mixing r N (fill r N B).1)^[N] (fill r N B).2

/-- The 64-octet blocks of `128 * r` octets. -/
def blocks (r : ℕ) (bs : Octets) : List Octets :=
  (List.range (2 * r)).map fun i => (bs.drop (64 * i)).take 64

/-- **scrypt** with an abstract PBKDF2-HMAC-SHA256. -/
def scrypt {m : Type → Type} [Monad m]
    (pbkdf2 : Octets → Octets → ℕ → (n : ℕ) → m (Vector UInt8 n)) (r N p : ℕ) (P S : Octets)
    (dkLen : ℕ) : m (Vector UInt8 dkLen) := do
  let B ← pbkdf2 P S 1 (p * (128 * r))
  let mixed := (List.range p).flatMap fun i =>
    (romix r N (blocks r ((B.toList.drop (i * (128 * r))).take (128 * r)))).flatten
  pbkdf2 P mixed 1 dkLen

/-- The block `X` after `k` rounds of `blockMix`. -/
def mixAt (X : Octets) (B : List Octets) : ℕ → Octets
  | 0 => X
  | k + 1 => salsa (xor (mixAt X B k) (B.getD k []))

theorem mixAt_cons (X b : Octets) (B : List Octets) (k : ℕ) :
    mixAt X (b :: B) (k + 1) = mixAt (salsa (xor X b)) B k := by
  induction k with
  | zero => rfl
  | succ k ih =>
    rw [mixAt, ih, mixAt, List.getD_cons_succ]

theorem mix_eq (X : Octets) (B : List Octets) :
    mix X B = (List.range B.length).map fun k => mixAt X B (k + 1) := by
  induction B generalizing X with
  | nil => rfl
  | cons b B ih =>
    rw [mix, ih, List.length_cons, List.range_succ_eq_map, List.map_cons, List.map_map]
    simp only [Function.comp_def, Nat.succ_eq_add_one, mixAt_cons]
    rfl

/-- **The table** holds the iterates. -/
theorem fill_eq (r n : ℕ) (B : List Octets) :
    fill r n B = ((List.range n).map fun i => (blockMix r)^[i] B, (blockMix r)^[n] B) := by
  induction n with
  | zero => rfl
  | succ n ih =>
    rw [fill, ih, List.range_succ, List.map_append, Function.iterate_succ_apply']
    rfl

theorem romix_eq (r N : ℕ) (B : List Octets) :
    romix r N B = (mixing r N (fill r N B).1)^[N] ((blockMix r)^[N] B) := by
  rw [romix, show (fill r N B).2 = _ from congrArg Prod.snd (fill_eq r N B)]

/-! ## Words and octets correspond -/

theorem octets_cons (w : UInt32) (ws : List UInt32) :
    octets (w :: ws) = toLE 4 w.toNat ++ octets ws := List.flatMap_cons ..

theorem length_octets (ws : List UInt32) : (octets ws).length = 4 * ws.length := by
  induction ws with
  | nil => rfl
  | cons w ws ih =>
    rw [octets_cons, List.length_append, Bytes.toLE_length, List.length_cons, ih]
    omega

theorem octets_drop (ws : List UInt32) (i : ℕ) :
    (octets ws).drop (4 * i) = octets (ws.drop i) := by
  induction i generalizing ws with
  | zero => rfl
  | succ i ih =>
    cases ws with
    | nil => rw [List.drop_nil]; rfl
    | cons w ws =>
      have hlen : 4 * (i + 1) = (toLE 4 w.toNat).length + 4 * i := by
        rw [Bytes.toLE_length]
        omega
      rw [octets_cons, hlen, List.drop_length_add_append, ih, List.drop_succ_cons]

theorem octets_take (ws : List UInt32) (i : ℕ) :
    (octets ws).take (4 * i) = octets (ws.take i) := by
  induction i generalizing ws with
  | zero => rfl
  | succ i ih =>
    cases ws with
    | nil => rfl
    | cons w ws =>
      have hlen : 4 * (i + 1) = (toLE 4 w.toNat).length + 4 * i := by
        rw [Bytes.toLE_length]
        omega
      rw [octets_cons, hlen, List.take_length_add_append, ih, List.take_succ_cons, octets_cons]

theorem ofNat_ofLE_octets (w : UInt32) : UInt32.ofNat (ofLE (octets [w])) = w := by
  have hw := w.toNat_lt
  rw [octets_cons, octets, List.flatMap_nil, List.append_nil, Bytes.ofLE_toLE,
    Nat.mod_eq_of_lt (by norm_num; omega), UInt32.ofNat_toNat]

theorem words_octets (x : State) : words (octets x.toList) = x := by
  refine Vector.ext fun i hi => ?_
  have hword : (x.toList.drop i).take 1 = [x[i]] := by
    rw [List.drop_eq_getElem_cons (by simpa using hi)]
    simp
  rw [words, Vector.getElem_ofFn, octets_drop, octets_take _ 1, hword, ofNat_ofLE_octets]

theorem octets_xor (vs ws : List UInt32) :
    octets (vs.zipWith (· ^^^ ·) ws) = xor (octets vs) (octets ws) := by
  induction vs generalizing ws with
  | nil => rfl
  | cons v vs ih =>
    cases ws with
    | nil =>
      rw [List.zipWith_nil_right, xor]
      exact List.zipWith_nil_right.symm
    | cons w ws =>
      have hlen : (toLE 4 v.toNat).length = (toLE 4 w.toNat).length := by
        rw [Bytes.toLE_length, Bytes.toLE_length]
      rw [List.zipWith_cons_cons, octets_cons, octets_cons, octets_cons, ih, xor, xor,
        List.zipWith_append hlen, UInt32.toNat_xor, Bytes.toLE_xor]

theorem octets_ofLE {n : ℕ} {bs : Octets} (h : bs.length = 4 * n) :
    octets ((List.range n).map fun i => UInt32.ofNat (ofLE ((bs.drop (4 * i)).take 4))) = bs := by
  induction n generalizing bs with
  | zero => exact (List.length_eq_zero_iff.mp h).symm
  | succ n ih =>
    have hfour : (bs.take 4).length = 4 := by
      rw [List.length_take]
      omega
    have hlt := Bytes.ofLE_lt (bs.take 4)
    have hfirst : toLE 4 (UInt32.ofNat (ofLE (bs.take 4))).toNat = bs.take 4 := by
      rw [UInt32.toNat_ofNat', Nat.mod_eq_of_lt (by rw [hfour] at hlt; exact hlt)]
      have := Bytes.toLE_ofLE (bs.take 4)
      rwa [hfour] at this
    have hrest : ∀ i, (bs.drop (4 * (i + 1))).take 4 = ((bs.drop 4).drop (4 * i)).take 4 := by
      intro i
      rw [List.drop_drop]
      congr 2
      omega
    rw [List.range_succ_eq_map, List.map_cons, List.map_map, octets_cons]
    simp only [Function.comp_def, Nat.succ_eq_add_one, hrest]
    rw [ih (by rw [List.length_drop]; omega), Nat.mul_zero, List.drop_zero, hfirst,
      List.take_append_drop]

theorem flatten_blocks (r : ℕ) (bs : Octets) : (blocks r bs).flatten = bs.take (64 * (2 * r)) := by
  rw [blocks]
  generalize 2 * r = n
  induction n with
  | zero => simp
  | succ n ih =>
    rw [List.range_succ, List.map_append, List.flatten_append, ih, List.map_singleton,
      List.flatten_singleton, ← List.take_add]
    rfl

end Scrypt
