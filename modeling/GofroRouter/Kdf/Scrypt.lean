import GofroRouter.Lib.Scrypt

/-!
# The memory-bounded scrypt

`gofro-kdf`: scrypt with `N = 16384` and `r = 8`, keeping every eighth block of the table. The
arrays are vectors; `pkcs5::pbkdf2_hmac` is a parameter.

* `salsa8_eq`, `block_mix_eq`, `integerify_eq`: the parts compute those of the standard.
* `reconstruct_eq`: a missing block of the table is recomputed.
* **`scrypt_standard`**: the derived key is that of the dense table.
-/

namespace Gofro.Kdf

/-! ## The code -/

/-- The parameters of the password records. -/
abbrev N : ℕ := 16384
abbrev R : ℕ := 8

/-- Every eighth block is kept. -/
abbrev STRIDE : ℕ := 8
abbrev WORDS : ℕ := 32 * R
abbrev BYTES : ℕ := WORDS * 4

/-- The memory for the blocks that are kept. -/
abbrev CHECKPOINT_BYTES : ℕ := N / STRIDE * BYTES

theorem chunk_le (index : Fin (2 * R)) : index.val * 16 + 16 ≤ WORDS := by
  have h : index.val < 2 * 8 := index.isLt
  show index.val * 16 + 16 ≤ 256
  omega

theorem checkpoint_le {index : ℕ} (h : index < N) :
    index / STRIDE * WORDS + WORDS ≤ CHECKPOINT_BYTES / 4 := by
  have h : index < 16384 := h
  show index / 8 * 256 + 256 ≤ 524288
  omega

theorem word_le (i : Fin WORDS) : 4 * i.val + 4 ≤ BYTES := by
  have h : i.val < 256 := i.isLt
  show 4 * i.val + 4 ≤ 1024
  omega

abbrev State := Vector UInt32 16

/-- The words of one block. -/
abbrev Block := Vector UInt32 WORDS

/-- The words of all blocks that are kept. -/
abbrev Checkpoints := Vector UInt32 (CHECKPOINT_BYTES / 4)

/-- `v[start..start + len]` -/
def slice {α : Type} {n : ℕ} (v : Vector α n) (start len : ℕ) (h : start + len ≤ n) :
    Vector α len := Vector.ofFn fun i => v[start + i]

/-- `v[start..start + len].copy_from_slice(part)` -/
def copy_from_slice {α : Type} {n len : ℕ} (v : Vector α n) (start : ℕ) (part : Vector α len) :
    Vector α n := Vector.ofFn fun i =>
  if h : start ≤ i ∧ i < start + len then part[i.val - start] else v[i]

/-- `u32::rotate_left` -/
def rotate_left (x : UInt32) (n : ℕ) : UInt32 := ⟨x.toBitVec.rotateLeft n⟩

/-- Four steps on four words. -/
def quarter_round (state : State) (a b c d : Fin 16) : State :=
  let state := state.set b (state[b] ^^^ rotate_left (state[a] + state[d]) 7)
  let state := state.set c (state[c] ^^^ rotate_left (state[b] + state[a]) 9)
  let state := state.set d (state[d] ^^^ rotate_left (state[c] + state[b]) 13)
  state.set a (state[a] ^^^ rotate_left (state[d] + state[c]) 18)

/-- One round of the loop in `salsa8`. -/
def double_round (state : State) : State :=
  let state := quarter_round state 0 4 8 12
  let state := quarter_round state 5 9 13 1
  let state := quarter_round state 10 14 2 6
  let state := quarter_round state 15 3 7 11
  let state := quarter_round state 0 1 2 3
  let state := quarter_round state 5 6 7 4
  let state := quarter_round state 10 11 8 9
  quarter_round state 15 12 13 14

/-- Eight rounds are four double rounds; the words from before are added. -/
def salsa8 (block : State) : State := block.zipWith (· + ·) (double_round^[4] block)

/-- Even chunks go to the first half, odd ones to the second. -/
def destination (index : ℕ) : ℕ := (index / 2 + if index % 2 = 0 then 0 else R) * 16

/-- One round of the loop in `block_mix`. -/
def mix_step (block : Block) (s : State × Block) (index : Fin (2 * R)) : State × Block :=
  let state := salsa8 (s.1.zipWith (· ^^^ ·) (slice block (index * 16) 16 (chunk_le index)))
  (state, copy_from_slice s.2 (destination index) state)

/-- The block and the scratch space. -/
def block_mix (block scratch : Block) : Block × Block :=
  let (_, scratch) := (List.finRange (2 * R)).foldl (mix_step block)
    (slice block (WORDS - 16) 16 (by decide), scratch)
  (scratch, scratch)

/-- The variables of the first loop in `scrypt`. -/
structure Filling where
  block : Block
  scratch : Block
  checkpoints : Checkpoints

/-- One round of the first loop. -/
def fill_step (s : Filling) (index : Fin N) : Filling :=
  let checkpoints :=
    if index % STRIDE = 0 then copy_from_slice s.checkpoints (index / STRIDE * WORDS) s.block
    else s.checkpoints
  let (block, scratch) := block_mix s.block s.scratch
  ⟨block, scratch, checkpoints⟩

/-- `Integerify` -/
def selected (block : Block) : ℕ := block[WORDS - 16].toNat &&& (N - 1)

theorem selected_lt (block : Block) : selected block < N :=
  Nat.lt_of_le_of_lt Nat.and_le_right (by decide)

/-- The block of the table at `index`, from the checkpoint before it. -/
def reconstruct (checkpoints : Checkpoints) (scratch : Block) (index : ℕ) (h : index < N) :
    Block × Block :=
  (fun s => block_mix s.1 s.2)^[index % STRIDE]
    (slice checkpoints (index / STRIDE * WORDS) WORDS (checkpoint_le h), scratch)

/-- One round of the second loop: the block and the scratch space. -/
def mixing_step (checkpoints : Checkpoints) (s : Block × Block) : Block × Block :=
  let (reconstructed, scratch) := reconstruct checkpoints s.2 (selected s.1) (selected_lt s.1)
  block_mix (s.1.zipWith (· ^^^ ·) reconstructed) scratch

/-- The first loop. -/
def fill (block : Block) : Filling :=
  (List.finRange N).foldl fill_step ⟨block, Vector.replicate _ 0, Vector.replicate _ 0⟩

/-- The second loop, with `n` rounds. -/
def mix_rounds (n : ℕ) (s : Filling) : Block :=
  ((mixing_step s.checkpoints)^[n] (s.block, s.scratch)).1

/-- The first loop, and then the second. -/
def ro_mix (block : Block) : Block := mix_rounds N (fill block)

/-- Bytes as words. -/
def from_le_bytes (bytes : Vector UInt8 BYTES) : Block :=
  Vector.ofFn fun i => UInt32.ofNat (Bytes.ofLE (slice bytes (4 * i) 4 (word_le i)).toList)

def to_le_bytes (block : Block) : List UInt8 :=
  block.toList.flatMap fun word => Bytes.toLE 4 word.toNat

/-- Derive a key of `len` bytes. -/
def scrypt {ε : Type}
    (pbkdf2_hmac : List UInt8 → List UInt8 → ℕ → (len : ℕ) → Except ε (Vector UInt8 len))
    (password salt : List UInt8) (len : ℕ) : Except ε (Vector UInt8 len) := do
  let bytes ← pbkdf2_hmac password salt 1 BYTES
  pbkdf2_hmac password (to_le_bytes (ro_mix (from_le_bytes bytes))) 1 len

/-! ## Salsa20/8 -/

theorem rotate_left_eq (x : UInt32) {n : ℕ} (h : n < 32) : rotate_left x n = Scrypt.rotl x n := by
  rw [rotate_left, BitVec.rotateLeft, Nat.mod_eq_of_lt h]
  rfl

theorem getElem_quarter_round (s : State) {a b c d : Fin 16} (h : [a, b, c, d].Nodup) {i : ℕ}
    (hi : i < 16) : (quarter_round s a b c d)[i] =
      let z := Scrypt.quarterround s[a] s[b] s[c] s[d]
      if i = a then z.1 else if i = b then z.2.1 else if i = c then z.2.2.1
      else if i = d then z.2.2.2 else s[i] := by
  simp only [List.nodup_cons, List.mem_cons, not_or, List.not_mem_nil, Fin.ext_iff] at h
  have h7 : ∀ x, rotate_left x 7 = Scrypt.rotl x 7 := fun x => rotate_left_eq x (by norm_num)
  have h9 : ∀ x, rotate_left x 9 = Scrypt.rotl x 9 := fun x => rotate_left_eq x (by norm_num)
  have h13 : ∀ x, rotate_left x 13 = Scrypt.rotl x 13 := fun x => rotate_left_eq x (by norm_num)
  have h18 : ∀ x, rotate_left x 18 = Scrypt.rotl x 18 := fun x => rotate_left_eq x (by norm_num)
  simp only [quarter_round, Scrypt.quarterround, h7, h9, h13, h18, Fin.getElem_fin]
  grind

theorem columns_eq (x : State) :
    quarter_round (quarter_round (quarter_round (quarter_round x 0 4 8 12) 5 9 13 1) 10 14 2 6)
      15 3 7 11 = Scrypt.columnround x := by
  have h₁ : ([0, 4, 8, 12] : List (Fin 16)).Nodup := by decide
  have h₂ : ([5, 9, 13, 1] : List (Fin 16)).Nodup := by decide
  have h₃ : ([10, 14, 2, 6] : List (Fin 16)).Nodup := by decide
  have h₄ : ([15, 3, 7, 11] : List (Fin 16)).Nodup := by decide
  refine Vector.ext fun i hi => ?_
  interval_cases i <;>
    simp [getElem_quarter_round _ h₁, getElem_quarter_round _ h₂, getElem_quarter_round _ h₃,
      getElem_quarter_round _ h₄, Scrypt.columnround]

theorem rows_eq (x : State) :
    quarter_round (quarter_round (quarter_round (quarter_round x 0 1 2 3) 5 6 7 4) 10 11 8 9)
      15 12 13 14 = Scrypt.rowround x := by
  have h₁ : ([0, 1, 2, 3] : List (Fin 16)).Nodup := by decide
  have h₂ : ([5, 6, 7, 4] : List (Fin 16)).Nodup := by decide
  have h₃ : ([10, 11, 8, 9] : List (Fin 16)).Nodup := by decide
  have h₄ : ([15, 12, 13, 14] : List (Fin 16)).Nodup := by decide
  refine Vector.ext fun i hi => ?_
  interval_cases i <;>
    simp [getElem_quarter_round _ h₁, getElem_quarter_round _ h₂, getElem_quarter_round _ h₃,
      getElem_quarter_round _ h₄, Scrypt.rowround]

/-- **Salsa20/8** in place. -/
theorem salsa8_eq (block : State) : salsa8 block = Scrypt.core block := by
  have hround : double_round = Scrypt.doubleround := by
    funext x
    rw [double_round, Scrypt.doubleround, ← columns_eq, ← rows_eq]
  rw [salsa8, hround, Scrypt.core]

/-! ## Arrays -/

section

variable {α σ : Type} {n len start : ℕ}

/-- **A counted loop** keeps an invariant that every round carries on. -/
theorem foldl_finRange {f : σ → Fin n → σ} {P : ℕ → σ → Prop} {s : σ} (h : P 0 s)
    (hstep : ∀ (i : Fin n) s, P i s → P (i + 1) (f s i)) : P n ((List.finRange n).foldl f s) := by
  induction n with
  | zero => exact h
  | succ n ih =>
    rw [List.finRange_succ_last, List.foldl_append, List.foldl_map]
    exact hstep (Fin.last n) _ (ih fun i s hs => hstep i.castSucc s hs)

theorem toList_slice (v : Vector α n) (h : start + len ≤ n) :
    (slice v start len h).toList = (v.toList.drop start).take len := by
  refine List.ext_getElem (by simp; omega) fun i hi hi' => ?_
  simp [slice]

theorem getElem?_copy_from_slice (v : Vector α n) (part : Vector α len) (h : start + len ≤ n)
    (i : ℕ) : (copy_from_slice v start part).toList[i]? =
      if start ≤ i ∧ i < start + len then part.toList[i - start]? else v.toList[i]? := by
  by_cases hi : i < n
  · rw [List.getElem?_eq_getElem (by simpa using hi)]
    split_ifs with hp
    · rw [List.getElem?_eq_getElem (by simp; omega)]
      simp [copy_from_slice, hp]
    · rw [List.getElem?_eq_getElem (by simpa using hi)]
      simp [copy_from_slice, hp]
  · rw [if_neg (by omega), List.getElem?_eq_none (by simpa using hi),
      List.getElem?_eq_none (by simpa using hi)]

theorem take_drop_copy_self (v : Vector α n) (part : Vector α len) (h : start + len ≤ n) :
    ((copy_from_slice v start part).toList.drop start).take len = part.toList := by
  refine List.ext_getElem? fun i => ?_
  rw [List.getElem?_take, List.getElem?_drop, getElem?_copy_from_slice v part h]
  split_ifs with h₁ h₂
  · rw [Nat.add_sub_cancel_left]
  · omega
  · exact (List.getElem?_eq_none (by simpa using h₁)).symm

theorem take_drop_copy_ne (v : Vector α n) (part : Vector α len) (h : start + len ≤ n)
    {a m : ℕ} (ha : a + m ≤ start ∨ start + len ≤ a) :
    ((copy_from_slice v start part).toList.drop a).take m = (v.toList.drop a).take m := by
  refine List.ext_getElem? fun i => ?_
  rw [List.getElem?_take, List.getElem?_drop, getElem?_copy_from_slice v part h,
    List.getElem?_take, List.getElem?_drop]
  split_ifs with h₁ h₂
  · omega
  · rfl
  · rfl

theorem slice_copy_self (v : Vector α n) (part : Vector α len) (h : start + len ≤ n) :
    slice (copy_from_slice v start part) start len h = part := by
  rw [← Vector.toList_inj, toList_slice, take_drop_copy_self v part h]

theorem slice_copy_ne (v : Vector α n) (part : Vector α len) (h : start + len ≤ n) {a m : ℕ}
    (hm : a + m ≤ n) (ha : a + m ≤ start ∨ start + len ≤ a) :
    slice (copy_from_slice v start part) a m hm = slice v a m hm := by
  rw [← Vector.toList_inj, toList_slice, toList_slice, take_drop_copy_ne v part h ha]

end

/-! ## The blocks of the standard -/

/-- The octets of the `k`-th chunk of 16 words. -/
def chunk (block : Block) (k : ℕ) : Scrypt.Octets :=
  Scrypt.octets ((block.toList.drop (k * 16)).take 16)

/-- A block as the standard divides it. -/
def chunks (block : Block) : List Scrypt.Octets := (List.range (2 * R)).map (chunk block)

theorem getD_chunks (block : Block) {k : ℕ} (h : k < 2 * R) : (chunks block).getD k [] = chunk block k := by
  simp [chunks, h]

theorem chunk_eq_slice (block : Block) {k : ℕ} (h : k * 16 + 16 ≤ WORDS) :
    chunk block k = Scrypt.octets (slice block (k * 16) 16 h).toList := by
  rw [chunk, toList_slice]

theorem getLastD_chunks (block : Block) : (chunks block).getLastD [] = chunk block 15 := by
  have hlast : (List.range (2 * R)).getLast? = some 15 := by decide
  rw [chunks, List.getLastD_eq_getLast?, List.getLast?_map, hlast]
  rfl

theorem salsa_octets (x y : State) :
    Scrypt.octets (salsa8 (x.zipWith (· ^^^ ·) y)).toList =
      Scrypt.salsa (Scrypt.xor (Scrypt.octets x.toList) (Scrypt.octets y.toList)) := by
  rw [← Scrypt.octets_xor, ← Vector.toList_zipWith, Scrypt.salsa, Scrypt.words_octets, salsa8_eq]

theorem destination_eq (i : ℕ) : destination i = i / 2 * 16 + i % 2 * 128 := by
  show (i / 2 + if i % 2 = 0 then 0 else 8) * 16 = _
  split_ifs <;> omega

theorem destination_le (index : Fin (2 * R)) : destination index + 16 ≤ WORDS := by
  have h : index.val < 16 := index.isLt
  rw [destination_eq]
  show _ ≤ 256
  omega

theorem destination_apart {i j : ℕ} (hi : i < 16) (hj : j < i) :
    destination j + 16 ≤ destination i ∨ destination i + 16 ≤ destination j := by
  rw [destination_eq, destination_eq]
  omega

/-- After `i` rounds of `block_mix`. -/
def Mixed (block : Block) (i : ℕ) (s : State × Block) : Prop :=
  Scrypt.octets s.1.toList = Scrypt.mixAt ((chunks block).getLastD []) (chunks block) i ∧
    ∀ j < i, Scrypt.octets ((s.2.toList.drop (destination j)).take 16) =
      Scrypt.mixAt ((chunks block).getLastD []) (chunks block) (j + 1)

theorem mixed_step (block : Block) (index : Fin (2 * R)) (s : State × Block)
    (h : Mixed block index s) : Mixed block (index + 1) (mix_step block s index) := by
  obtain ⟨hstate, hscratch⟩ := h
  have hstate' : Scrypt.octets (mix_step block s index).1.toList =
      Scrypt.mixAt ((chunks block).getLastD []) (chunks block) (index + 1) := by
    rw [mix_step, salsa_octets, hstate, Scrypt.mixAt, getD_chunks block index.isLt,
      chunk_eq_slice block (chunk_le index)]
  refine ⟨hstate', fun j hj => ?_⟩
  rcases Nat.lt_succ_iff_lt_or_eq.mp hj with hlt | rfl
  · rw [← hscratch j hlt]
    exact congrArg _ (take_drop_copy_ne _ _ (destination_le index) (destination_apart index.isLt hlt))
  · rw [← hstate']
    exact congrArg _ (take_drop_copy_self _ _ (destination_le index))

/-- **`block_mix`** is `scryptBlockMix`, whatever the scratch space holds. -/
theorem block_mix_eq (block scratch : Block) :
    chunks (block_mix block scratch).1 = Scrypt.blockMix R (chunks block) := by
  have hloop : Mixed block (2 * R) ((List.finRange (2 * R)).foldl (mix_step block)
      (slice block (WORDS - 16) 16 (by decide), scratch)) := by
    refine foldl_finRange ⟨?_, fun j hj => absurd hj (Nat.not_lt_zero j)⟩ fun i s hs =>
      mixed_step block i s hs
    have hlast : WORDS - 16 = 15 * 16 := rfl
    rw [Scrypt.mixAt, getLastD_chunks, toList_slice, chunk, hlast]
  obtain ⟨-, hscratch⟩ := hloop
  show chunks ((List.finRange (2 * R)).foldl (mix_step block) _).2 = _
  generalize (List.finRange (2 * R)).foldl (mix_step block) _ = s at hscratch
  have hY : ∀ k < 2 * R, (Scrypt.mix ((chunks block).getLastD []) (chunks block)).getD k [] =
      Scrypt.octets ((s.2.toList.drop (destination k)).take 16) := by
    intro k hk
    have hlen : (chunks block).length = 2 * R := by rw [chunks, List.length_map, List.length_range]
    rw [Scrypt.mix_eq, hlen, hscratch k hk]
    simp [hk]
  -- even rounds fill the first half, odd rounds the second
  rw [Scrypt.blockMix, chunks, show 2 * R = R + R from rfl, List.range_add, List.map_append,
    List.map_map]
  congr 1
  · refine List.map_congr_left fun k hk => ?_
    have hk : k < 8 := List.mem_range.mp hk
    rw [hY (2 * k) (show 2 * k < 16 by omega), chunk, show destination (2 * k) = k * 16 by
      rw [destination_eq]; omega]
  · refine List.map_congr_left fun k hk => ?_
    have hk : k < 8 := List.mem_range.mp hk
    rw [hY (2 * k + 1) (show 2 * k + 1 < 16 by omega), show destination (2 * k + 1) = (R + k) * 16 by
      rw [destination_eq]; show _ = (8 + k) * 16; omega]
    rfl

/-! ## The table -/

/-- **The low word is enough**: `N` is a power of two. -/
theorem integerify_eq (block : Block) : selected block = Scrypt.integerify (chunks block) % N := by
  have hlast : (block.toList.drop (15 * 16)).take 16 =
      block[WORDS - 16] :: ((block.toList.drop (15 * 16)).take 16).tail := by
    have hlen : 15 * 16 < block.toList.length := by
      rw [Vector.length_toList]
      decide
    rw [List.drop_eq_getElem_cons hlen, List.take_succ_cons, List.tail_cons]
    rfl
  have hword := (block[WORDS - 16]).toNat_lt
  rw [Scrypt.integerify, getLastD_chunks, chunk, hlast, Scrypt.octets_cons, Bytes.ofLE_append,
    Bytes.ofLE_toLE, Bytes.toLE_length, selected]
  have hand : block[WORDS - 16].toNat &&& (N - 1) = block[WORDS - 16].toNat % N :=
    Nat.and_two_pow_sub_one_eq_mod _ 14
  rw [hand]
  show _ % 16384 = _ % 16384
  omega

theorem chunks_xor (b c : Block) :
    chunks (b.zipWith (· ^^^ ·) c) = (chunks b).zipWith Scrypt.xor (chunks c) := by
  rw [chunks, chunks, chunks, List.zipWith_map, List.zipWith_self]
  refine List.map_congr_left fun k _ => ?_
  rw [chunk, Vector.toList_zipWith, List.drop_zipWith, List.take_zipWith, Scrypt.octets_xor]
  rfl

theorem chunks_iterate (s : Block × Block) (n : ℕ) :
    chunks ((fun s : Block × Block => block_mix s.1 s.2)^[n] s).1 =
      (Scrypt.blockMix R)^[n] (chunks s.1) := by
  induction n with
  | zero => rfl
  | succ n ih => rw [Function.iterate_succ_apply', Function.iterate_succ_apply', block_mix_eq, ih]

/-- After `i` rounds of the first loop. -/
def Filled (block : Block) (i : ℕ) (s : Filling) : Prop :=
  chunks s.block = (Scrypt.blockMix R)^[i] (chunks block) ∧
    ∀ j (hj : j < N), j < i → j % STRIDE = 0 →
      chunks (slice s.checkpoints (j / STRIDE * WORDS) WORDS (checkpoint_le hj)) =
        (Scrypt.blockMix R)^[j] (chunks block)

theorem filled_step (block : Block) (index : Fin N) (s : Filling) (h : Filled block index s) :
    Filled block (index + 1) (fill_step s index) := by
  obtain ⟨hblock, hcheck⟩ := h
  refine ⟨?_, fun j hj hlt hmod => ?_⟩
  · rw [fill_step, Function.iterate_succ_apply', ← hblock]
    exact block_mix_eq s.block s.scratch
  · by_cases hi : index.val % STRIDE = 0
    · have hcopy : (fill_step s index).checkpoints =
          copy_from_slice s.checkpoints (index / STRIDE * WORDS) s.block := if_pos hi
      simp only [hcopy]
      rcases Nat.lt_succ_iff_lt_or_eq.mp hlt with hlt | rfl
      · rw [← hcheck j hj hlt hmod, slice_copy_ne _ _ (checkpoint_le index.isLt)]
        left
        show j / 8 * 256 + 256 ≤ index.val / 8 * 256
        have hmod : j % 8 = 0 := hmod
        have hi : index.val % 8 = 0 := hi
        omega
      · rw [slice_copy_self, hblock]
    · have hkeep : (fill_step s index).checkpoints = s.checkpoints := if_neg hi
      have hne : j ≠ index := fun h => hi (h ▸ hmod)
      simp only [hkeep]
      exact hcheck j hj (by omega) hmod

/-- **A missing block** of the table is recomputed from the checkpoint before it. -/
theorem reconstruct_eq {block : Block} {s : Filling} (h : Filled block N s) (scratch : Block)
    {index : ℕ} (hi : index < N) : chunks (reconstruct s.checkpoints scratch index hi).1 =
      (Scrypt.blockMix R)^[index] (chunks block) := by
  have hstart : index / STRIDE * STRIDE < N := lt_of_le_of_lt (Nat.div_mul_le_self _ _) hi
  have hcheck := h.2 (index / STRIDE * STRIDE) hstart hstart (Nat.mul_mod_left _ _)
  have hdiv : index / STRIDE * STRIDE / STRIDE = index / STRIDE := Nat.mul_div_cancel _ (by decide)
  simp only [hdiv] at hcheck
  rw [reconstruct, chunks_iterate, hcheck, ← Function.iterate_add_apply, Nat.mod_add_div']

/-- **The first loop** fills the checkpoints. -/
theorem filled (block : Block) : Filled block N (fill block) :=
  foldl_finRange (P := Filled block) ⟨rfl, fun j _ hj => absurd hj (Nat.not_lt_zero j)⟩
    fun i s hs => filled_step block i s hs

theorem mixing_step_eq {block : Block} {s : Filling} (h : Filled block N s) (t : Block × Block) :
    chunks (mixing_step s.checkpoints t).1 =
      Scrypt.mixing R N (Scrypt.fill R N (chunks block)).1 (chunks t.1) := by
  have hV : (Scrypt.fill R N (chunks block)).1.getD (Scrypt.integerify (chunks t.1) % N) [] =
      (Scrypt.blockMix R)^[selected t.1] (chunks block) := by
    rw [Scrypt.fill_eq, ← integerify_eq, List.getD_eq_getElem?_getD, List.getElem?_map,
      List.getElem?_range (selected_lt t.1), Option.map_some, Option.getD_some]
  rw [Scrypt.mixing, hV, mixing_step, block_mix_eq, chunks_xor, reconstruct_eq h]

theorem mix_rounds_eq {block : Block} {s : Filling} (h : Filled block N s) (n : ℕ) :
    chunks (mix_rounds n s) =
      (Scrypt.mixing R N (Scrypt.fill R N (chunks block)).1)^[n] (chunks s.block) := by
  unfold mix_rounds
  induction n with
  | zero => rfl
  | succ n ih =>
    rw [Function.iterate_succ_apply', Function.iterate_succ_apply', mixing_step_eq h, ih]

/-- **ROMix** with checkpoints. -/
theorem ro_mix_eq (block : Block) : chunks (ro_mix block) = Scrypt.romix R N (chunks block) := by
  rw [ro_mix, mix_rounds_eq (filled block), (filled block).1, Scrypt.romix_eq]

/-! ## Bytes -/

theorem octets_from_le_bytes (bytes : Vector UInt8 BYTES) :
    Scrypt.octets (from_le_bytes bytes).toList = bytes.toList := by
  have hlist : (from_le_bytes bytes).toList = (List.range WORDS).map fun i =>
      UInt32.ofNat (Bytes.ofLE ((bytes.toList.drop (4 * i)).take 4)) := by
    refine List.ext_getElem (by simp) fun i hi hi' => ?_
    simp [from_le_bytes, toList_slice]
  rw [hlist, Scrypt.octets_ofLE (by rw [Vector.length_toList]; rfl)]

theorem chunks_eq_blocks (block : Block) :
    chunks block = Scrypt.blocks R (Scrypt.octets block.toList) := by
  rw [chunks, Scrypt.blocks]
  refine List.map_congr_left fun k _ => ?_
  rw [chunk, show 64 * k = 4 * (k * 16) by ring, Scrypt.octets_drop, Scrypt.octets_take _ 16]

theorem to_le_bytes_eq (block : Block) : to_le_bytes block = (chunks block).flatten := by
  have hlen : (Scrypt.octets block.toList).length = 64 * (2 * R) := by
    rw [Scrypt.length_octets, Vector.length_toList]
    rfl
  rw [chunks_eq_blocks, Scrypt.flatten_blocks, ← hlen, List.take_length]
  rfl

/-- **The checkpointed scrypt is the standard one**, part by part and as a whole, whatever PBKDF2
computes. -/
theorem scrypt_standard {ε : Type}
    (pbkdf2_hmac : List UInt8 → List UInt8 → ℕ → (len : ℕ) → Except ε (Vector UInt8 len)) :
    (∀ password salt len, scrypt pbkdf2_hmac password salt len =
      Scrypt.scrypt pbkdf2_hmac R N 1 password salt len) ∧
    (∀ block scratch (index : Fin N),
      chunks (reconstruct (fill block).checkpoints scratch index index.isLt).1 =
        (Scrypt.fill R N (chunks block)).1.getD index []) ∧
    (∀ block scratch, chunks (block_mix block scratch).1 = Scrypt.blockMix R (chunks block)) ∧
    (∀ state, salsa8 state = Scrypt.core state) ∧
    ∀ block, selected block = Scrypt.integerify (chunks block) % N := by
  refine ⟨fun password salt len => ?_, fun block scratch index => ?_, block_mix_eq, salsa8_eq,
    integerify_eq⟩
  · have hmix : ∀ bytes : Vector UInt8 BYTES, to_le_bytes (ro_mix (from_le_bytes bytes)) =
        (List.range 1).flatMap fun i => (Scrypt.romix R N (Scrypt.blocks R
          ((bytes.toList.drop (i * (128 * R))).take (128 * R)))).flatten := by
      intro bytes
      have hall : (bytes.toList.drop (0 * (128 * R))).take (128 * R) = bytes.toList := by
        rw [Nat.zero_mul, List.drop_zero]
        exact List.take_of_length_le (by rw [Vector.length_toList]; decide)
      rw [List.range_one, List.flatMap_singleton, hall, to_le_bytes_eq, ro_mix_eq, chunks_eq_blocks,
        octets_from_le_bytes]
    unfold scrypt
    simp only [hmix]
    rfl
  · rw [reconstruct_eq (filled block), Scrypt.fill_eq, List.getD_eq_getElem?_getD,
      List.getElem?_map, List.getElem?_range index.isLt, Option.map_some, Option.getD_some]

end Gofro.Kdf
