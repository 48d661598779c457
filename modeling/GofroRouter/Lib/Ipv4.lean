import Mathlib.Data.List.TakeWhile
import Mathlib.Tactic

/-!
# IPv4 addresses and networks

An address is its 32-bit value. A network is an aligned block of `2 ^ (32 - prefix_len)` addresses:
`first`, `last` are its bounds as numbers and `contains_iff` reads membership as a quotient.

* `contains_trans`, `contains_or_disjoint`: two networks are nested or disjoint.
* `contains_supernet`: a network and its sibling make up the supernet. `Siblings.next`: they are
  neighbours.
* `Separated`: networks in increasing order, without overlap; `mem_lookup` finds the one that
  contains an address by counting the networks that start at or before it.
* `Net.toString`, `Net.ofString?`: the dotted text of a network, read back by `ofString?_toString`.
-/

namespace Ipv4

/-- An IPv4 address, as its 32-bit value. -/
abbrev Addr := BitVec 32

/-- The address `a.b.c.d`. -/
def addr (a b c d : ℕ) : Addr := BitVec.ofNat 32 (a * 2 ^ 24 + b * 2 ^ 16 + c * 2 ^ 8 + d)

/-- An address with a prefix length of at most 32 bits. -/
structure Net where
  addr : Addr
  prefix_len : ℕ
  prefix_le : prefix_len ≤ 32
deriving DecidableEq

namespace Net

/-- The number of addresses in a network. -/
def size (n : Net) : ℕ := 2 ^ (32 - n.prefix_len)

/-- The first address of a network, as a number. -/
def first (n : Net) : ℕ := n.addr.toNat / n.size * n.size

/-- The last address of a network, as a number. -/
def last (n : Net) : ℕ := n.first + (n.size - 1)

/-- The first address. -/
def network (n : Net) : Addr := BitVec.ofNat 32 n.first

/-- The last address. -/
def broadcast (n : Net) : Addr := BitVec.ofNat 32 n.last

/-- Between the first address and the last one. -/
def contains (n : Net) (ip : Addr) : Bool := decide (n.network ≤ ip) && decide (ip ≤ n.broadcast)

/-- `other` lies inside `n`. -/
def containsNet (n other : Net) : Bool :=
  decide (n.network ≤ other.network) && decide (other.broadcast ≤ n.broadcast)

/-- The network with its host bits cleared. -/
def trunc (n : Net) : Net := { n with addr := n.network }

/-- The network one bit shorter, unless it is the whole space already. -/
def supernet (n : Net) : Option Net :=
  if n.prefix_len = 0 then none
  else some (trunc ⟨n.addr, n.prefix_len - 1, by have := n.prefix_le; omega⟩)

theorem prefix_24 : 24 ≤ 32 := by norm_num

theorem prefix_32 : 32 ≤ 32 := le_rfl

theorem size_pos (n : Net) : 0 < n.size := Nat.two_pow_pos _

theorem last_lt (n : Net) : n.last < 2 ^ 32 := by
  have hs := n.size_pos
  have hpow : 2 ^ 32 = 2 ^ n.prefix_len * n.size := by
    rw [size, ← pow_add, Nat.add_sub_cancel' n.prefix_le]
  have hq : n.addr.toNat / n.size < 2 ^ n.prefix_len := by
    rw [Nat.div_lt_iff_lt_mul hs, ← hpow]; exact n.addr.isLt
  have := Nat.mul_le_mul_right n.size hq
  rw [Nat.succ_mul] at this
  rw [last, first]; omega

theorem first_lt (n : Net) : n.first < 2 ^ 32 := lt_of_le_of_lt (Nat.le_add_right _ _) n.last_lt

@[simp] theorem network_toNat (n : Net) : n.network.toNat = n.first := by
  rw [network, BitVec.toNat_ofNat, Nat.mod_eq_of_lt n.first_lt]

@[simp] theorem broadcast_toNat (n : Net) : n.broadcast.toNat = n.last := by
  rw [broadcast, BitVec.toNat_ofNat, Nat.mod_eq_of_lt n.last_lt]

theorem contains_iff_bounds {n : Net} {ip : Addr} :
    n.contains ip = true ↔ n.first ≤ ip.toNat ∧ ip.toNat ≤ n.last := by
  simp [contains, BitVec.le_def]

theorem containsNet_iff {m n : Net} :
    m.containsNet n = true ↔ m.first ≤ n.first ∧ n.last ≤ m.last := by
  simp [containsNet, BitVec.le_def]

/-- **Membership in a network is equality of quotients.** -/
theorem contains_iff {n : Net} {ip : Addr} :
    n.contains ip = true ↔ ip.toNat / n.size = n.addr.toNat / n.size := by
  have hs := n.size_pos
  rw [contains_iff_bounds, first, last, first, Nat.div_eq_iff hs]
  constructor <;> intro h <;> omega

theorem contains_addr (n : Net) : n.contains n.addr = true := contains_iff.mpr rfl

theorem contains_network (n : Net) : n.contains n.network = true := by
  rw [contains_iff_bounds, network_toNat, last]; omega

theorem first_div_size (n : Net) : n.first / n.size = n.addr.toNat / n.size :=
  Nat.mul_div_cancel _ n.size_pos

@[simp] theorem trunc_prefix_len (n : Net) : n.trunc.prefix_len = n.prefix_len := rfl

@[simp] theorem trunc_size (n : Net) : n.trunc.size = n.size := rfl

@[simp] theorem trunc_first (n : Net) : n.trunc.first = n.first := by
  rw [first, trunc_size, trunc, network_toNat, first_div_size, first]

@[simp] theorem trunc_last (n : Net) : n.trunc.last = n.last := by
  rw [last, trunc_first, trunc_size, last]

@[simp] theorem trunc_network (n : Net) : n.trunc.network = n.network := by
  rw [network, trunc_first, network]

@[simp] theorem trunc_trunc (n : Net) : n.trunc.trunc = n.trunc := by
  rw [trunc, trunc_network]; rfl

@[simp] theorem trunc_contains (n : Net) (ip : Addr) : n.trunc.contains ip = n.contains ip := by
  rw [Bool.eq_iff_iff, contains_iff_bounds, contains_iff_bounds, trunc_first, trunc_last]

theorem contains_of_prefix_zero {n : Net} (h : n.prefix_len = 0) (ip : Addr) :
    n.contains ip = true := by
  have h₁ := ip.isLt
  have h₂ := n.addr.isLt
  rw [contains_iff, size, h, Nat.div_eq_of_lt (by simpa using h₁), Nat.div_eq_of_lt (by simpa using h₂)]

theorem div_size_of_le {m n : Net} (h : m.prefix_len ≤ n.prefix_len) (a : ℕ) :
    a / m.size = a / n.size / 2 ^ (n.prefix_len - m.prefix_len) := by
  have := n.prefix_le
  rw [Nat.div_div_eq_div_mul, size, size, ← pow_add]
  congr 2
  omega

/-- **Overlapping networks are nested**: the one with the longer prefix lies in the other. -/
theorem contains_trans {m n : Net} (h : m.prefix_len ≤ n.prefix_len) {ip : Addr}
    (hm : m.contains ip = true) (hn : n.contains ip = true) {jp : Addr}
    (hj : n.contains jp = true) : m.contains jp = true := by
  rw [contains_iff] at *
  rw [← hm, div_size_of_le h, div_size_of_le h, hj, hn]

theorem containsNet_of_le {m n : Net} (h : m.prefix_len ≤ n.prefix_len) {ip : Addr}
    (hm : m.contains ip = true) (hn : n.contains ip = true) : m.containsNet n = true := by
  have hb : n.contains n.broadcast = true := by
    rw [contains_iff_bounds, broadcast_toNat, last]; omega
  have h₁ := contains_iff_bounds.mp (contains_trans h hm hn n.contains_network)
  have h₂ := contains_iff_bounds.mp (contains_trans h hm hn hb)
  rw [network_toNat] at h₁
  rw [broadcast_toNat] at h₂
  exact containsNet_iff.mpr ⟨h₁.1, h₂.2⟩

theorem contains_of_containsNet {m n : Net} (h : m.containsNet n = true) {ip : Addr}
    (hn : n.contains ip = true) : m.contains ip = true := by
  rw [containsNet_iff] at h
  rw [contains_iff_bounds] at *
  omega

/-- Two networks neither of which contains the other's first address are disjoint. -/
theorem disjoint_of_not_contains {m n : Net} (hmn : m.contains n.network = false)
    (hnm : n.contains m.network = false) (ip : Addr) :
    ¬ (m.contains ip = true ∧ n.contains ip = true) := by
  rintro ⟨hm, hn⟩
  rcases le_total m.prefix_len n.prefix_len with h | h
  · rw [contains_trans h hm hn n.contains_network] at hmn; cases hmn
  · rw [contains_trans h hn hm m.contains_network] at hnm; cases hnm

/-! ## Supernets -/

theorem supernet_eq {n p : Net} (h : n.supernet = some p) :
    n.prefix_len ≠ 0 ∧ p.prefix_len + 1 = n.prefix_len ∧ p.size = 2 * n.size ∧
      p.first = n.addr.toNat / (2 * n.size) * (2 * n.size) := by
  unfold supernet at h
  split_ifs at h with h0
  cases h
  have hle := n.prefix_le
  have hs : (⟨n.addr, n.prefix_len - 1, by omega⟩ : Net).size = 2 * n.size := by
    rw [size, size, ← pow_succ']
    congr 1
    show 32 - (n.prefix_len - 1) = _
    omega
  refine ⟨h0, ?_, ?_, ?_⟩
  · show n.prefix_len - 1 + 1 = _
    omega
  · rw [trunc_size, hs]
  · rw [trunc_first, first, hs]

theorem supernet_first {n p : Net} (h : n.supernet = some p) :
    p.first = n.first ∨ p.first + n.size = n.first := by
  obtain ⟨-, -, -, hf⟩ := supernet_eq h
  have hq : n.addr.toNat / (2 * n.size) = n.addr.toNat / n.size / 2 := by
    rw [Nat.mul_comm, Nat.div_div_eq_div_mul]
  rw [hf, hq, first]
  generalize n.addr.toNat / n.size = q
  have hmod := Nat.div_add_mod q 2
  rcases Nat.mod_two_eq_zero_or_one q with h2 | h2
  · left
    rw [h2, Nat.add_zero] at hmod
    nth_rewrite 2 [← hmod]
    ring
  · right
    rw [h2] at hmod
    nth_rewrite 2 [← hmod]
    ring

/-- **A network and its sibling below it make up the supernet.** -/
theorem contains_supernet {m n p : Net} (hs : n.supernet = some p)
    (hl : m.prefix_len = n.prefix_len) (hp : p.containsNet m = true) (hlt : m.last < n.first)
    (ip : Addr) : p.contains ip = true ↔ m.contains ip = true ∨ n.contains ip = true := by
  obtain ⟨-, -, hsize, -⟩ := supernet_eq hs
  have hms : m.size = n.size := by rw [size, size, hl]
  have hn := n.size_pos
  rw [containsNet_iff] at hp
  simp only [contains_iff_bounds]
  simp only [last, hms, hsize] at *
  rcases supernet_first hs with h | h <;> omega

theorem supernet_bounds {m n p : Net} (hs : n.supernet = some p)
    (hl : m.prefix_len = n.prefix_len) (hp : p.containsNet m = true) (hlt : m.last < n.first) :
    p.first = m.first ∧ p.last = n.last := by
  obtain ⟨-, -, hsize, -⟩ := supernet_eq hs
  have hms : m.size = n.size := by rw [size, size, hl]
  have hn := n.size_pos
  rw [containsNet_iff] at hp
  simp only [last, hms, hsize] at *
  rcases supernet_first hs with h | h <;> omega

/-- Two networks that make up one supernet. -/
def Siblings (m n : Net) : Prop := m ≠ n ∧ ∃ p, m.supernet = some p ∧ n.supernet = some p

theorem Siblings.symm {m n : Net} (h : Siblings m n) : Siblings n m := by
  obtain ⟨hne, p, hm, hn⟩ := h
  exact ⟨hne.symm, p, hn, hm⟩

theorem Siblings.next {m n : Net} (h : Siblings m n) (hlt : m.last < n.first) :
    m.prefix_len = n.prefix_len ∧ m.last + 1 = n.first ∧
      ∃ p, n.supernet = some p ∧ p.containsNet m = true := by
  obtain ⟨-, p, hm, hn⟩ := h
  obtain ⟨-, hml, hms, -⟩ := supernet_eq hm
  obtain ⟨-, hnl, hns, -⟩ := supernet_eq hn
  have hmf := supernet_first hm
  have hnf := supernet_first hn
  have hpos := m.size_pos
  have hlow : p.first = m.first := by
    rw [last] at hlt
    omega
  refine ⟨by omega, ?_, p, hn, containsNet_iff.mpr ⟨hlow.le, ?_⟩⟩
  · rw [last] at hlt ⊢
    omega
  · rw [last, last]
    omega

/-! ## Separated lists -/

/-- Networks in increasing order, each ending before the next begins. -/
def Separated (l : List Net) : Prop := l.Pairwise fun m n => m.last < n.first

theorem first_le_last (n : Net) : n.first ≤ n.last := Nat.le_add_right _ _

theorem Separated.disjoint {l : List Net} (h : Separated l) :
    l.Pairwise fun m n => ∀ ip, ¬ (m.contains ip = true ∧ n.contains ip = true) := by
  refine h.imp fun hlt ip hip => ?_
  have hm := contains_iff_bounds.mp hip.1
  have hn := contains_iff_bounds.mp hip.2
  omega

/-- **Lookup in a separated list**: the only candidate for an address is the last network that
starts at or before it. -/
theorem mem_lookup {l : List Net} (h : Separated l) (ip : Addr) :
    (∃ n ∈ l, n.contains ip = true) ↔
      ∃ n, (l.takeWhile fun n => decide (n.network ≤ ip)).getLast? = some n ∧
        n.contains ip = true := by
  induction l with
  | nil => simp
  | cons m l ih =>
    obtain ⟨hm, hl⟩ := List.pairwise_cons.mp h
    have hrest : ¬ m.network ≤ ip → ¬ ∃ n ∈ m :: l, n.contains ip = true := by
      rintro hlt ⟨n, hn, hc⟩
      rw [BitVec.le_def, network_toNat, not_le] at hlt
      rw [contains_iff_bounds] at hc
      have := m.first_le_last
      rcases List.mem_cons.mp hn with rfl | hn
      · omega
      · have := hm n hn; omega
    by_cases hle : m.network ≤ ip
    · rw [List.takeWhile_cons_of_pos (by simpa using hle)]
      cases ht : (l.takeWhile fun n => decide (n.network ≤ ip)) with
      | nil =>
        have hno : ¬ ∃ n ∈ l, n.contains ip = true := by
          rw [ih hl, ht]; simp
        simp only [List.mem_cons, exists_eq_or_imp, hno, or_false, List.getLast?_singleton,
          Option.some.injEq, exists_eq_left']
      | cons n ns =>
        have hlast : (m :: n :: ns).getLast? = (n :: ns).getLast? := rfl
        rw [hlast, ← ht, ← ih hl]
        constructor
        · rintro ⟨k, hk, hc⟩
          rcases List.mem_cons.mp hk with rfl | hk
          · -- `n` starts at or before `ip`, so the head ends before it
            exfalso
            have hn : n ∈ l.takeWhile fun n => decide (n.network ≤ ip) := by rw [ht]; simp
            have h₁ := List.mem_takeWhile_imp hn
            have h₂ := hm n (List.takeWhile_subset _ hn)
            simp only [decide_eq_true_eq, BitVec.le_def, network_toNat] at h₁
            rw [contains_iff_bounds] at hc
            omega
          · exact ⟨k, hk, hc⟩
        · rintro ⟨k, hk, hc⟩
          exact ⟨k, List.mem_cons_of_mem _ hk, hc⟩
    · rw [List.takeWhile_cons_of_neg (by simpa using hle)]
      simpa using hrest hle

/-! ## Text -/

/-- Dotted decimal text of an address. -/
def dotted (ip : Addr) : List Char :=
  let n := ip.toNat
  Nat.toDigits 10 (n / 2 ^ 24) ++ '.' :: (Nat.toDigits 10 (n / 2 ^ 16 % 256) ++ '.' ::
    (Nat.toDigits 10 (n / 2 ^ 8 % 256) ++ '.' :: Nat.toDigits 10 (n % 256)))

/-- `a.b.c.d/p`. -/
def toString (n : Net) : String :=
  String.ofList (dotted n.addr ++ '/' :: Nat.toDigits 10 n.prefix_len)

/-- The value of a list of decimal digits. -/
def decimal (ds : List Char) : ℕ := ds.foldl (fun r d => r * 10 + (d.toNat - '0'.toNat)) 0

/-- A decimal number of at most `max_digits` digits below `upto`, and the text after it. -/
def readNumber (max_digits upto : ℕ) (cs : List Char) : Option (ℕ × List Char) :=
  let ds := cs.takeWhile Char.isDigit
  if ds.length = 0 ∨ max_digits < ds.length ∨ upto ≤ decimal ds then none
  else some (decimal ds, cs.dropWhile Char.isDigit)

def readChar (c : Char) : List Char → Option (List Char)
  | [] => none
  | d :: cs => if d = c then some cs else none

/-- A dotted address, and the text after it. -/
def readAddr (cs : List Char) : Option (Addr × List Char) := do
  let (a, cs) ← readNumber 3 256 cs
  let (b, cs) ← readNumber 3 256 (← readChar '.' cs)
  let (c, cs) ← readNumber 3 256 (← readChar '.' cs)
  let (d, cs) ← readNumber 3 256 (← readChar '.' cs)
  some (Ipv4.addr a b c d, cs)

/-- The network a text `a.b.c.d/p` denotes. -/
def ofString? (s : String) : Option Net := do
  let (addr, cs) ← readAddr s.toList
  let (p, cs) ← readNumber 2 33 (← readChar '/' cs)
  if h : p ≤ 32 ∧ cs = [] then some ⟨addr, p, h.1⟩ else none

theorem toDigits_byte : ∀ n < 256, (Nat.toDigits 10 n).all Char.isDigit = true ∧
    (Nat.toDigits 10 n).length ≠ 0 ∧ (Nat.toDigits 10 n).length ≤ 3 ∧
      decimal (Nat.toDigits 10 n) = n := by
  decide +kernel

theorem length_toDigits_lt_33 : ∀ n < 33, (Nat.toDigits 10 n).length ≤ 2 := by decide

/-- The text of a number is read back, up to a character that is no digit. -/
theorem readNumber_toDigits {k upto n : ℕ} (hn : n < 256) (hu : n < upto)
    (hk : (Nat.toDigits 10 n).length ≤ k) {rest : List Char}
    (hr : ∀ c ∈ rest.head?, c.isDigit = false) :
    readNumber k upto (Nat.toDigits 10 n ++ rest) = some (n, rest) := by
  obtain ⟨hd, h0, -, hv⟩ := toDigits_byte n hn
  have hall : ∀ c ∈ Nat.toDigits 10 n, c.isDigit = true := List.all_eq_true.mp hd
  have hw : rest.takeWhile Char.isDigit = [] ∧ rest.dropWhile Char.isDigit = rest := by
    cases rest with
    | nil => exact ⟨rfl, rfl⟩
    | cons c cs =>
      have := hr c (by simp)
      exact ⟨List.takeWhile_cons_of_neg (by simp [this]), List.dropWhile_cons_of_neg (by simp [this])⟩
  rw [readNumber, List.takeWhile_append_of_pos hall, List.dropWhile_append_of_pos hall, hw.1, hw.2,
    List.append_nil, hv, if_neg (by omega)]

theorem readAddr_dotted (ip : Addr) {rest : List Char} (hr : ∀ c ∈ rest.head?, c.isDigit = false) :
    readAddr (dotted ip ++ rest) = some (ip, rest) := by
  have hip := ip.isLt
  have hb : ∀ n < 256, (Nat.toDigits 10 n).length ≤ 3 := fun n hn => (toDigits_byte n hn).2.2.1
  have hdot : ∀ cs : List Char, ∀ c ∈ ('.' :: cs).head?, c.isDigit = false := by simp
  have hread : ∀ n < 256, ∀ cs : List Char, (∀ c ∈ cs.head?, c.isDigit = false) →
      readNumber 3 256 (Nat.toDigits 10 n ++ cs) = some (n, cs) :=
    fun n hn cs hc => readNumber_toDigits hn hn (hb n hn) hc
  simp only [readAddr, dotted, List.append_assoc, List.cons_append]
  rw [hread _ (by omega) _ (hdot _)]
  simp only [Option.bind_eq_bind, Option.bind_some, readChar, if_true]
  rw [hread _ (by omega) _ (hdot _)]
  simp only [Option.bind_some, if_true]
  rw [hread _ (by omega) _ (hdot _)]
  simp only [Option.bind_some, if_true]
  rw [hread _ (by omega) _ hr]
  simp only [Option.bind_some, Option.some.injEq, Prod.mk.injEq, and_true]
  apply BitVec.eq_of_toNat_eq
  rw [Ipv4.addr, BitVec.toNat_ofNat]
  omega

/-- **A network's text is read back.** -/
theorem ofString?_toString (n : Net) : ofString? n.toString = some n := by
  have hp := n.prefix_le
  have hnum : readNumber 2 33 (Nat.toDigits 10 n.prefix_len ++ []) = some (n.prefix_len, []) :=
    readNumber_toDigits
    (show n.prefix_len < 256 by omega) (by omega) (length_toDigits_lt_33 _ (by omega)) (by simp)
  rw [List.append_nil] at hnum
  rw [ofString?, toString, String.toList_ofList, readAddr_dotted _ (by simp)]
  simp only [Option.bind_eq_bind, Option.bind_some, readChar, if_true, hnum]
  rw [dif_pos ⟨hp, trivial⟩]

theorem ofString?_char {s : String} {n : Net} (h : ofString? s = some n) {c : Char}
    (hc : c ∈ s.toList) : c.isDigit = true ∨ c = '.' ∨ c = '/' := by
  have hread : ∀ {k upto m : ℕ} {cs rest : List Char}, readNumber k upto cs = some (m, rest) →
      ∀ c ∈ cs, c.isDigit = true ∨ c ∈ rest := by
    intro k upto m cs rest h c hc
    rw [readNumber] at h
    split_ifs at h
    obtain ⟨-, rfl⟩ := Prod.mk.inj (Option.some.inj h)
    rw [← List.takeWhile_append_dropWhile (p := Char.isDigit) (l := cs), List.mem_append] at hc
    exact hc.imp_left List.mem_takeWhile_imp
  have hchar : ∀ {d : Char} {cs rest : List Char}, readChar d cs = some rest →
      ∀ c ∈ cs, c = d ∨ c ∈ rest := by
    intro d cs rest h c hc
    cases cs with
    | nil => nomatch hc
    | cons e cs =>
      rw [readChar] at h
      split_ifs at h with he
      obtain rfl := Option.some.inj h
      exact (List.mem_cons.mp hc).imp_left fun h => h.trans he
  have haddr : ∀ {a : Addr} {cs rest : List Char}, readAddr cs = some (a, rest) →
      ∀ c ∈ cs, (c.isDigit = true ∨ c = '.') ∨ c ∈ rest := by
    intro a cs rest h c hc
    simp only [readAddr, Option.bind_eq_bind, Option.bind_eq_some_iff, Prod.exists,
      Option.some.injEq, Prod.mk.injEq] at h
    obtain ⟨_, cs₁, h₁, cs₂, d₁, _, cs₃, h₂, cs₄, d₂, _, cs₅, h₃, cs₆, d₃, _, cs₇, h₄, -, rfl⟩ := h
    rcases hread h₁ c hc with hd | hc
    · exact .inl (.inl hd)
    rcases hchar d₁ c hc with hd | hc
    · exact .inl (.inr hd)
    rcases hread h₂ c hc with hd | hc
    · exact .inl (.inl hd)
    rcases hchar d₂ c hc with hd | hc
    · exact .inl (.inr hd)
    rcases hread h₃ c hc with hd | hc
    · exact .inl (.inl hd)
    rcases hchar d₃ c hc with hd | hc
    · exact .inl (.inr hd)
    exact (hread h₄ c hc).imp_left .inl
  simp only [ofString?, Option.bind_eq_bind, Option.bind_eq_some_iff, Prod.exists] at h
  obtain ⟨a, cs₁, h₁, cs₂, d, p, cs₃, h₂, h⟩ := h
  split_ifs at h with hend
  rcases haddr h₁ c hc with (hd | hd) | hc
  · exact .inl hd
  · exact .inr (.inl hd)
  rcases hchar d c hc with hd | hc
  · exact .inr (.inr hd)
  rcases hread h₂ c hc with hd | hc
  · exact .inl hd
  · rw [hend.2] at hc
    nomatch hc

theorem toString_char (n : Net) {c : Char} (h : c ∈ n.toString.toList) :
    c.isDigit = true ∨ c = '.' ∨ c = '/' := ofString?_char (ofString?_toString n) h

end Net

end Ipv4
