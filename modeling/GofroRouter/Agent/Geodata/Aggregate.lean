import GofroRouter.Lib.Ipv4

/-!
# Merging IPv4 networks

`aggregate_ipv4`: sort the networks, drop those inside the network before, and merge a network with
its sibling into their supernet, again and again. The written part of the vector is a stack, its
last network on top.

* `separated_merge_up`, `contains_merge_up`: one merge keeps the stack separated and the addresses.
* **`aggregate_ipv4_separated`**, **`contains_aggregate_ipv4`**: the result is separated and covers
  the same addresses.
* `Settled`: neighbours on the stack cannot be merged; **`aggregate_ipv4_not_siblings`**: nor can
  any two networks of the result.
-/

namespace Gofro.Agent.Geodata

open Ipv4

/-- The derived order of `Ipv4Net`: by address, then by prefix length. -/
def net_le (m n : Net) : Bool :=
  decide (m.addr < n.addr) || (decide (m.addr = n.addr) && decide (m.prefix_len ≤ n.prefix_len))

/-- The `while` loop: merge `network` with the top of the stack as long as they are siblings. -/
def merge_up : List Net → Net → List Net
  | [], network => [network]
  | previous :: written, network =>
    match network.supernet with
    | none => network :: previous :: written
    | some parent =>
      if previous.prefix_len ≠ network.prefix_len || !parent.containsNet previous then
        network :: previous :: written
      else merge_up written parent

/-- One round of the `for` loop. -/
def push (written : List Net) (network : Net) : List Net :=
  match written with
  | [] => merge_up [] network
  | previous :: rest =>
    if previous.containsNet network then previous :: rest
    else merge_up (previous :: rest) network

/-- The fewest networks with the same addresses, in order. -/
def aggregate_ipv4 (networks : List Net) : List Net :=
  ((networks.mergeSort net_le).foldl push []).reverse

/-- A stack of separated networks, the last one on top. -/
def Stack (written : List Net) : Prop := written.Pairwise fun m n => n.last < m.first

/-! ## Merging -/

theorem sibling_contains {m n p : Net} (h : ¬ (decide (m.prefix_len ≠ n.prefix_len) || !p.containsNet m) = true) :
    m.prefix_len = n.prefix_len ∧ p.containsNet m = true := by
  simpa using h

theorem separated_merge_up {written : List Net} {n : Net} (h : Stack (n :: written)) :
    Stack (merge_up written n) := by
  induction written generalizing n with
  | nil => exact h
  | cons m written ih =>
    rw [merge_up]
    split
    · exact h
    · rename_i p hp
      split
      · exact h
      · rename_i hsib
        obtain ⟨hl, hc⟩ := sibling_contains hsib
        obtain ⟨hn, hm⟩ := List.pairwise_cons.mp h
        have hb := Net.supernet_bounds hp hl hc (hn m List.mem_cons_self)
        obtain ⟨hm', hw⟩ := List.pairwise_cons.mp hm
        exact ih (List.pairwise_cons.mpr ⟨fun k hk => hb.1 ▸ hm' k hk, hw⟩)

theorem contains_merge_up {written : List Net} {n : Net} (h : Stack (n :: written)) (ip : Addr) :
    (∃ k ∈ merge_up written n, k.contains ip = true) ↔
      ∃ k ∈ n :: written, k.contains ip = true := by
  induction written generalizing n with
  | nil => rfl
  | cons m written ih =>
    rw [merge_up]
    split
    · rfl
    · rename_i p hp
      split
      · rfl
      · rename_i hsib
        obtain ⟨hl, hc⟩ := sibling_contains hsib
        obtain ⟨hn, hm⟩ := List.pairwise_cons.mp h
        have hlt := hn m List.mem_cons_self
        have hb := Net.supernet_bounds hp hl hc hlt
        obtain ⟨hm', hw⟩ := List.pairwise_cons.mp hm
        rw [ih (List.pairwise_cons.mpr ⟨fun k hk => hb.1 ▸ hm' k hk, hw⟩)]
        simp only [List.mem_cons, exists_eq_or_imp, Net.contains_supernet hp hl hc hlt]
        tauto

/-- Every network of a merged stack starts where one of the stack's networks does, with a prefix
that is not longer. -/
theorem mem_merge_up {written : List Net} {n k : Net} (h : Stack (n :: written))
    (hk : k ∈ merge_up written n) :
    ∃ j ∈ n :: written, k.first = j.first ∧ k.prefix_len ≤ j.prefix_len := by
  induction written generalizing n with
  | nil => exact ⟨k, hk, rfl, le_rfl⟩
  | cons m written ih =>
    rw [merge_up] at hk
    split at hk
    · exact ⟨k, hk, rfl, le_rfl⟩
    · rename_i p hp
      split at hk
      · exact ⟨k, hk, rfl, le_rfl⟩
      · rename_i hsib
        obtain ⟨hl, hc⟩ := sibling_contains hsib
        obtain ⟨hn, hm⟩ := List.pairwise_cons.mp h
        have hb := Net.supernet_bounds hp hl hc (hn m List.mem_cons_self)
        have hlen := (Net.supernet_eq hp).2.1
        obtain ⟨hm', hw⟩ := List.pairwise_cons.mp hm
        obtain ⟨j, hj, hf, hpl⟩ :=
          ih (List.pairwise_cons.mpr ⟨fun k hk => hb.1 ▸ hm' k hk, hw⟩) hk
        rcases List.mem_cons.mp hj with rfl | hj
        · exact ⟨m, by simp, hf.trans hb.1, by omega⟩
        · exact ⟨j, by simp [hj], hf, hpl⟩

/-! ## One network after the other -/

/-- The stack's networks start at or before `n`, and those that start there are no shorter. -/
def Before (written : List Net) (n : Net) : Prop :=
  ∀ k ∈ written, k.first < n.first ∨ (k.first = n.first ∧ k.prefix_len ≤ n.prefix_len)

/-- A network not inside the top of the stack lies above the whole stack. -/
theorem stack_cons {written : List Net} {n : Net} (h : Stack written) (hb : Before written n)
    (htop : ∀ m ∈ written.head?, m.containsNet n = false) : Stack (n :: written) := by
  refine List.pairwise_cons.mpr ⟨fun k hk => ?_, h⟩
  cases written with
  | nil => cases hk
  | cons m written =>
    have hm : m.last < n.first := by
      have hc := htop m rfl
      by_contra hlt
      have hfirst := hb m List.mem_cons_self
      have hle := m.first_le_last
      -- both contain the first address of `n`, so one lies in the other
      have hmn : m.contains n.network = true := by
        rw [Net.contains_iff_bounds, Net.network_toNat]
        omega
      have hnn := n.contains_network
      rcases le_total m.prefix_len n.prefix_len with hp | hp
      · rw [Net.containsNet_of_le hp hmn hnn] at hc
        cases hc
      · have := Net.containsNet_iff.mp (Net.containsNet_of_le hp hnn hmn)
        have heq : m.prefix_len = n.prefix_len := by omega
        rw [Net.containsNet_of_le heq.le hmn hnn] at hc
        cases hc
    rcases List.mem_cons.mp hk with rfl | hk
    · exact hm
    · have := (List.pairwise_cons.mp h).1 k hk
      have := m.first_le_last
      omega

/-- `result` is the stack `written` with the addresses of `n` added. -/
structure Extends (written : List Net) (n : Net) (result : List Net) : Prop where
  stack : Stack result
  contains : ∀ ip, (∃ k ∈ result, k.contains ip = true) ↔
    (∃ k ∈ written, k.contains ip = true) ∨ n.contains ip = true
  start : ∀ k ∈ result, ∃ j ∈ n :: written, k.first = j.first ∧ k.prefix_len ≤ j.prefix_len

theorem extends_merge_up {written : List Net} {n : Net} (h : Stack (n :: written)) :
    Extends written n (merge_up written n) where
  stack := separated_merge_up h
  contains ip := by
    rw [contains_merge_up h ip, or_comm]
    simp only [List.mem_cons, exists_eq_or_imp]
  start _ hk := mem_merge_up h hk

/-- **One round** keeps the stack separated and adds the network's addresses. -/
theorem extends_push {written : List Net} {n : Net} (h : Stack written) (hb : Before written n) :
    Extends written n (push written n) := by
  cases written with
  | nil => exact extends_merge_up (stack_cons h hb (by simp))
  | cons m written =>
    rw [push]
    split
    · rename_i hc
      refine ⟨h, fun ip => ⟨Or.inl, ?_⟩, fun k hk => ⟨k, List.mem_cons_of_mem _ hk, rfl, le_rfl⟩⟩
      rintro (h | h)
      · exact h
      · exact ⟨m, List.mem_cons_self, Net.contains_of_containsNet hc h⟩
    · rename_i hc
      exact extends_merge_up (stack_cons h hb (by simpa using hc))

theorem first_of_net_le {m n : Net} (hm : m.trunc = m) (hn : n.trunc = n) (h : net_le m n = true) :
    m.first < n.first ∨ (m.first = n.first ∧ m.prefix_len ≤ n.prefix_len) := by
  have ha : ∀ k : Net, k.trunc = k → k.addr.toNat = k.first := fun k hk => by
    nth_rewrite 1 [← hk]
    rw [Net.trunc, Net.network_toNat]
  simp only [net_le, Bool.or_eq_true, Bool.and_eq_true, decide_eq_true_eq, BitVec.lt_def,
    ha m hm, ha n hn] at h
  rcases h with h | ⟨h, hp⟩
  · exact .inl h
  · exact .inr ⟨by rw [← ha m hm, ← ha n hn, h], hp⟩

theorem foldl_push_spec {written networks : List Net} (h : Stack written)
    (hb : ∀ n ∈ networks, Before written n)
    (hs : networks.Pairwise fun m n => m.first < n.first ∨
      (m.first = n.first ∧ m.prefix_len ≤ n.prefix_len)) :
    Stack (networks.foldl push written) ∧
      ∀ ip, (∃ k ∈ networks.foldl push written, k.contains ip = true) ↔
        (∃ k ∈ written, k.contains ip = true) ∨ ∃ n ∈ networks, n.contains ip = true := by
  induction networks generalizing written with
  | nil => exact ⟨h, fun ip => by simp⟩
  | cons n networks ih =>
    obtain ⟨hn, hs⟩ := List.pairwise_cons.mp hs
    obtain ⟨h₁, h₂, h₃⟩ := extends_push h (hb n List.mem_cons_self)
    have hb' : ∀ k ∈ networks, Before (push written n) k := by
      intro k hk j hj
      obtain ⟨i, hi, hf, hp⟩ := h₃ j hj
      have : i.first < k.first ∨ (i.first = k.first ∧ i.prefix_len ≤ k.prefix_len) := by
        rcases List.mem_cons.mp hi with rfl | hi
        · exact hn k hk
        · exact hb k (List.mem_cons_of_mem _ hk) i hi
      omega
    obtain ⟨h₄, h₅⟩ := ih h₁ hb' hs
    refine ⟨h₄, fun ip => ?_⟩
    rw [List.foldl_cons, h₅ ip, h₂ ip, or_assoc]
    simp only [List.mem_cons, exists_eq_or_imp]

theorem net_le_trans (a b c : Net) (hab : net_le a b = true) (hbc : net_le b c = true) :
    net_le a c = true := by
  simp only [net_le, Bool.or_eq_true, Bool.and_eq_true, decide_eq_true_eq, BitVec.lt_def,
    ← BitVec.toNat_inj] at *
  omega

theorem net_le_total (a b : Net) : (net_le a b || net_le b a) = true := by
  simp only [net_le, Bool.or_eq_true, Bool.and_eq_true, decide_eq_true_eq, BitVec.lt_def,
    ← BitVec.toNat_inj]
  omega

theorem aggregate_ipv4_spec {networks : List Net} (h : ∀ n ∈ networks, n.trunc = n) :
    Stack ((networks.mergeSort net_le).foldl push []) ∧
      ∀ ip, (∃ k ∈ (networks.mergeSort net_le).foldl push [], k.contains ip = true) ↔
        ∃ n ∈ networks, n.contains ip = true := by
  have hs : (networks.mergeSort net_le).Pairwise fun m n => m.first < n.first ∨
      (m.first = n.first ∧ m.prefix_len ≤ n.prefix_len) := by
    refine (List.pairwise_mergeSort net_le_trans net_le_total networks).imp_of_mem ?_
    intro m n hm hn hle
    exact first_of_net_le (h m (List.mem_mergeSort.mp hm)) (h n (List.mem_mergeSort.mp hn)) hle
  obtain ⟨h₁, h₂⟩ := foldl_push_spec List.Pairwise.nil (fun n _ k hk => by cases hk) hs
  exact ⟨h₁, fun ip => by rw [h₂ ip]; simp⟩

/-- **The merged networks are in increasing order and do not overlap.** -/
theorem aggregate_ipv4_separated {networks : List Net} (h : ∀ n ∈ networks, n.trunc = n) :
    Net.Separated (aggregate_ipv4 networks) :=
  List.pairwise_reverse.mpr (aggregate_ipv4_spec h).1

/-- **The merged networks cover the same addresses.** -/
theorem contains_aggregate_ipv4 {networks : List Net} (h : ∀ n ∈ networks, n.trunc = n)
    (ip : Addr) : (∃ n ∈ aggregate_ipv4 networks, n.contains ip = true) ↔
      ∃ n ∈ networks, n.contains ip = true := by
  rw [← (aggregate_ipv4_spec h).2 ip]
  simp [aggregate_ipv4]

/-! ## Nothing left to merge -/

/-- The loop does not merge `n` with `m` below it. -/
def Unmerged (n m : Net) : Prop :=
  ∀ p, n.supernet = some p → ¬ (m.prefix_len = n.prefix_len ∧ p.containsNet m = true)

/-- A stack whose neighbours cannot be merged. -/
def Settled (written : List Net) : Prop := written.IsChain Unmerged

theorem settled_merge_up {written : List Net} {n : Net} (h : Settled written) :
    Settled (merge_up written n) := by
  induction written generalizing n with
  | nil => exact .singleton n
  | cons m written ih =>
    rw [merge_up]
    cases hp : n.supernet with
    | none => exact .cons_cons (fun p he => by rw [hp] at he; cases he) h
    | some p =>
      dsimp only
      split_ifs with hsib
      · refine .cons_cons (fun p' he => ?_) h
        rw [hp, Option.some.injEq] at he
        subst he
        rintro ⟨hl, hc⟩
        rw [hc, decide_eq_false (not_not.mpr hl)] at hsib
        exact Bool.false_ne_true hsib
      · exact ih h.tail

theorem settled_push {written : List Net} {n : Net} (h : Settled written) :
    Settled (push written n) := by
  cases written with
  | nil => exact settled_merge_up h
  | cons m written =>
    rw [push]
    split_ifs
    · exact h
    · exact settled_merge_up h

theorem settled_foldl_push {written networks : List Net} (h : Settled written) :
    Settled (networks.foldl push written) := by
  induction networks generalizing written with
  | nil => exact h
  | cons n networks ih => exact ih (settled_push h)

/-- Only neighbours could be siblings: there is no room between siblings. -/
theorem not_siblings_of_mem {written : List Net} {n m : Net} (h : Stack (n :: written))
    (hc : Settled (n :: written)) (hm : m ∈ written) : ¬ Net.Siblings m n := by
  intro hsib
  obtain ⟨hn, hw⟩ := List.pairwise_cons.mp h
  obtain ⟨hl, hnext, p, hp, hpm⟩ := hsib.next (hn m hm)
  cases written with
  | nil => cases hm
  | cons k written =>
    rcases List.mem_cons.mp hm with rfl | hm
    · exact (List.isChain_cons_cons.mp hc).1 p hp ⟨hl, hpm⟩
    · have hk := (List.pairwise_cons.mp hw).1 m hm
      have hkn := hn k List.mem_cons_self
      have hle := k.first_le_last
      omega

theorem pairwise_not_siblings {written : List Net} (h : Stack written) (hc : Settled written) :
    written.Pairwise fun n m => ¬ Net.Siblings m n := by
  induction written with
  | nil => exact .nil
  | cons n written ih =>
    exact .cons (fun m hm => not_siblings_of_mem h hc hm)
      (ih (List.pairwise_cons.mp h).2 hc.tail)

/-- **No two networks of the result make up a supernet.** -/
theorem aggregate_ipv4_not_siblings {networks : List Net} (h : ∀ n ∈ networks, n.trunc = n) :
    ∀ m ∈ aggregate_ipv4 networks, ∀ n ∈ aggregate_ipv4 networks, ¬ Net.Siblings m n := by
  have hpair := pairwise_not_siblings (aggregate_ipv4_spec h).1 (settled_foldl_push .nil)
  have hpair' : (aggregate_ipv4 networks).Pairwise fun m n => ¬ Net.Siblings m n :=
    List.pairwise_reverse.mpr hpair
  have : Std.Symm fun m n : Net => ¬ Net.Siblings m n := ⟨fun _ _ hs hs' => hs hs'.symm⟩
  have hall := hpair'.forall_of_forall fun _ _ hs => hs.1 rfl
  exact fun m hm n hn => hall hm hn

/-! ## Truncated networks in order -/

theorem trunc_supernet {n p : Net} (h : n.supernet = some p) : p.trunc = p := by
  unfold Net.supernet at h
  split_ifs at h
  cases h
  exact Net.trunc_trunc _

theorem trunc_merge_up {written : List Net} {n : Net} (h : ∀ k ∈ n :: written, k.trunc = k) :
    ∀ k ∈ merge_up written n, k.trunc = k := by
  induction written generalizing n with
  | nil => exact h
  | cons m written ih =>
    rw [merge_up]
    cases hp : n.supernet with
    | none => exact h
    | some p =>
      dsimp only
      split_ifs
      · exact h
      · refine ih fun k hk => ?_
        rcases List.mem_cons.mp hk with rfl | hk
        · exact trunc_supernet hp
        · exact h k (List.mem_cons_of_mem _ (List.mem_cons_of_mem _ hk))

theorem trunc_push {written : List Net} {n : Net} (h : ∀ k ∈ n :: written, k.trunc = k) :
    ∀ k ∈ push written n, k.trunc = k := by
  cases written with
  | nil => exact trunc_merge_up h
  | cons m written =>
    rw [push]
    split_ifs
    · exact fun k hk => h k (List.mem_cons_of_mem _ hk)
    · exact trunc_merge_up h

theorem trunc_foldl_push {written networks : List Net} (h : ∀ k ∈ written, k.trunc = k)
    (hn : ∀ n ∈ networks, n.trunc = n) : ∀ k ∈ networks.foldl push written, k.trunc = k := by
  induction networks generalizing written with
  | nil => exact h
  | cons n networks ih =>
    obtain ⟨hn, hns⟩ := List.forall_mem_cons.mp hn
    exact ih (trunc_push (List.forall_mem_cons.mpr ⟨hn, h⟩)) hns

theorem trunc_aggregate_ipv4 {networks : List Net} (h : ∀ n ∈ networks, n.trunc = n) :
    ∀ n ∈ aggregate_ipv4 networks, n.trunc = n := fun n hn =>
  trunc_foldl_push (List.forall_mem_nil _) (fun k hk => h k (List.mem_mergeSort.mp hk)) n
    (List.mem_reverse.mp hn)

/-- **The result is sorted.** -/
theorem aggregate_ipv4_sorted {networks : List Net} (h : ∀ n ∈ networks, n.trunc = n) :
    (aggregate_ipv4 networks).Pairwise fun m n => net_le m n = true := by
  refine (aggregate_ipv4_separated h).imp_of_mem fun {m n} hm hn hlt => ?_
  have ha : ∀ k ∈ aggregate_ipv4 networks, k.addr.toNat = k.first := by
    intro k hk
    have hk' := trunc_aggregate_ipv4 h k hk
    nth_rewrite 1 [← hk']
    rw [Net.trunc, Net.network_toNat]
  have hle := m.first_le_last
  have haddr : m.addr < n.addr := by
    rw [BitVec.lt_def, ha m hm, ha n hn]
    omega
  rw [net_le, decide_eq_true haddr, Bool.true_or]

end Gofro.Agent.Geodata
