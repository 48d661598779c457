import Mathlib.Data.Finset.Card
import Mathlib.Tactic

/-!
# Traffic statistics

`stats.rs`: a sample of the interface's byte counters adds a point to the history, at most one for
each second. A second sample within a second moves the baseline of the next point and leaves the
point as it is.

* `run_history`: the history after a run, one point for each second.
* `accounted_run`: what the history accounts for, as a sum over neighbouring samples.
* `total_insert`: what one more sample changes in such a sum.
* **`sampling_loses`**: exactly when one more sample within a second loses no traffic.
-/

namespace Gofro.Agent

/-- The history goes back a minute and a half. -/
def HISTORY_LIMIT : ℕ := 90

structure LiveStats where
  rx_bps : ℕ
  tx_bps : ℕ
deriving DecidableEq

structure HistoryPoint where
  timestamp : ℕ
  rx_bps : ℕ
  tx_bps : ℕ
deriving DecidableEq

/-- The counters at some second. -/
structure Sample where
  timestamp : ℕ
  rx : ℕ
  tx : ℕ
deriving DecidableEq

/-- The sample before, and the history. -/
structure StatsTracker where
  previous : Option Sample
  history : List HistoryPoint
deriving DecidableEq

/-- `rx.saturating_sub(old_rx).saturating_mul(8)` -/
def bits (counter old : ℕ) : ℕ := min ((counter - old) * 8) (2 ^ 64 - 1)

namespace StatsTracker

/-- `StatsTracker::default` -/
def empty : StatsTracker := ⟨none, []⟩

/-- The rates of a sample. -/
def rates (tracker : StatsTracker) (s : Sample) : LiveStats :=
  match tracker.previous with
  | none => ⟨0, 0⟩
  | some old =>
    let elapsed := s.timestamp - old.timestamp
    if elapsed = 0 then
      match tracker.history.getLast? with
      | none => ⟨0, 0⟩
      | some point => ⟨point.rx_bps, point.tx_bps⟩
    else ⟨bits s.rx old.rx / elapsed, bits s.tx old.tx / elapsed⟩

/-- The history is cut at its limit. -/
def trim_history (history : List HistoryPoint) : List HistoryPoint :=
  if HISTORY_LIMIT < history.length then history.drop 1 else history

/-- A sample adds a point to the history, but for a second sample in the same second. -/
def sample (tracker : StatsTracker) (s : Sample) :
    (LiveStats × List HistoryPoint) × StatsTracker :=
  let stats := tracker.rates s
  let history := if tracker.history.getLast?.any fun last => last.timestamp = s.timestamp
    then tracker.history.dropLast else tracker.history
  let history := trim_history (history ++ [⟨s.timestamp, stats.rx_bps, stats.tx_bps⟩])
  ((stats, history), ⟨some s, history⟩)

/-- Samples one after the other. -/
def run (tracker : StatsTracker) (samples : List Sample) : StatsTracker :=
  samples.foldl (fun tracker s => (tracker.sample s).2) tracker

end StatsTracker

/-! ## Traffic -/

/-- Received and sent bytes are counted alike. -/
inductive Direction
  | rx
  | tx
deriving DecidableEq

/-- What a sample says of a direction. -/
def Direction.counter : Direction → Sample → ℕ
  | .rx, s => s.rx
  | .tx, s => s.tx

/-- What a point says of a direction. -/
def Direction.rate : Direction → HistoryPoint → ℕ
  | .rx, point => point.rx_bps
  | .tx, point => point.tx_bps

/-- What the history accounts for up to a second: every rate over the seconds since the point
before. -/
def accounted (d : Direction) (until_second : ℕ) : List HistoryPoint → ℕ
  | p :: q :: points =>
    (if q.timestamp ≤ until_second then d.rate q * (q.timestamp - p.timestamp) else 0) +
      accounted d until_second (q :: points)
  | _ => 0

/-- A sum over the neighbouring samples of different seconds, of a function of the traffic and the
time between them. -/
def total (f : ℕ → ℕ → ℕ) (d : Direction) (until_second : ℕ) : List Sample → ℕ
  | p :: s :: samples =>
    (if p.timestamp < s.timestamp ∧ s.timestamp ≤ until_second then
      f (bits (d.counter s) (d.counter p)) (s.timestamp - p.timestamp) else 0) +
      total f d until_second (s :: samples)
  | _ => 0

/-- What the integer divisions lose. -/
def remainders (d : Direction) (until_second : ℕ) (samples : List Sample) : ℕ :=
  total (fun traffic elapsed => traffic % elapsed) d until_second samples

/-- Time and counters do not go back. -/
structure Sample.Le (s s' : Sample) : Prop where
  timestamp : s.timestamp ≤ s'.timestamp
  rx : s.rx ≤ s'.rx
  tx : s.tx ≤ s'.tx

instance : DecidableRel Sample.Le := fun s s' =>
  decidable_of_iff (s.timestamp ≤ s'.timestamp ∧ s.rx ≤ s'.rx ∧ s.tx ≤ s'.tx)
    ⟨fun h => ⟨h.1, h.2.1, h.2.2⟩, fun h => ⟨h.timestamp, h.rx, h.tx⟩⟩

/-! ## The history of a run -/

namespace StatsTracker

variable {tracker : StatsTracker} {s : Sample} {samples : List Sample}

/-- A tracker after samples of which `last` was the last one. -/
structure Tracks (tracker : StatsTracker) (last : Sample) : Prop where
  previous : tracker.previous = some last
  newest : ∃ point, tracker.history.getLast? = some point ∧ point.timestamp = last.timestamp
  increasing : tracker.history.Pairwise fun p q => p.timestamp < q.timestamp
  length : tracker.history.length ≤ HISTORY_LIMIT

theorem trim_history_length {history : List HistoryPoint}
    (h : history.length ≤ HISTORY_LIMIT + 1) : (trim_history history).length ≤ HISTORY_LIMIT := by
  unfold trim_history
  split_ifs with hlt
  · rw [List.length_drop]
    omega
  · omega

theorem trim_history_sublist (history : List HistoryPoint) :
    (trim_history history).Sublist history := by
  unfold trim_history
  split_ifs
  · exact List.drop_sublist 1 history
  · exact List.Sublist.refl history

theorem sample_length (h : tracker.history.length ≤ HISTORY_LIMIT) (s : Sample) :
    (tracker.sample s).2.history.length ≤ HISTORY_LIMIT := by
  refine trim_history_length ?_
  rw [List.length_append, List.length_singleton]
  split_ifs
  · rw [List.length_dropLast]
    omega
  · omega

/-- **A second sample within a second** moves the baseline only. -/
theorem sample_same {last : Sample} (h : tracker.Tracks last) (hs : s.timestamp = last.timestamp) :
    (tracker.sample s).2 = ⟨some s, tracker.history⟩ := by
  obtain ⟨point, hp, ht⟩ := h.newest
  have hrates : tracker.rates s = ⟨point.rx_bps, point.tx_bps⟩ := by
    simp only [rates, h.previous, hs, Nat.sub_self, if_true, hp]
  have hback : tracker.history.dropLast ++ [point] = tracker.history :=
    List.dropLast_append_getLast? point hp
  have hpoint : (⟨s.timestamp, point.rx_bps, point.tx_bps⟩ : HistoryPoint) = point := by
    rw [hs, ← ht]
  have hsame : (tracker.history.getLast?.any fun last => last.timestamp = s.timestamp) = true := by
    rw [hp]
    simp [ht, hs]
  simp only [sample, hrates, hsame, if_true, hpoint, hback, trim_history]
  rw [if_neg (Nat.not_lt.mpr h.length)]

/-- **The first sample of a second** adds a point. -/
theorem sample_next {last : Sample} (h : tracker.Tracks last)
    (hs : last.timestamp < s.timestamp) :
    (tracker.sample s).2 = ⟨some s, trim_history (tracker.history ++ [⟨s.timestamp,
      bits s.rx last.rx / (s.timestamp - last.timestamp),
      bits s.tx last.tx / (s.timestamp - last.timestamp)⟩])⟩ := by
  obtain ⟨point, hp, ht⟩ := h.newest
  have hrates : tracker.rates s = ⟨bits s.rx last.rx / (s.timestamp - last.timestamp),
      bits s.tx last.tx / (s.timestamp - last.timestamp)⟩ := by
    simp only [rates, h.previous]
    rw [if_neg (by omega)]
  have hother : (tracker.history.getLast?.any fun last => last.timestamp = s.timestamp) = false := by
    rw [hp]
    simp only [Option.any_some, decide_eq_false_iff_not]
    omega
  simp only [sample, hrates, hother, Bool.false_eq_true, if_false]

theorem tracks_first (s : Sample) : (empty.sample s).2.Tracks s where
  previous := rfl
  newest := ⟨⟨s.timestamp, 0, 0⟩, rfl, rfl⟩
  increasing := List.pairwise_singleton _ _
  length := sample_length (Nat.zero_le _) s

/-- **Every sample keeps the history in order**, as long as time does not go back. -/
theorem tracks_sample {last : Sample} (h : tracker.Tracks last)
    (hs : last.timestamp ≤ s.timestamp) : (tracker.sample s).2.Tracks s := by
  obtain ⟨point, hp, ht⟩ := h.newest
  rcases Nat.eq_or_lt_of_le hs with he | hlt
  · rw [sample_same h he.symm]
    exact ⟨rfl, ⟨point, hp, ht.trans he⟩, h.increasing, h.length⟩
  · have hlen := sample_length h.length s
    rw [sample_next h hlt] at hlen ⊢
    refine ⟨rfl, ?_, ?_, hlen⟩
    · refine ⟨⟨s.timestamp, bits s.rx last.rx / (s.timestamp - last.timestamp),
        bits s.tx last.tx / (s.timestamp - last.timestamp)⟩, ?_, rfl⟩
      unfold trim_history
      split_ifs with hcut
      · rw [List.drop_append_of_le_length (by
          rw [List.length_append, List.length_singleton] at hcut
          have hpos : 1 ≤ HISTORY_LIMIT := by decide
          omega), List.getLast?_concat]
      · rw [List.getLast?_concat]
    · refine List.Pairwise.sublist (trim_history_sublist _) ?_
      rw [List.pairwise_append]
      refine ⟨h.increasing, List.pairwise_singleton _ _, fun p hpm q hq => ?_⟩
      rw [List.mem_singleton.mp hq]
      -- every point is at most as late as the newest one
      have hle : p.timestamp ≤ point.timestamp := by
        have hsplit := List.dropLast_append_getLast? point hp
        rw [← hsplit] at hpm
        rcases List.mem_append.mp hpm with hm | hm
        · have hinc := h.increasing
          rw [← hsplit, List.pairwise_append] at hinc
          exact (hinc.2.2 p hm point (List.mem_singleton_self _)).le
        · rw [List.mem_singleton.mp hm]
      show p.timestamp < s.timestamp
      omega

theorem tracks_run {last : Sample} (h : tracker.Tracks last)
    (hs : (last :: samples).Pairwise fun s s' => s.timestamp ≤ s'.timestamp) :
    ∃ last', (tracker.run samples).Tracks last' := by
  induction samples generalizing tracker last with
  | nil => exact ⟨last, h⟩
  | cons s samples ih =>
    rw [List.pairwise_cons] at hs
    exact ih (tracks_sample h (hs.1 s List.mem_cons_self)) hs.2

/-- **The history of every run** is within its limit, and in order unless time goes back. -/
theorem run_history (samples : List Sample) :
    (empty.run samples).history.length ≤ HISTORY_LIMIT ∧
      ((samples.Pairwise fun s s' => s.timestamp ≤ s'.timestamp) →
        (empty.run samples).history.Pairwise fun p q => p.timestamp < q.timestamp) := by
  constructor
  · have hrun : ∀ tracker : StatsTracker, tracker.history.length ≤ HISTORY_LIMIT →
        (tracker.run samples).history.length ≤ HISTORY_LIMIT := by
      induction samples with
      | nil => exact fun _ h => h
      | cons s samples ih => exact fun tracker h => ih _ (sample_length h s)
    exact hrun empty (Nat.zero_le _)
  · intro hs
    cases samples with
    | nil => exact .nil
    | cons s samples =>
      obtain ⟨last, h⟩ := tracks_run (tracks_first s) hs
      exact h.increasing

end StatsTracker

/-! ## What the history accounts for -/

section

variable {d : Direction} {t : ℕ} {samples : List Sample} {f : ℕ → ℕ → ℕ}

theorem accounted_concat {history : List HistoryPoint} {last point : HistoryPoint}
    (h : history.getLast? = some last) : accounted d t (history ++ [point]) =
      accounted d t history +
        if point.timestamp ≤ t then
          d.rate point * (point.timestamp - last.timestamp) else 0 := by
  induction history with
  | nil => cases h
  | cons p history ih =>
    cases history with
    | nil =>
      cases h
      simp [accounted]
    | cons q history =>
      rw [List.cons_append, List.cons_append, accounted, ← List.cons_append, ih h, accounted,
        Nat.add_assoc]

/-- The number of seconds that begin after the first sample. -/
def later_seconds : List Sample → ℕ
  | p :: s :: samples =>
    (if p.timestamp < s.timestamp then 1 else 0) + later_seconds (s :: samples)
  | _ => 0

theorem card_timestamps {p : Sample} (hs : (p :: samples).Pairwise Sample.Le) :
    (((p :: samples).map Sample.timestamp).toFinset).card = later_seconds (p :: samples) + 1 := by
  induction samples generalizing p with
  | nil => rfl
  | cons s samples ih =>
    rw [List.pairwise_cons] at hs
    have hle := (hs.1 s List.mem_cons_self).timestamp
    have htail := ih hs.2
    rw [List.map_cons, List.toFinset_cons, later_seconds]
    split_ifs with hlt
    · rw [Finset.card_insert_of_notMem, htail]
      · omega
      · -- all the later samples are at later seconds
        rw [List.mem_toFinset]
        intro hm
        obtain ⟨s', hs', he⟩ := List.mem_map.mp hm
        have hge : s.timestamp ≤ s'.timestamp := by
          rcases List.mem_cons.mp hs' with rfl | hs'
          · exact le_rfl
          · exact ((List.pairwise_cons.mp hs.2).1 s' hs').timestamp
        omega
    · rw [Finset.insert_eq_of_mem, htail, Nat.zero_add]
      rw [List.mem_toFinset, show p.timestamp = s.timestamp by omega]
      exact List.mem_map_of_mem List.mem_cons_self

theorem accounted_run_from {tracker : StatsTracker} {last : Sample}
    (h : tracker.Tracks last) (hs : (last :: samples).Pairwise Sample.Le)
    (hlimit : tracker.history.length + later_seconds (last :: samples) ≤ HISTORY_LIMIT) :
    accounted d t (tracker.run samples).history =
      accounted d t tracker.history +
        total (fun traffic elapsed => traffic / elapsed * elapsed) d t
          (last :: samples) := by
  induction samples generalizing tracker last with
  | nil => rfl
  | cons s samples ih =>
    obtain ⟨point, hp, ht⟩ := h.newest
    rw [List.pairwise_cons] at hs
    have hle := (hs.1 s List.mem_cons_self).timestamp
    have hnext := StatsTracker.tracks_sample h hle
    rw [later_seconds] at hlimit
    show accounted d t ((tracker.sample s).2.run samples).history = _
    rcases Nat.eq_or_lt_of_le hle with he | hlt
    · have hsame := StatsTracker.sample_same h he.symm
      rw [if_neg (by omega)] at hlimit
      rw [ih hnext hs.2 (by rw [hsame]; simpa using hlimit), hsame, total]
      rw [if_neg (by omega), Nat.zero_add]
    · have hnew := StatsTracker.sample_next h hlt
      rw [if_pos hlt] at hlimit
      have hroom : StatsTracker.trim_history (tracker.history ++ [⟨s.timestamp,
          bits s.rx last.rx / (s.timestamp - last.timestamp),
          bits s.tx last.tx / (s.timestamp - last.timestamp)⟩]) =
          tracker.history ++ [⟨s.timestamp,
          bits s.rx last.rx / (s.timestamp - last.timestamp),
          bits s.tx last.tx / (s.timestamp - last.timestamp)⟩] := by
        unfold StatsTracker.trim_history
        rw [if_neg]
        rw [List.length_append, List.length_singleton]
        omega
      rw [hroom] at hnew
      rw [ih hnext hs.2 (by rw [hnew, List.length_append, List.length_singleton]; omega), hnew,
        accounted_concat hp, total, Nat.add_assoc]
      congr 2
      simp only [hlt, true_and, ht]
      cases d <;> rfl

/-- **What a run accounts for**: the traffic between neighbouring seconds, without remainders. -/
theorem accounted_run (hs : samples.Pairwise Sample.Le)
    (hlimit : ((samples.map Sample.timestamp).toFinset).card ≤ HISTORY_LIMIT) :
    accounted d t (StatsTracker.empty.run samples).history =
      total (fun traffic elapsed => traffic / elapsed * elapsed) d t samples := by
  cases samples with
  | nil => rfl
  | cons s samples =>
    rw [card_timestamps hs] at hlimit
    have hrun := accounted_run_from (d := d) (t := t)
      (StatsTracker.tracks_first s) hs (by
        rw [Nat.add_comm]
        exact hlimit)
    exact hrun.trans (Nat.zero_add _)

theorem total_add (g : ℕ → ℕ → ℕ) : total f d t samples +
    total g d t samples =
      total (fun traffic elapsed => f traffic elapsed + g traffic elapsed) d t
        samples := by
  induction samples with
  | nil => rfl
  | cons p samples ih =>
    cases samples with
    | nil => rfl
    | cons s samples =>
      simp only [total]
      rw [← ih]
      split_ifs <;> omega

theorem total_append (p q : Sample) (xs ys : List Sample) :
    total f d t (xs ++ p :: q :: ys) = total f d t (xs ++ [p]) +
      total f d t [p, q] + total f d t (q :: ys) := by
  induction xs with
  | nil => simp [total]
  | cons x xs ih =>
    cases xs with
    | nil =>
      simp only [List.cons_append, List.nil_append, total] at ih ⊢
      omega
    | cons x' xs =>
      simp only [List.cons_append, total] at ih ⊢
      rw [ih]
      omega

theorem total_same {p s : Sample} (h : p.timestamp = s.timestamp) :
    total f d t [p, s] = 0 := by
  simp [total, h]

theorem total_pair {p s : Sample} (h : p.timestamp < s.timestamp)
    (hu : s.timestamp ≤ t) : total f d t [p, s] =
      f (bits (d.counter s) (d.counter p)) (s.timestamp - p.timestamp) := by
  simp [total, h, hu]

/-! ## One more sample -/

theorem bits_eq_iff {a b c : ℕ} (hab : a ≤ b) (hbc : b ≤ c) :
    bits c b = bits c a ↔ b = a ∨ 2 ^ 61 ≤ c - b := by
  unfold bits
  omega

theorem bits_eq_iff' {a b c : ℕ} (hab : a ≤ b) (hbc : b ≤ c) :
    bits b a = bits c a ↔ b = c ∨ 2 ^ 61 ≤ b - a := by
  unfold bits
  omega

end

/-- The inserted sample `x` repeats the counters of its neighbour within the second, as far as they
matter: those of the sample before it when the next second follows, and those of the sample behind
it when it comes first in a second. -/
def Repeats (xs : List Sample) (x : Sample) (ys : List Sample) : Prop :=
  ∀ p ∈ xs.getLast?, ∀ q ∈ ys.head?, p.timestamp < q.timestamp →
    (∃ s ∈ ys, x.timestamp < s.timestamp) → ∀ d : Direction,
      (x.timestamp = p.timestamp →
        d.counter x = d.counter p ∨ 2 ^ 61 ≤ d.counter q - d.counter x) ∧
      (x.timestamp = q.timestamp →
        d.counter x = d.counter q ∨ 2 ^ 61 ≤ d.counter x - d.counter p)

section

variable {d : Direction} {t : ℕ} {xs ys : List Sample} {x p q : Sample}
  {f : ℕ → ℕ → ℕ}

theorem Sample.Le.counter {s s' : Sample} (h : s.Le s') (d : Direction) :
    d.counter s ≤ d.counter s' := by
  cases d
  · exact h.rx
  · exact h.tx

/-- **One more sample between two others** replaces one difference by two. -/
theorem total_insert (xs ys : List Sample) (p x q : Sample) :
    total f d t (xs ++ p :: x :: q :: ys) + total f d t [p, q] =
      total f d t (xs ++ p :: q :: ys) + total f d t [p, x] +
        total f d t [x, q] := by
  have hx : total f d t (x :: q :: ys) =
      total f d t [x, q] + total f d t (q :: ys) := by
    simp [total]
  rw [total_append p x, total_append p q, hx]
  omega

theorem total_insert_first (ys : List Sample) (h : x.timestamp = q.timestamp) :
    total f d t (x :: q :: ys) = total f d t (q :: ys) := by
  rw [total, if_neg (by omega), Nat.zero_add]

theorem timestamp_of_second (hs : (xs ++ p :: x :: q :: ys).Pairwise Sample.Le)
    (hx : ∃ s ∈ xs ++ p :: q :: ys, s.timestamp = x.timestamp) :
    x.timestamp = p.timestamp ∨ x.timestamp = q.timestamp := by
  obtain ⟨hxs, htail, hcross⟩ := List.pairwise_append.mp hs
  obtain ⟨hp, htail⟩ := List.pairwise_cons.mp htail
  obtain ⟨hxq, htail⟩ := List.pairwise_cons.mp htail
  have hpx := (hp x List.mem_cons_self).timestamp
  have hle := (hxq q List.mem_cons_self).timestamp
  obtain ⟨s, hm, he⟩ := hx
  simp only [List.mem_append, List.mem_cons] at hm
  rcases hm with hm | rfl | rfl | hm
  · have := (hcross s hm p List.mem_cons_self).timestamp
    omega
  · exact .inl he.symm
  · exact .inr he.symm
  · have := ((List.pairwise_cons.mp htail).1 s hm).timestamp
    omega

/-- **A repeated sample changes no sum**, up to any later second. -/
theorem total_repeats (hs : (xs ++ x :: ys).Pairwise Sample.Le)
    (hx : ∃ s ∈ xs ++ ys, s.timestamp = x.timestamp) (h : Repeats xs x ys)
    (hlater : ∃ s ∈ ys, x.timestamp < s.timestamp) :
    total f d t (xs ++ x :: ys) = total f d t (xs ++ ys) := by
  cases ys with
  | nil => simp at hlater
  | cons q ys =>
    rcases List.eq_nil_or_concat xs with rfl | ⟨xs, p, rfl⟩
    · refine total_insert_first ys ?_
      obtain ⟨s, hm, he⟩ := hx
      obtain ⟨hxq, htail⟩ := List.pairwise_cons.mp hs
      have hle := (hxq q List.mem_cons_self).timestamp
      rcases List.mem_cons.mp hm with rfl | hm
      · exact he.symm
      · have := ((List.pairwise_cons.mp htail).1 s hm).timestamp
        omega
    · rw [List.concat_eq_append, List.append_assoc] at hs hx
      rw [List.concat_eq_append] at h
      rw [List.concat_eq_append, List.append_assoc, List.append_assoc]
      have hsplit := total_insert (f := f) (d := d) (t := t) xs ys p x q
      have hle : p.Le x ∧ x.Le q := by
        obtain ⟨hp, htail⟩ := List.pairwise_cons.mp (List.pairwise_append.mp hs).2.1
        exact ⟨hp x List.mem_cons_self, (List.pairwise_cons.mp htail).1 q List.mem_cons_self⟩
      have hpx := hle.1.timestamp
      have hxq := hle.2.timestamp
      suffices hpair : total f d t [p, x] + total f d t [x, q] =
          total f d t [p, q] by
        simp only [List.singleton_append]
        omega
      rcases Nat.eq_or_lt_of_le (hpx.trans hxq) with hpq | hpq
      · rw [total_same (show p.timestamp = x.timestamp by omega),
          total_same (show x.timestamp = q.timestamp by omega), total_same hpq]
      · have hrep := h p (by simp) q (by simp) hpq hlater d
        rcases timestamp_of_second hs hx with ht | ht
        · rw [total_same ht.symm, Nat.zero_add]
          have hbits := (bits_eq_iff (hle.1.counter d) (hle.2.counter d)).mpr (hrep.1 ht)
          simp only [total, ht, hbits]
        · rw [total_same ht, Nat.add_zero]
          have hbits := (bits_eq_iff' (hle.1.counter d) (hle.2.counter d)).mpr (hrep.2 ht)
          simp only [total, ht, hbits]

theorem repeats_of_total (hs : (xs ++ x :: ys).Pairwise Sample.Le)
    (h : ∀ s ∈ ys, x.timestamp < s.timestamp → ∀ d,
      total (fun traffic _ => traffic) d s.timestamp (xs ++ x :: ys) =
        total (fun traffic _ => traffic) d s.timestamp (xs ++ ys)) : Repeats xs x ys := by
  intro p hp q hq hpq hlater d
  obtain ⟨xs, rfl⟩ := List.getLast?_eq_some_iff.mp hp
  obtain ⟨ys, rfl⟩ := List.head?_eq_some_iff.mp hq
  rw [List.append_assoc, List.singleton_append] at hs
  simp only [List.append_assoc, List.singleton_append] at h
  have hle : p.Le x ∧ x.Le q := by
    obtain ⟨hp, htail⟩ := List.pairwise_cons.mp (List.pairwise_append.mp hs).2.1
    exact ⟨hp x List.mem_cons_self, (List.pairwise_cons.mp htail).1 q List.mem_cons_self⟩
  have hpair : ∀ s ∈ q :: ys, x.timestamp < s.timestamp →
      total (fun traffic _ => traffic) d s.timestamp [p, x] +
        total (fun traffic _ => traffic) d s.timestamp [x, q] =
          total (fun traffic _ => traffic) d s.timestamp [p, q] := by
    intro s hm hlt
    have hsplit := total_insert (f := fun traffic _ => traffic) (d := d)
      (t := s.timestamp) xs ys p x q
    have heq := h s hm hlt d
    omega
  constructor
  · intro ht
    have he := hpair q List.mem_cons_self (by omega)
    rw [total_same ht.symm, Nat.zero_add, total_pair (by omega) le_rfl, total_pair hpq le_rfl] at he
    exact (bits_eq_iff (hle.1.counter d) (hle.2.counter d)).mp he
  · intro ht
    obtain ⟨s, hm, hlt⟩ := hlater
    have he := hpair s hm hlt
    rw [total_same ht, Nat.add_zero, total_pair (by omega) hlt.le, total_pair hpq (by omega)] at he
    exact (bits_eq_iff' (hle.1.counter d) (hle.2.counter d)).mp he

end

/-- **One more sample within a second** leaves the traffic accounted for up to every later second as
it is, but for the remainders of the divisions, exactly when it repeats its neighbour in the second;
the history of every run is within its limit and in order. -/
theorem sampling_loses {xs ys : List Sample} {x : Sample}
    (hs : (xs ++ x :: ys).Pairwise Sample.Le)
    (hx : ∃ s ∈ xs ++ ys, s.timestamp = x.timestamp)
    (hlimit : (((xs ++ ys).map Sample.timestamp).toFinset).card ≤ HISTORY_LIMIT) :
    ((∀ s ∈ ys, x.timestamp < s.timestamp → ∀ d : Direction,
        accounted d s.timestamp (StatsTracker.empty.run (xs ++ x :: ys)).history +
            remainders d s.timestamp (xs ++ x :: ys) =
          accounted d s.timestamp (StatsTracker.empty.run (xs ++ ys)).history +
            remainders d s.timestamp (xs ++ ys)) ↔ Repeats xs x ys) ∧
    (Repeats xs x ys → ∀ s ∈ ys, x.timestamp < s.timestamp → ∀ d : Direction,
      accounted d s.timestamp (StatsTracker.empty.run (xs ++ x :: ys)).history =
        accounted d s.timestamp (StatsTracker.empty.run (xs ++ ys)).history) ∧
    ∀ samples : List Sample,
      (StatsTracker.empty.run samples).history.length ≤ HISTORY_LIMIT ∧
        ((samples.Pairwise fun s s' => s.timestamp ≤ s'.timestamp) →
          (StatsTracker.empty.run samples).history.Pairwise
            fun p q => p.timestamp < q.timestamp) := by
  have hs' : (xs ++ ys).Pairwise Sample.Le :=
    hs.sublist ((List.sublist_cons_self x ys).append_left xs)
  have hlimit' : (((xs ++ x :: ys).map Sample.timestamp).toFinset).card ≤ HISTORY_LIMIT := by
    refine le_trans (Finset.card_le_card ?_) hlimit
    intro t ht
    simp only [List.mem_toFinset, List.mem_map, List.mem_append, List.mem_cons] at ht ⊢
    obtain ⟨s, hm | rfl | hm, rfl⟩ := ht
    · exact ⟨s, .inl hm, rfl⟩
    · simpa using hx
    · exact ⟨s, .inr hm, rfl⟩
  have hexact : ∀ (samples : List Sample) (d : Direction) (t : ℕ), samples.Pairwise Sample.Le →
      ((samples.map Sample.timestamp).toFinset).card ≤ HISTORY_LIMIT →
      accounted d t (StatsTracker.empty.run samples).history + remainders d t samples =
        total (fun traffic _ => traffic) d t samples := by
    intro samples d t hsorted hcard
    rw [accounted_run hsorted hcard, remainders, total_add]
    simp only [Nat.div_add_mod']
  refine ⟨⟨fun h => repeats_of_total hs fun s hm hlt d => ?_, fun h s hm hlt d => ?_⟩,
    fun h s hm hlt d => ?_, StatsTracker.run_history⟩
  · rw [← hexact _ d _ hs hlimit', ← hexact _ d _ hs' hlimit]
    exact h s hm hlt d
  · rw [hexact _ d _ hs hlimit', hexact _ d _ hs' hlimit]
    exact total_repeats hs hx h ⟨s, hm, hlt⟩
  · rw [accounted_run hs hlimit', accounted_run hs' hlimit]
    exact total_repeats hs hx h ⟨s, hm, hlt⟩

/-! ### Two clients of the panel -/

/-- `sampling_loses` for a client that repeats the counters of another one. -/
theorem sampling_loses_sample :
    accounted .rx 2 (StatsTracker.empty.run
        ([⟨0, 0, 0⟩, ⟨1, 100, 0⟩] ++ ⟨1, 100, 0⟩ :: [⟨2, 200, 0⟩])).history =
      accounted .rx 2 (StatsTracker.empty.run
        ([⟨0, 0, 0⟩, ⟨1, 100, 0⟩] ++ [⟨2, 200, 0⟩])).history := by
  have hrep : Repeats [⟨0, 0, 0⟩, ⟨1, 100, 0⟩] ⟨1, 100, 0⟩ [⟨2, 200, 0⟩] := by
    intro p hp q hq _ _ d
    obtain rfl : ⟨1, 100, 0⟩ = p := by simpa using hp
    obtain rfl : ⟨2, 200, 0⟩ = q := by simpa using hq
    exact ⟨fun _ => .inl rfl, fun h => absurd h (by decide)⟩
  exact (sampling_loses (by decide) ⟨⟨1, 100, 0⟩, by decide, rfl⟩ (by decide)).2.1 hrep
    ⟨2, 200, 0⟩ (by decide) (by decide) .rx

/-- **A sample between two others loses their traffic**: of 200 bytes in two seconds, 50 are received
between two samples of the same second, and the history accounts for 1200 bits. -/
theorem second_client_loses :
    accounted .rx 2 (StatsTracker.empty.run [⟨0, 0, 0⟩, ⟨1, 100, 0⟩, ⟨2, 200, 0⟩]).history = 1600 ∧
      accounted .rx 2
        (StatsTracker.empty.run [⟨0, 0, 0⟩, ⟨1, 100, 0⟩, ⟨1, 150, 0⟩, ⟨2, 200, 0⟩]).history = 1200 ∧
      remainders .rx 2 [⟨0, 0, 0⟩, ⟨1, 100, 0⟩, ⟨2, 200, 0⟩] = 0 ∧
      remainders .rx 2 [⟨0, 0, 0⟩, ⟨1, 100, 0⟩, ⟨1, 150, 0⟩, ⟨2, 200, 0⟩] = 0 := by
  decide +kernel

end Gofro.Agent
