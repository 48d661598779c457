import Mathlib.Data.List.Nodup
import Mathlib.Tactic

/-!
# A WireGuard interface

The peers of an interface, each with the routes it is allowed; a key occurs once. As `wg` documents
it, setting a peer's routes replaces them and takes equal routes from every other peer.

* `mem_set`, `mem_remove`, `mem_of_mem_take`: the peers after each operation.
* `Apart`: no two peers hold overlapping routes; **`Apart.set`** keeps it when the new routes are
  apart from everyone else's.
* `mem_set_of_free`: routes that nobody else holds are set without changing the other peers.
-/

namespace WireGuard

/-- Peers with their routes. -/
structure Interface (κ ρ : Type) where
  peers : List (κ × List ρ)
  nodup : (peers.map Prod.fst).Nodup

variable {κ ρ : Type}

namespace Interface

def empty : Interface κ ρ := ⟨[], List.nodup_nil⟩

/-- The keys of the peers, in their order. -/
def keys (I : Interface κ ρ) : List κ := I.peers.map Prod.fst

/-- The first `n` peers: what is there when a configuration is only loaded in part. -/
def take (I : Interface κ ρ) (n : ℕ) : Interface κ ρ :=
  ⟨I.peers.take n, I.nodup.sublist ((List.take_sublist _ _).map _)⟩

theorem mem_keys {I : Interface κ ρ} {k : κ} : k ∈ I.keys ↔ ∃ routes, (k, routes) ∈ I.peers := by
  simp [keys]

theorem mem_of_mem_take {I : Interface κ ρ} {n : ℕ} {p : κ × List ρ} (h : p ∈ (I.take n).peers) :
    p ∈ I.peers := List.mem_of_mem_take h

theorem routes_unique {I : Interface κ ρ} {k : κ} {rs rs' : List ρ} (h : (k, rs) ∈ I.peers)
    (h' : (k, rs') ∈ I.peers) : rs = rs' := by
  have he := List.inj_on_of_nodup_map I.nodup h h' rfl
  exact (Prod.mk.inj he).2

theorem keys_take {I : Interface κ ρ} {n : ℕ} {k : κ} (h : k ∈ (I.take n).keys) : k ∈ I.keys := by
  rw [mem_keys] at h ⊢
  obtain ⟨routes, h⟩ := h
  exact ⟨routes, mem_of_mem_take h⟩

variable [DecidableEq κ]

/-- Removing a peer that is not there changes nothing. -/
def remove (k : κ) (I : Interface κ ρ) : Interface κ ρ :=
  ⟨I.peers.filter fun p => p.1 ≠ k, I.nodup.sublist (List.filter_sublist.map _)⟩

@[simp] theorem mem_remove {I : Interface κ ρ} {k : κ} {p : κ × List ρ} :
    p ∈ (I.remove k).peers ↔ p ∈ I.peers ∧ p.1 ≠ k := by
  simp [remove]

theorem not_mem_keys_remove {I : Interface κ ρ} {k : κ} : k ∉ (I.remove k).keys := by
  simp [mem_keys]

theorem keys_remove {I : Interface κ ρ} {j k : κ} (h : j ∈ (I.remove k).keys) : j ∈ I.keys := by
  rw [mem_keys] at h ⊢
  obtain ⟨routes, h⟩ := h
  exact ⟨routes, (mem_remove.mp h).1⟩

variable [DecidableEq ρ]

/-- The routes of one peer after `routes` were given to `k`. -/
def given (k : κ) (routes : List ρ) (p : κ × List ρ) : κ × List ρ :=
  (p.1, if p.1 = k then routes else p.2.filter (· ∉ routes))

@[simp] theorem given_fst (k : κ) (routes : List ρ) (p : κ × List ρ) :
    (given k routes p).1 = p.1 := rfl

/-- Give a peer these routes; a peer that is not there is added. -/
def set (k : κ) (routes : List ρ) (I : Interface κ ρ) : Interface κ ρ where
  peers := I.peers.map (given k routes) ++ if k ∈ I.keys then [] else [(k, routes)]
  nodup := by
    have hmap : (I.peers.map (given k routes)).map Prod.fst = I.keys := by
      rw [List.map_map]
      rfl
    rw [List.map_append, hmap]
    split_ifs with h
    · rw [List.map_nil, List.append_nil]
      exact I.nodup
    · rw [List.map_singleton]
      exact List.nodup_append.mpr ⟨I.nodup, List.nodup_singleton _, by
        rintro a ha b hb rfl
        have hk : a = k := List.mem_singleton.mp hb
        exact h (by rwa [hk] at ha)⟩

/-- **The peers after a change**: the one that was set, and the others without its routes. -/
theorem mem_set {I : Interface κ ρ} {k : κ} {routes : List ρ} {p : κ × List ρ} :
    p ∈ (I.set k routes).peers ↔ p = (k, routes) ∨
      p.1 ≠ k ∧ ∃ rs, (p.1, rs) ∈ I.peers ∧ p.2 = rs.filter (· ∉ routes) := by
  have happ : p ∈ (I.set k routes).peers ↔ (∃ q ∈ I.peers, given k routes q = p) ∨
      k ∉ I.keys ∧ p = (k, routes) := by
    rw [set, List.mem_append, List.mem_map]
    refine or_congr_right ?_
    split_ifs with h
    · simp [h]
    · simp [h]
  rw [happ]
  constructor
  · rintro (⟨q, hq, rfl⟩ | ⟨-, rfl⟩)
    · by_cases hk : q.1 = k
      · left
        rw [given, if_pos hk, hk]
      · right
        exact ⟨hk, q.2, hq, if_neg hk⟩
    · exact .inl rfl
  · rintro (rfl | ⟨hk, rs, hp, hrs⟩)
    · by_cases hk : k ∈ I.keys
      · obtain ⟨rs, hp⟩ := mem_keys.mp hk
        exact .inl ⟨(k, rs), hp, by rw [given, if_pos rfl]⟩
      · exact .inr ⟨hk, rfl⟩
    · refine .inl ⟨(p.1, rs), hp, ?_⟩
      rw [given, if_neg hk, ← hrs]

theorem keys_set {I : Interface κ ρ} {j k : κ} {routes : List ρ} (h : j ∈ (I.set k routes).keys) :
    j = k ∨ j ∈ I.keys := by
  obtain ⟨rs, h⟩ := mem_keys.mp h
  rcases mem_set.mp h with h | ⟨-, rs', h, -⟩
  · exact .inl (Prod.mk.inj h).1
  · exact .inr (mem_keys.mpr ⟨rs', h⟩)

theorem mem_keys_set {I : Interface κ ρ} {j k : κ} {routes : List ρ} :
    j ∈ (I.set k routes).keys ↔ j = k ∨ j ∈ I.keys := by
  refine ⟨keys_set, fun h => ?_⟩
  by_cases hk : j = k
  · exact mem_keys.mpr ⟨routes, mem_set.mpr (.inl (by rw [hk]))⟩
  · obtain ⟨rs, h⟩ := mem_keys.mp (h.resolve_left hk)
    exact mem_keys.mpr ⟨_, mem_set.mpr (.inr ⟨hk, rs, h, rfl⟩)⟩

/-- **Routes that nobody else holds** are set without changing the other peers. -/
theorem mem_set_of_free {I : Interface κ ρ} {k : κ} {routes : List ρ}
    (hfree : ∀ p ∈ I.peers, p.1 ≠ k → ∀ r ∈ routes, r ∉ p.2) {p : κ × List ρ} :
    p ∈ (I.set k routes).peers ↔ p = (k, routes) ∨ p.1 ≠ k ∧ p ∈ I.peers := by
  have hkeep : ∀ rs, p.1 ≠ k → (p.1, rs) ∈ I.peers → rs.filter (· ∉ routes) = rs := by
    intro rs hk hp
    apply List.filter_eq_self.mpr
    intro r hr
    simp only [decide_not, Bool.not_eq_true', decide_eq_false_iff_not]
    exact fun hin => hfree _ hp hk r hin hr
  rw [mem_set]
  refine or_congr_right (and_congr_right fun hk => ?_)
  constructor
  · rintro ⟨rs, hp, hrs⟩
    rw [hkeep rs hk hp] at hrs
    rwa [← hrs] at hp
  · exact fun hp => ⟨p.2, hp, (hkeep p.2 hk hp).symm⟩

end Interface

/-! ## Routes apart -/

section

variable {overlap : ρ → ρ → Prop} {I J : Interface κ ρ}

/-- Routes of different peers do not overlap. -/
def Apart (overlap : ρ → ρ → Prop) (I : Interface κ ρ) : Prop :=
  ∀ p ∈ I.peers, ∀ q ∈ I.peers, p.1 ≠ q.1 → ∀ r ∈ p.2, ∀ r' ∈ q.2, ¬ overlap r r'

theorem Apart.empty : Apart overlap (Interface.empty : Interface κ ρ) := fun _ hp => nomatch hp

theorem Apart.mono (h : Apart overlap I)
    (hJ : ∀ p ∈ J.peers, ∃ q ∈ I.peers, q.1 = p.1 ∧ p.2 ⊆ q.2) : Apart overlap J := by
  intro p hp q hq hne r hr r' hr'
  obtain ⟨p', hp', hp₁, hp₂⟩ := hJ p hp
  obtain ⟨q', hq', hq₁, hq₂⟩ := hJ q hq
  exact h p' hp' q' hq' (by rw [hp₁, hq₁]; exact hne) r (hp₂ hr) r' (hq₂ hr')

theorem Apart.take (h : Apart overlap I) (n : ℕ) : Apart overlap (I.take n) :=
  h.mono fun p hp => ⟨p, Interface.mem_of_mem_take hp, rfl, List.Subset.refl _⟩

variable [DecidableEq κ]

theorem Apart.remove (h : Apart overlap I) (k : κ) : Apart overlap (I.remove k) :=
  h.mono fun p hp => ⟨p, (Interface.mem_remove.mp hp).1, rfl, List.Subset.refl _⟩

variable [DecidableEq ρ]

/-- **Giving a peer routes** that are apart from everyone else's keeps all peers apart. -/
theorem Apart.set (h : Apart overlap I) {k : κ} {routes : List ρ}
    (hnew : ∀ p ∈ I.peers, p.1 ≠ k → ∀ r ∈ routes, ∀ r' ∈ p.2, ¬ overlap r r' ∧ ¬ overlap r' r) :
    Apart overlap (I.set k routes) := by
  have hold : ∀ p ∈ (I.set k routes).peers, p.1 ≠ k → ∃ rs, (p.1, rs) ∈ I.peers ∧ p.2 ⊆ rs := by
    intro p hp hk
    rcases Interface.mem_set.mp hp with rfl | ⟨-, rs, hp, hrs⟩
    · exact absurd rfl hk
    · exact ⟨rs, hp, hrs ▸ List.filter_subset_self _⟩
  have hset : ∀ p ∈ (I.set k routes).peers, p.1 = k → p.2 = routes := by
    intro p hp hk
    rcases Interface.mem_set.mp hp with rfl | ⟨hne, -⟩
    · rfl
    · exact absurd hk hne
  intro p hp q hq hne r hr r' hr'
  by_cases hpk : p.1 = k
  · obtain ⟨rs, hmem, hsub⟩ := hold q hq fun hqk => hne (hpk.trans hqk.symm)
    rw [hset p hp hpk] at hr
    exact (hnew _ hmem (fun hqk => hne (hpk.trans hqk.symm)) r hr r' (hsub hr')).1
  · obtain ⟨rs, hmem, hsub⟩ := hold p hp hpk
    by_cases hqk : q.1 = k
    · rw [hset q hq hqk] at hr'
      exact (hnew _ hmem hpk r' hr' r (hsub hr)).2
    · obtain ⟨rs', hmem', hsub'⟩ := hold q hq hqk
      exact h _ hmem _ hmem' hne r (hsub hr) r' (hsub' hr')

end

end WireGuard
