import GofroRouter.Server.Spec

/-!
# Revocation lasts

A key that is neither live nor saved stays away, whatever the server runs and however it is
interrupted, as long as nobody adds it again: no rollback restores more than what was live when
its operation began.

* `mem_warp_changes`: the changes of a WARP authorization are made to live owners.
* `Away.shift`, `Away.step`: what one operation and one event keep.
* **`revoke_lasts`**: a revoked friend stays away.
-/

namespace Gofro.Server

open Fallible
open Platform (pubkey)
open Gofro.Agent (bail_if bail_if_eq_ok bind_eq_ok mapM_eq_ok)
open WireGuard (Interface.keys_remove)

/-- The key is neither live nor saved. -/
structure Away (public_key : String) (s : Vps) : Prop where
  live : public_key ∉ s.live.keys
  saved : public_key ∉ s.saved.keys

theorem exists_of_mem_mapM {α β : Type} {f : α → Except String β} {as : List α} {bs : List β}
    (h : as.mapM f = .ok bs) {b : β} (hb : b ∈ bs) : ∃ a ∈ as, f a = .ok b := by
  have hall := mapM_eq_ok.mp h
  clear h
  induction hall with
  | nil => cases hb
  | cons hf _ ih =>
    rcases List.mem_cons.mp hb with rfl | hb
    · exact ⟨_, List.mem_cons_self, hf⟩
    · obtain ⟨a, ha, hf⟩ := ih hb
      exact ⟨a, List.mem_cons_of_mem _ ha, hf⟩

theorem mem_warp_changes {live : Interface} {store : FriendStore} {changes : List Change}
    (h : warp_changes live store = .ok changes) {change : Change} (hc : change ∈ changes) :
    ∃ p ∈ live.peers, p.1 ∈ store.owners ∧ ∃ routes,
      warp_route live p.1 (fields p.2) = .ok routes ∧ change = .set p.1 routes := by
  simp only [warp_changes, bind_eq_ok] at h
  obtain ⟨changes', hall, _, -, h⟩ := h
  cases h
  obtain ⟨p, hp, hf⟩ := exists_of_mem_mapM hall hc
  rw [List.mem_filter, decide_eq_true_eq] at hp
  simp only [bind_eq_ok] at hf
  obtain ⟨routes, hr, he⟩ := hf
  cases he
  exact ⟨p, hp.1, hp.2, routes, hr, rfl⟩

section

variable {public_key : String} {changes : List Change} {live : Interface}

/-- A key that no change adds. -/
def Unnamed (public_key : String) (changes : List Change) : Prop :=
  ∀ k routes, Change.set k routes ∈ changes → k ≠ public_key

theorem Unnamed.applied (h : Unnamed public_key changes) (hl : public_key ∉ live.keys) :
    public_key ∉ (applied changes live).keys := by
  induction changes generalizing live with
  | nil => exact hl
  | cons change changes ih =>
    refine ih (fun k routes hk => h k routes (List.mem_cons_of_mem _ hk)) ?_
    cases change with
    | set k routes =>
      intro hk
      rcases WireGuard.Interface.keys_set hk with he | he
      · exact h k routes List.mem_cons_self he.symm
      · exact hl he
    | remove k => exact fun hk => hl (WireGuard.Interface.keys_remove hk)

theorem Unnamed.midway (h : Unnamed public_key changes) (hl : public_key ∉ live.keys)
    {now : Interface} (hm : Midway changes live now) : public_key ∉ now.keys := by
  cases hm with
  | forth n => exact Unnamed.applied (fun k routes hk => h k routes (List.mem_of_mem_take hk)) hl
  | back n => exact fun hk => hl (WireGuard.Interface.keys_take hk)

theorem Unnamed.kept {s : Vps} (h : Unnamed public_key changes) (ha : Away public_key s)
    {saved : Interface} (hs : Kept changes s saved) : public_key ∉ saved.keys := by
  rcases hs with rfl | rfl | rfl
  · exact ha.saved
  · exact ha.live
  · exact h.applied ha.live

theorem Unnamed.moved {s s' : Vps} {plan : Plan} (h : Unnamed public_key plan.changes)
    (ha : Away public_key s) (hm : Moved plan s s') : Away public_key s' := by
  cases hm with
  | untouched => exact ha
  | midway _ hl hs => exact ⟨h.midway ha.live hl, h.kept ha hs⟩
  | undone => exact ⟨ha.live, ha.live⟩

end

section

variable [Platform] {interface public_key : String} {added : Option String}
  {legacy : Vps → String → String → Prop} {created : String → FriendStore → Prop} {s s' : Vps}

theorem Planned.unnamed {plan : Plan} (h : Planned interface added legacy created s plan)
    (hadded : added ≠ some public_key) (hl : public_key ∉ s.live.keys) :
    Unnamed public_key plan.changes := by
  have hset : ∀ {key : String} {routes : List String}, added = some key →
      Unnamed public_key [.set key routes] := by
    rintro key routes rfl k routes' hk
    rw [List.mem_singleton, Change.set.injEq] at hk
    rw [hk.1]
    exact fun he => hadded (congrArg some he)
  have hremove : ∀ {key : String}, Unnamed public_key [.remove key] := by
    intro key k routes hk
    rw [List.mem_singleton] at hk
    cases hk
  cases h with
  | friend _ new => exact hset new
  | renamed => exact fun _ _ hk => nomatch hk
  | revoked => exact hremove
  | owner _ new => exact hset new
  | warp _ routes =>
    intro k routes' hk
    obtain ⟨p, hp, -, _, -, he⟩ := mem_warp_changes routes hk
    rw [Change.set.injEq] at he
    rintro rfl
    exact hl (WireGuard.Interface.mem_keys.mpr ⟨p.2, he.1 ▸ hp⟩)
  | owner_removed => exact hremove
  | peer new => exact hset new
  | peer_removed => exact hremove

theorem Away.shift (h : Away public_key s) (hadded : added ≠ some public_key)
    (hs : Shift interface added legacy created s s') : Away public_key s' := by
  cases hs with
  | migrated => exact ⟨h.live, h.saved⟩
  | planned hp hm => exact (hp.unnamed hadded h.live).moved h hm
  | saved => exact ⟨h.live, h.live⟩
  | halted => exact ⟨fun hk => h.live (WireGuard.Interface.keys_take hk), h.saved⟩
  | warp => exact ⟨h.live, h.saved⟩

theorem Away.shifts (h : Away public_key s) (hadded : added ≠ some public_key)
    (hs : Shifts interface added legacy created s s') : Away public_key s' := by
  induction hs with
  | refl => exact h
  | tail _ hstep ih => exact ih.shift hadded hstep

theorem Away.step (h : Away public_key s) {event : Event} (hadded : event.added ≠ some public_key) :
    Away public_key (event.step interface s) := by
  cases event with
  | run command faults => exact h.shifts hadded (dispatch_shifts command)
  | start => exact ⟨h.saved, h.saved⟩
  | stop => exact ⟨h.live, h.live⟩

/-- **A revoked friend is away**, whichever way the revocation went. -/
theorem revoke_away (faults : Faults) :
    Ends (revoke interface faults public_key) (fun _ => Away public_key) (fun _ _ => True) s := by
  refine ends_bind.mpr ((load_store_ends interface faults none (fun _ _ _ => True) (fun _ _ => True) s).mono ?_ fun _ _ _ => trivial)
  intro store s' _
  refine ends_query_bind trivial (ends_get_bind.mpr (ends_lift_bind trivial fun shape hshape => ?_))
  obtain ⟨-, -, hshape⟩ := peer_shape_ok hshape
  cases shape with
  | none =>
    by_cases hr : has_record store public_key = true
    · simp only [if_pos hr]
      exact ends_whole ⟨hshape, hshape⟩ trivial trivial
    · simp only [if_neg hr]
      exact trivial
  | some ip =>
    refine ends_bind.mpr (write_store_ends trivial fun data _ => ⟨?_, trivial⟩)
    have haway : public_key ∉ (s'.live.remove public_key).keys :=
      WireGuard.Interface.not_mem_keys_remove
    refine changed_ends (Q := fun _ => True) ⟨haway, haway⟩ (fun _ _ _ _ => trivial) ?_
    intro _ _ _ _ _
    exact roll_back_ends trivial (fun _ => trivial) trivial trivial
      (write_store_ends trivial fun _ _ => ⟨trivial, trivial⟩)

/-- **Revocation lasts**: once `revoke` has succeeded, the key stays away from the live interface and
from the saved one in every run of commands, failures and restarts that does not add it. -/
theorem revoke_lasts (interface public_key : String) (faults : Faults) (s revoked : Vps)
    (events : List Event)
    (hrevoked : (revoke interface faults public_key).exec s = (.ok (), revoked))
    (hadded : ∀ event ∈ events, event.added ≠ some public_key) :
    public_key ∉ (run (Event.step interface) revoked events).live.keys ∧
      public_key ∉ (run (Event.step interface) revoked events).saved.keys := by
  have haway : Away public_key revoked := (revoke_away faults).ok hrevoked
  have hrun : Away public_key (run (Event.step interface) revoked events) :=
    (along_of_forall hadded).invariant (fun _ _ hne h => h.step hne) haway
  exact ⟨hrun.live, hrun.saved⟩

end

/-- The friend is not back after a restart and another friend. -/
theorem revoke_lasts_sample : letI := sample_platform
    let revoked := ((revoke "gt0" Faults.none BOB).exec sample).2
    let events := [.stop, .run (.create_friend "198.51.100.1:8443" "\x7b\"name\":\"Carol\"\x7d" CAROL) Faults.none,
      .start]
    BOB ∉ (run (Event.step "gt0") revoked events).live.keys ∧
      BOB ∉ (run (Event.step "gt0") revoked events).saved.keys :=
  letI := sample_platform
  revoke_lasts "gt0" BOB Faults.none sample _ _ (Op.exec_eq (by decide +kernel))
    (by decide +kernel)

end Gofro.Server
