import GofroRouter.Agent.FakeDns.Resolver
import GofroRouter.Agent.Dataplane.Kernel

/-!
# The leases and the kernel's maps

A query adds leases to memory and to the kernel, a purge removes them from both. A failed step is
taken back by the next one; if that succeeds, the kernel holds the leases of the memory again.

* `expired_accepted`: the deletion of expired leases names only what is there.
* **`rewrite_response_synced`**, **`purge_expired_synced`**: what an operation of the resolver keeps
  (`Synced`).
-/

namespace Gofro.Agent

open Geodata (RegexEngine)

/-! ## Mappings that are removed -/

theorem expired_sublist {s : Store} {clock : ℤ} {expired : List FakeMapping}
    (h : s.expired clock = .ok expired) : expired.Sublist s.mappings := by
  simp only [Store.expired, bind_eq_ok] at h
  obtain ⟨now, -, h⟩ := h
  cases h
  exact List.filter_sublist.map _

theorem remove_mappings_eq_ok {s s' : Store} {sql : Bool} {removed : List FakeMapping}
    (h : s.remove_mappings sql removed = (.ok (), s')) :
    sql = true ∧ s' = (s.remove_mappings true removed).2 := by
  cases sql with
  | true => exact ⟨rfl, (congrArg Prod.snd h).symm⟩
  | false => cases h

theorem remove_mappings_eq_error {s s' : Store} {sql : Bool} {removed : List FakeMapping}
    {e : String} (h : s.remove_mappings sql removed = (.error e, s')) : sql = false ∧ s' = s := by
  cases sql with
  | true => cases h
  | false => cases h; exact ⟨rfl, rfl⟩

/-- Removed mappings that are installed again are all there, in another order. -/
theorem mem_retained_append {mappings removed : List FakeMapping}
    (hn : (mappings.map FakeMapping.fake).Nodup) (hs : removed ⊆ mappings) (m : FakeMapping) :
    m ∈ mappings ↔ m ∈ retained removed mappings ++ removed := by
  rw [List.mem_append, mem_retained]
  constructor
  · intro hm
    by_cases hf : m.fake ∈ removed.map FakeMapping.fake
    · obtain ⟨m', hm', he⟩ := List.mem_map.mp hf
      rw [eq_of_fake_eq hn hm (hs hm') he.symm]
      exact .inr hm'
    · exact .inl ⟨hm, hf⟩
  · rintro (⟨hm, -⟩ | hm)
    · exact hm
    · exact hs hm

theorem nodup_retained_append {mappings removed : List FakeMapping}
    (hn : (mappings.map FakeMapping.fake).Nodup) (hr : (removed.map FakeMapping.fake).Nodup) :
    ((retained removed mappings ++ removed).map FakeMapping.fake).Nodup := by
  rw [List.map_append]
  refine List.Nodup.append (hn.sublist (List.filter_sublist.map _)) hr ?_
  intro a ha ha'
  obtain ⟨m, hm, rfl⟩ := List.mem_map.mp ha
  exact (mem_retained.mp hm).2 ha'

namespace FakeDns

/-- **The script that deletes expired leases is accepted.** -/
theorem expired_accepted {dns : FakeDns} {k : Nft.Kernel} {base : List Nft.Edit}
    {exclusions : List MacAddress} (hs : dns.store.Inv)
    (hk : Installed base dns.store.mappings exclusions k) {clock : ℤ} {expired : List FakeMapping}
    (h : dns.store.expired clock = .ok expired) :
    ∃ k', Nft.run k (Nft.edits TABLE (removal_edits expired)) = some k' := by
  have hsub := expired_sublist h
  obtain ⟨t, ht, -⟩ := run_removal hk hs.nodup (hs.nodup.sublist (hsub.map _)) fun m hm =>
    hsub.subset hm
  exact ⟨_, ht⟩

/-- What an operation of the resolver keeps; the last part needs its compensating step. -/
structure Synced [RegexEngine] (policy : RoutingPolicy) (compensated : Bool) (dns : FakeDns)
    (k : Nft.Kernel) (dns' : FakeDns) (k' : Nft.Kernel) : Prop where
  store : dns'.store.Inv
  follows : dns.store.Follows policy → dns'.store.Follows policy
  vpn : dns'.vpn_enabled = dns.vpn_enabled
  guard : k' GUARD_TABLE = k GUARD_TABLE
  installed : compensated = true → ∀ base exclusions,
    Installed base dns.store.mappings exclusions k →
      Installed base dns'.store.mappings exclusions k'

section

variable [RegexEngine] {policy : RoutingPolicy} {compensated : Bool} {dns dns' : FakeDns}
  {k k' : Nft.Kernel}

theorem Synced.refl (hs : dns.store.Inv) : Synced policy compensated dns k dns k :=
  ⟨hs, id, rfl, rfl, fun _ _ _ h => h⟩

/-! ## Queries -/

/-- **A query**, answered or not. -/
theorem rewrite_response_synced [Idna] {message : Message} {domain : String} {lan : LanContext}
    {faults : QueryFaults} {res : Except String Message} (hs : dns.store.Inv)
    (h : dns.rewrite_response k message domain policy lan faults = (res, dns', k')) :
    Synced policy faults.rollback dns k dns' k' := by
  simp only [rewrite_response] at h
  split_ifs at h with ht
  · rcases hr : dns.rewrite_records k message domain policy lan faults with ⟨res₁, dns₁, k₁⟩
    rw [hr] at h
    simp only [Prod.mk.injEq] at h
    obtain ⟨-, rfl, rfl⟩ := h
    obtain ⟨hi, hf, hv, hrw⟩ := rewrite_records_spec hs hr
    cases hrw with
    | failed hm =>
      refine ⟨hi, hf, hv, rfl, fun hc base exclusions h => ?_⟩
      rw [hm hc]
      exact h
    | done hm hk =>
      refine ⟨hi, hf, hv, run_nft_edits_guard hk, fun _ base exclusions h => ?_⟩
      obtain ⟨t, rfl, ht⟩ := install_mappings_ok h (hm ▸ hi.nodup) hk
      rw [hm]
      exact ⟨t, Function.update_self .., ht⟩
  · cases h
    exact .refl hs

/-! ## Expired leases -/

/-- **A purge of expired leases.** -/
theorem purge_expired_synced (policy : RoutingPolicy) {faults : PurgeFaults}
    {res : Except String ℕ} (hs : dns.store.Inv)
    (h : dns.purge_expired k faults = (res, dns', k')) :
    Synced policy (faults.sql || faults.reinstall) dns k dns' k' := by
  unfold purge_expired at h
  split at h
  · cases h
    exact .refl hs
  rename_i expired hexpired
  have hsub := expired_sublist hexpired
  have hr := hs.nodup.sublist (hsub.map FakeMapping.fake)
  split at h
  · cases h
    exact .refl hs
  rename_i hempty
  split at h
  · rename_i e k₁ hk
    cases h
    rw [remove_mappings_error hk]
    exact .refl hs
  rename_i k₁ hk
  have hguard := remove_mappings_guard hk
  have hremoved : ∀ base exclusions, Installed base dns.store.mappings exclusions k →
      Installed base (retained expired dns.store.mappings) exclusions k₁ := by
    intro base exclusions h
    obtain ⟨t, rfl, ht⟩ := remove_mappings_ok h hs.nodup hr (fun m hm => hsub.subset hm)
      (by simpa using hempty) hk
    exact ⟨t, Function.update_self .., ht⟩
  split at h
  · -- gone from all three
    rename_i store hstore
    obtain ⟨-, rfl⟩ := remove_mappings_eq_ok hstore
    cases h
    refine ⟨Store.remove_mappings_inv hs true expired, fun hf => hf.remove true expired, rfl,
      hguard, fun _ base exclusions h => ?_⟩
    rw [Store.mappings_remove]
    exact hremoved base exclusions h
  · rename_i e store hstore
    obtain ⟨hsql, rfl⟩ := remove_mappings_eq_error hstore
    split at h
    · -- back in the kernel
      rename_i k₂ hk₂
      cases h
      refine ⟨hs, id, rfl, (run_nft_edits_guard hk₂).trans hguard, fun _ base exclusions h => ?_⟩
      have hn := nodup_retained_append hs.nodup hr
      obtain ⟨t, rfl, ht⟩ := install_mappings_ok (hremoved base exclusions h) hn hk₂
      exact ⟨t, Function.update_self .., ht.congr hn hs.nodup
        (mem_retained_append hs.nodup hsub.subset) fun _ => Iff.rfl⟩
    · rename_i rollback k₂ hk₂
      cases h
      refine ⟨hs, id, rfl, (run_nft_edits_guard hk₂).trans hguard, fun hc base exclusions h => ?_⟩
      -- nft runs, and does not refuse what it has just removed
      rw [hsql, Bool.false_or] at hc
      have hn := nodup_retained_append hs.nodup hr
      have hinstall := (hremoved base exclusions h).run fun t ht => ht.install hn
      obtain ⟨t, ht, -⟩ := hinstall
      rw [hc, install_mappings, render_mappings, run_nft_of_run ht] at hk₂
      cases hk₂

end

end FakeDns

end Gofro.Agent
