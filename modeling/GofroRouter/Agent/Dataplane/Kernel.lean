import GofroRouter.Agent.Dataplane.Table

/-!
# What the scripts do to the kernel

A script of the agent either leaves the kernel as it is, or does its whole work.

* `Installed`: the routing table of the kernel holds given leases and excluded devices.
* `apply_ok`, `install_guard_ok`, `clear_guard_ok`, `publish_exclusions_ok`, `install_mappings_ok`,
  `remove_mappings_ok`: a successful script. `run_nft_error`: any other one.
-/

namespace Gofro.Agent

open Nft (Edit Kernel)

/-- The kernel's routing table holds these mappings and devices, and what `base` builds. -/
def Installed (base : List Edit) (mappings : List FakeMapping) (exclusions : List MacAddress)
    (k : Kernel) : Prop :=
  ∃ t, k TABLE = some t ∧ Rendered base mappings exclusions t

/-- The forwarding guard is in the kernel. -/
def Guarded (k : Kernel) : Prop := (k GUARD_TABLE).isSome

section

variable {ok : Bool} {k k' : Kernel} {script : List Nft.Command} {e : String}

theorem run_nft_ok (h : run_nft ok k script = (.ok (), k')) : Nft.run k script = some k' := by
  unfold run_nft at h
  split at h
  · rename_i he
    rw [List.isEmpty_iff.mp he]
    cases h
    rfl
  · split at h
    · rename_i k₁ hk
      cases h
      cases ok with
      | true => exact hk
      | false => cases hk
    · cases h

theorem run_nft_error (h : run_nft ok k script = (.error e, k')) : k' = k := by
  unfold run_nft at h
  split at h
  · cases h
  · split at h
    · cases h
    · cases h; rfl

theorem run_nft_of_run (h : Nft.run k script = some k') : run_nft true k script = (.ok (), k') := by
  unfold run_nft
  split
  · rename_i he
    rw [List.isEmpty_iff.mp he] at h
    cases h
    rfl
  · rw [if_pos rfl, h]

end

section

variable {ok : Bool} {k k' : Kernel} {lan : LanContext} {dns_port : ℕ} {egress : VpnEgress}
  {policy : RoutingPolicy} {panel_ports : PanelPorts} {base : List Edit}
  {mappings added removed : List FakeMapping} {exclusions exclusions' : List MacAddress}

theorem apply_ok (hn : (mappings.map FakeMapping.fake).Nodup)
    (h : apply ok k lan dns_port egress policy mappings panel_ports exclusions = (.ok (), k')) :
    ∃ t, k' = Function.update k TABLE (some t) ∧
      Rendered (policy_edits lan dns_port egress policy panel_ports) mappings exclusions t := by
  have hrun := run_nft_ok h
  rw [render_with_exclusions, Nft.run_load, Option.map_eq_some_iff] at hrun
  obtain ⟨t, ht, rfl⟩ := hrun
  exact ⟨t, rfl, (runEdits_table hn).mp ht⟩

theorem install_guard_ok (h : install_guard ok k lan exclusions = (.ok (), k')) :
    ∃ g, k' = Function.update k GUARD_TABLE (some g) := by
  have hrun := run_nft_ok h
  rw [render_guard_with_exclusions, Nft.run_load, Option.map_eq_some_iff] at hrun
  obtain ⟨g, -, rfl⟩ := hrun
  exact ⟨g, rfl⟩

theorem clear_guard_ok (h : clear_guard ok k = (.ok (), k')) :
    k' = Function.update k GUARD_TABLE none := by
  have hrun := run_nft_ok h
  simpa [Nft.run, Nft.Command.exec, Nft.Action.exec] using hrun.symm

theorem Installed.run {es : List Edit} (hk : Installed base mappings exclusions k)
    (hes : ∀ t, Rendered base mappings exclusions t →
      ∃ t', Nft.runEdits t es = some t' ∧ Rendered base added exclusions' t') :
    ∃ t, Nft.run k (Nft.edits TABLE es) = some (Function.update k TABLE (some t)) ∧
      Rendered base added exclusions' t := by
  obtain ⟨t, ht, hr⟩ := hk
  obtain ⟨t', hrun, hr'⟩ := hes t hr
  refine ⟨t', ?_, hr'⟩
  rw [Nft.run_edits, ht]
  simp only [hrun, Option.map_some]

theorem Installed.update_guard (hk : Installed base mappings exclusions k) (g : Option Nft.Table) :
    Installed base mappings exclusions (Function.update k GUARD_TABLE g) := by
  obtain ⟨t, ht, hr⟩ := hk
  exact ⟨t, by rw [Function.update_of_ne (by decide), ht], hr⟩

theorem Installed.congr {mappings' : List FakeMapping} (h : Installed base mappings exclusions k)
    (hn : (mappings.map FakeMapping.fake).Nodup) (hn' : (mappings'.map FakeMapping.fake).Nodup)
    (hm : ∀ m, m ∈ mappings' ↔ m ∈ mappings) (hx : ∀ mac, mac ∈ exclusions' ↔ mac ∈ exclusions) :
    Installed base mappings' exclusions' k := by
  obtain ⟨t, ht, hr⟩ := h
  exact ⟨t, ht, hr.congr hn hn' hm hx⟩

theorem run_nft_edits_guard {es : List Edit} {res : Except String Unit}
    (h : run_nft ok k (Nft.edits TABLE es) = (res, k')) : k' GUARD_TABLE = k GUARD_TABLE := by
  cases res with
  | error e => rw [run_nft_error h]
  | ok u =>
    have hrun := run_nft_ok h
    rw [Nft.run_edits] at hrun
    cases ht : k TABLE with
    | none =>
      rw [ht] at hrun
      dsimp only at hrun
      split_ifs at hrun
      cases hrun
      rfl
    | some t =>
      rw [ht] at hrun
      simp only [Option.map_eq_some_iff] at hrun
      obtain ⟨t', -, rfl⟩ := hrun
      exact Function.update_of_ne (by decide) _ _

theorem remove_mappings_guard {res : Except String Unit}
    (h : remove_mappings ok k removed = (res, k')) : k' GUARD_TABLE = k GUARD_TABLE := by
  unfold remove_mappings at h
  split at h
  · cases h; rfl
  · exact run_nft_edits_guard h

/-- **Publishing** puts the devices into the table and into a new guard. -/
theorem publish_exclusions_ok (hk : Installed base mappings exclusions k)
    (h : publish_exclusions ok k lan exclusions' = (.ok (), k')) :
    ∃ t g, k' = Function.update (Function.update k TABLE (some t)) GUARD_TABLE (some g) ∧
      Rendered base mappings exclusions' t := by
  have hrun := run_nft_ok h
  have hes := hk.run fun t hr => hr.publish exclusions'
  obtain ⟨t, ht, hr⟩ := hes
  rw [render_publish_exclusions, Nft.run_append, ht, Option.bind_some,
    render_guard_with_exclusions, Nft.run_load, Option.map_eq_some_iff] at hrun
  obtain ⟨g, -, rfl⟩ := hrun
  exact ⟨t, g, rfl, hr⟩

/-- **New mappings** join those of the table. -/
theorem install_mappings_ok (hk : Installed base mappings exclusions k)
    (hn : ((mappings ++ added).map FakeMapping.fake).Nodup)
    (h : install_mappings ok k added = (.ok (), k')) :
    ∃ t, k' = Function.update k TABLE (some t) ∧
      Rendered base (mappings ++ added) exclusions t := by
  have hes := hk.run fun t hr => hr.install hn
  obtain ⟨t, ht, hr⟩ := hes
  have hrun := run_nft_ok h
  rw [render_mappings, ht, Option.some.injEq] at hrun
  exact ⟨t, hrun.symm, hr⟩

theorem run_removal (hk : Installed base mappings exclusions k)
    (hn : (mappings.map FakeMapping.fake).Nodup) (hr : (removed.map FakeMapping.fake).Nodup)
    (hs : ∀ m ∈ removed, m ∈ mappings) :
    ∃ t, Nft.run k (Nft.edits TABLE (removal_edits removed)) =
        some (Function.update k TABLE (some t)) ∧
      Rendered base (retained removed mappings) exclusions t :=
  hk.run fun _ h => h.remove hn hr hs

/-- **Removed mappings** leave the table. -/
theorem remove_mappings_ok (hk : Installed base mappings exclusions k)
    (hn : (mappings.map FakeMapping.fake).Nodup) (hr : (removed.map FakeMapping.fake).Nodup)
    (hs : ∀ m ∈ removed, m ∈ mappings) (hne : removed ≠ [])
    (h : remove_mappings ok k removed = (.ok (), k')) :
    ∃ t, k' = Function.update k TABLE (some t) ∧
      Rendered base (retained removed mappings) exclusions t := by
  obtain ⟨t, ht, hr⟩ := run_removal hk hn hr hs
  rw [remove_mappings, if_neg (by simpa using hne)] at h
  have hrun := run_nft_ok h
  rw [ht, Option.some.injEq] at hrun
  exact ⟨t, hrun.symm, hr⟩

theorem remove_mappings_error {e : String}
    (h : remove_mappings ok k removed = (.error e, k')) : k' = k := by
  unfold remove_mappings at h
  split at h
  · cases h
  · exact run_nft_error h

end

end Gofro.Agent
