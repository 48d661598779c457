import GofroRouter.Agent.Controller.Update

/-!
# What a controller operation can do

One lemma for each step of the controller, and for each operation the list of its outcomes.

* `apply_policy_spec`, `protected_steps_spec`, `roll_back_spec`, `finish_spec`,
  `committed_failure_spec`: the steps.
* **`update_config_spec`**: every outcome of a change of the configuration (`Updated`).
* **`reconcile_spec`**: every outcome of a reconcile (`Reconciled`).
-/

namespace Gofro.Agent

open Geodata (RegexEngine)
open Fallible
open RoutingPolicy (CachesFor compiled)

/-- An error that marks nothing. -/
structure Failure.Plain (e : Failure) : Prop where
  published : e.published = false
  committed : e.committed = false

theorem Failure.Plain.of (message : String) : (Failure.of message).Plain := ⟨rfl, rfl⟩

section

variable [RegexEngine] {s s' s'' : AppState} {set : Settings}

/-- The kernel, the leases and the geodata caches may have changed, nothing else. -/
structure Kept (set : Settings) (s s' : AppState) : Prop where
  config : s'.config = s.config
  disk : s'.disk = s.disk
  routing : s'.routing = s.routing
  degraded : s'.routing_degraded = s.routing_degraded
  vpn : s'.fake_dns.vpn_enabled = s.fake_dns.vpn_enabled
  store : s.fake_dns.store.Inv → s'.fake_dns.store.Inv
  caches : CachesFor set.geodata s.caches → CachesFor set.geodata s'.caches

/-- In the kernel only the routing table may have changed. -/
structure Touched (set : Settings) (s s' : AppState) : Prop extends Kept set s s' where
  guard : s'.kernel GUARD_TABLE = s.kernel GUARD_TABLE

theorem Kept.refl (set : Settings) (s : AppState) : Kept set s s :=
  ⟨rfl, rfl, rfl, rfl, rfl, id, id⟩

theorem Kept.trans (h : Kept set s s') (h' : Kept set s' s'') : Kept set s s'' where
  config := h'.config.trans h.config
  disk := h'.disk.trans h.disk
  routing := h'.routing.trans h.routing
  degraded := h'.degraded.trans h.degraded
  vpn := h'.vpn.trans h.vpn
  store := fun hs => h'.store (h.store hs)
  caches := fun hc => h'.caches (h.caches hc)

theorem Kept.with_kernel (h : Kept set s s') (k : Nft.Kernel) :
    Kept set s { s' with kernel := k } := ⟨h.1, h.2, h.3, h.4, h.5, h.6, h.7⟩

theorem Touched.refl (set : Settings) (s : AppState) : Touched set s s := ⟨.refl set s, rfl⟩

theorem Touched.guarded (h : Touched set s s') : Guarded s'.kernel ↔ Guarded s.kernel := by
  rw [Guarded, Guarded, h.guard]

/-- The leases and the kernel are those of this configuration and policy. -/
structure Applied (set : Settings) (config : ControllerConfig)
    (policy : RoutingPolicy) (exclusions : List MacAddress) (s : AppState) : Prop where
  follows : s.fake_dns.store.Follows policy
  installed : Installed
    (policy_edits set.lan set.dns_port (.from_config config) policy set.panel_ports)
    s.fake_dns.store.mappings exclusions s.kernel

end

/-! ## Single steps -/

section

variable {s : AppState} {set : Settings} {ok : Bool}

theorem external_spec (step : String) :
    Ends (external step ok) (fun _ s' => s' = s) (fun e s' => s' = s ∧ e.Plain) s := by
  unfold external
  cases ok with
  | true => exact rfl
  | false => exact ⟨rfl, .of _⟩

theorem lift_spec {α : Type} (result : Except String α) :
    Ends (lift result) (fun a s' => s' = s ∧ result = .ok a) (fun e s' => s' = s ∧ e.Plain) s := by
  cases result with
  | ok a => exact ⟨rfl, rfl⟩
  | error e => exact ⟨rfl, .of e⟩

theorem nft_spec {script : Nft.Kernel → Except String Unit × Nft.Kernel} {P : Nft.Kernel → Prop}
    (hok : ∀ k', script s.kernel = (.ok (), k') → P k')
    (herror : ∀ e k', script s.kernel = (.error e, k') → k' = s.kernel) :
    Ends (nft script) (fun _ s' => ∃ k', s' = { s with kernel := k' } ∧ P k')
      (fun e s' => s' = s ∧ e.Plain) s := by
  rw [nft, ends_of]
  rcases h : script s.kernel with ⟨e | u, k'⟩
  · rw [herror e k' h]
    exact ⟨rfl, .of e⟩
  · exact ⟨k', rfl, hok k' h⟩

theorem install_guard_spec (exclusions : List MacAddress) :
    Ends (Controller.install_guard set ok exclusions)
      (fun _ s' => ∃ g, s' = { s with kernel := Function.update s.kernel GUARD_TABLE (some g) })
      (fun e s' => s' = s ∧ e.Plain) s := by
  refine (nft_spec (P := fun k' => ∃ g, k' = Function.update s.kernel GUARD_TABLE (some g))
    (fun _ => install_guard_ok) fun _ _ => run_nft_error).mono ?_ fun _ _ h => h
  rintro _ _ ⟨k', rfl, g, rfl⟩
  exact ⟨g, rfl⟩

theorem guarded_update {k : Nft.Kernel} {g : Nft.Table} :
    Guarded (Function.update k GUARD_TABLE (some g)) := by
  rw [Guarded, Function.update_self]
  rfl

/-- Publishing guards the kernel, and an installed table gets the new devices. -/
theorem publish_exclusions_spec (exclusions : List MacAddress) :
    Ends (Controller.publish_exclusions set ok exclusions)
      (fun _ s' => ∃ k', s' = { s with kernel := k' } ∧ Guarded k' ∧
        ∀ base mappings before, Installed base mappings before s.kernel →
          Installed base mappings exclusions k')
      (fun e s' => s' = s ∧ e.Plain) s := by
  refine nft_spec (fun k' h => ⟨?_, fun base mappings before hi => ?_⟩) fun _ _ => run_nft_error
  · have hrun := run_nft_ok h
    rw [render_publish_exclusions, Nft.run_append, Option.bind_eq_some_iff] at hrun
    obtain ⟨k₁, -, hrun⟩ := hrun
    rw [render_guard_with_exclusions, Nft.run_load, Option.map_eq_some_iff] at hrun
    obtain ⟨g, -, rfl⟩ := hrun
    exact guarded_update
  · obtain ⟨t, g, rfl, hr⟩ := publish_exclusions_ok hi h
    exact ⟨t, by simp [TABLE, GUARD_TABLE], hr⟩

theorem clear_guard_spec : Ends (Controller.clear_guard ok)
    (fun _ s' => s' = { s with kernel := Function.update s.kernel GUARD_TABLE none })
    (fun e s' => s' = { s with routing_degraded := true } ∧ e.Plain) s := by
  unfold Controller.clear_guard
  rw [ends_bind, ends_attempt]
  refine (nft_spec (P := fun k' => k' = Function.update s.kernel GUARD_TABLE none)
    (fun _ => clear_guard_ok) fun _ _ => run_nft_error).mono ?_ ?_
  · rintro _ _ ⟨k', rfl, rfl⟩
    exact rfl
  · rintro e _ ⟨rfl, -⟩
    exact ⟨rfl, .of _⟩

theorem save_spec {outcome : SaveOutcome} (next : ControllerConfig) :
    Ends (save outcome next) (fun _ s' => outcome = .durable ∧ s' = { s with disk := next })
      (fun e s' => e.committed = false ∧
        (outcome = .failed ∧ e.published = false ∧ s' = s ∨
          outcome = .published ∧ e.published = true ∧ s' = { s with disk := next })) s := by
  cases outcome with
  | failed => exact ⟨rfl, .inl ⟨rfl, rfl, rfl⟩⟩
  | published => exact ⟨rfl, .inr ⟨rfl, rfl, rfl⟩⟩
  | durable => exact ⟨rfl, rfl⟩

/-- A configuration under which the tunnel has its server. -/
def HasServer (config : ControllerConfig) : Prop :=
  config.vpn_enabled = true → ∃ server, active_server config = .ok server

theorem apply_network_spec (config : ControllerConfig) :
    Ends (apply_network ok config) (fun _ s' => s' = s ∧ HasServer config)
      (fun e s' => s' = s ∧ e.Plain) s := by
  unfold apply_network
  cases hv : config.vpn_enabled with
  | false =>
    refine (external_spec _).mono (fun _ _ h => ⟨h, fun hc => ?_⟩) fun _ _ h => h
    rw [hv] at hc
    cases hc
  | true =>
    rw [if_pos rfl, ends_bind]
    have hlift := lift_spec (s := s) (active_server config)
    show Ends (discard (lift (active_server config))) _ _ s
    rw [show (discard (lift (active_server config)) : Control Unit) =
      lift (active_server config) >>= fun _ => pure () from rfl, ends_bind]
    refine hlift.mono ?_ fun _ _ h => h
    rintro server _ ⟨rfl, hs⟩
    rw [ends_pure]
    exact (external_spec _).mono (fun _ _ h => ⟨h, fun _ => ⟨server, hs⟩⟩) fun _ _ h => h

end

/-! ## Compiling and applying a policy -/

section

variable [RegexEngine] {s : AppState} {set : Settings}

/-- Only the caches can change. -/
def Cached (set : Settings) (s s' : AppState) : Prop :=
  ∃ caches, s' = { s with caches } ∧
    (CachesFor set.geodata s.caches → CachesFor set.geodata caches)

theorem compile_spec {ok : Bool} {alive : Geodata.Liveness} (config : RoutingConfig) :
    Ends (compile set ok alive config)
      (fun policy s' => Cached set s s' ∧
        (CachesFor set.geodata s.caches → compiled set.geodata config = .ok policy))
      (fun e s' => Cached set s s' ∧ e.Plain) s := by
  rw [compile, ends_of]
  cases ok with
  | false => exact ⟨⟨s.caches, rfl, id⟩, .of _⟩
  | true =>
    simp only [if_true]
    rcases h : RoutingPolicy.compile set.geodata alive config s.caches with ⟨e | policy, caches⟩
    · refine ⟨⟨caches, rfl, fun hc => ?_⟩, .of _⟩
      have := (RoutingPolicy.compile_eq alive config hc).2
      rwa [h] at this
    · refine ⟨⟨caches, rfl, fun hc => ?_⟩, fun hc => ?_⟩
      · have := (RoutingPolicy.compile_eq alive config hc).2
        rwa [h] at this
      · have := (RoutingPolicy.compile_eq alive config hc).1
        rw [h] at this
        exact this.symm

theorem Store.mappings_commit (s : Store) (policy : RoutingPolicy) :
    (s.commit_targets true policy).2.mappings = s.reclassified policy := by
  simp only [Store.mappings, Store.commit_targets, if_true, Store.reclassified, List.map_map]
  rfl

theorem Store.follows_commit (s : Store) (policy : RoutingPolicy) :
    (s.commit_targets true policy).2.Follows policy := by
  intro l hl
  simp only [Store.commit_targets, if_true] at hl
  obtain ⟨l', -, rfl⟩ := List.mem_map.mp hl
  rfl

theorem Store.Inv.nodup_reclassified {s : Store} (h : s.Inv) (policy : RoutingPolicy) :
    ((s.reclassified policy).map FakeMapping.fake).Nodup := by
  rw [← Store.mappings_commit]
  exact (Store.commit_targets_inv h true policy).nodup

theorem commit_targets_spec {ok : Bool} (policy : RoutingPolicy) :
    Ends (commit_targets ok policy)
      (fun _ s' => s' = { s with fake_dns := { s.fake_dns with
        store := (s.fake_dns.store.commit_targets true policy).2 } })
      (fun e s' => s' = s ∧ e.Plain) s := by
  rw [commit_targets, ends_of]
  cases ok with
  | true => exact rfl
  | false => exact ⟨rfl, .of _⟩

/-- **Applying a policy** replaces the routing table, and then the targets of the leases. -/
theorem apply_policy_spec {faults : ApplyFaults} (config : ControllerConfig)
    (policy : RoutingPolicy) (exclusions : List MacAddress) :
    Ends (apply_policy set faults config policy exclusions)
      (fun _ s' => Touched set s s' ∧
        (s.fake_dns.store.Inv → Applied set config policy exclusions s'))
      (fun e s' => Touched set s s' ∧ e.Plain) s := by
  unfold apply_policy
  rw [ends_bind, ends_get, ends_bind]
  refine (nft_spec (P := fun k' => k' GUARD_TABLE = s.kernel GUARD_TABLE ∧
    (s.fake_dns.store.Inv → Installed (policy_edits set.lan set.dns_port (.from_config config)
      policy set.panel_ports) (s.fake_dns.store.reclassified policy) exclusions k'))
    (fun k' h => ⟨?_, fun hs => ?_⟩) fun _ _ => run_nft_error).mono ?_ ?_
  · have hrun := run_nft_ok h
    rw [render_with_exclusions, Nft.run_load, Option.map_eq_some_iff] at hrun
    obtain ⟨t, -, rfl⟩ := hrun
    exact Function.update_of_ne (by decide) _ _
  · obtain ⟨t, rfl, ht⟩ := apply_ok (hs.nodup_reclassified policy) h
    exact ⟨t, Function.update_self .., ht⟩
  · rintro _ _ ⟨k', rfl, hguard, hinst⟩
    refine (commit_targets_spec policy).mono ?_ ?_
    · rintro _ _ rfl
      refine ⟨⟨⟨rfl, rfl, rfl, rfl, rfl, fun hs => Store.commit_targets_inv hs true policy, id⟩,
        hguard⟩, fun hs => ⟨Store.follows_commit _ _, ?_⟩⟩
      rw [Store.mappings_commit]
      exact hinst hs
    · rintro e _ ⟨rfl, he⟩
      exact ⟨⟨(Kept.refl set s).with_kernel k', hguard⟩, he⟩
  · rintro e _ ⟨rfl, he⟩
    exact ⟨.refl set _, he⟩

end

/-! ## The parts of an update -/

section

variable {s : AppState} {set : Settings} {faults : UpdateFaults}

/-- **A saved change that is made visible**: the devices are published and the guard is gone; on an
error the guard stands as before, or anew. -/
theorem finish_spec (config next : ControllerConfig) :
    Ends (finish set faults config next)
      (fun _ s' => ∃ k', s' = { s with kernel := k' } ∧ ¬ Guarded k' ∧
        ∀ base mappings, Installed base mappings config.device_exclusions s.kernel →
          Installed base mappings next.device_exclusions k')
      (fun _ s' => ∃ k' degraded, s' = { s with kernel := k', routing_degraded := degraded } ∧
        (Guarded s.kernel → Guarded k')) s := by
  have hgone : ∀ k : Nft.Kernel, ¬ Guarded (Function.update k GUARD_TABLE none) := by
    intro k
    rw [Guarded, Function.update_self]
    simp
  unfold finish
  by_cases hx : config.device_exclusions = next.device_exclusions
  · rw [if_neg (not_not.mpr hx)]
    refine clear_guard_spec.mono ?_ ?_
    · rintro _ _ rfl
      exact ⟨_, rfl, hgone _, fun base mappings hi => hx ▸ hi.update_guard none⟩
    · rintro _ _ ⟨rfl, -⟩
      exact ⟨_, _, rfl, id⟩
  · rw [if_pos hx, ends_bind]
    refine (publish_exclusions_spec next.device_exclusions).mono ?_ ?_
    · rintro _ _ ⟨k', rfl, hguard, hpub⟩
      rw [ends_bind]
      refine (external_spec _).mono ?_ ?_
      · rintro _ _ rfl
        refine clear_guard_spec.mono ?_ ?_
        · rintro _ _ rfl
          exact ⟨_, rfl, hgone _, fun base mappings hi => (hpub base mappings _ hi).update_guard none⟩
        · rintro _ _ ⟨rfl, -⟩
          exact ⟨k', true, rfl, fun _ => hguard⟩
      · rintro _ _ ⟨rfl, -⟩
        exact ⟨k', s.routing_degraded, rfl, fun _ => hguard⟩
    · rintro _ _ ⟨rfl, -⟩
      exact ⟨_, _, rfl, id⟩

/-- **The repair of a committed change** marks it, and leaves the controller degraded; the kernel is
guarded, or as before. -/
theorem committed_failure_spec {repair : RepairFaults} (config : ControllerConfig)
    (error : Failure) (sync_required : Bool) :
    Ends (committed_failure set repair config error sync_required)
      (fun e s' => e.committed = true ∧ ∃ k',
        s' = { s with kernel := k', routing_degraded := true } ∧ (Guarded k' ∨ k' = s.kernel))
      (fun _ _ => False) s := by
  set s₀ : AppState := { s with routing_degraded := true } with hs₀
  have hrepair : Ends (do
      if sync_required then external "sync" repair.sync
      Controller.publish_exclusions set repair.publish config.device_exclusions)
      (fun _ s' => ∃ k', s' = { s₀ with kernel := k' } ∧ Guarded k')
      (fun _ s' => s' = s₀) s₀ := by
    have hpublish : Ends (Controller.publish_exclusions set repair.publish config.device_exclusions)
        (fun _ s' => ∃ k', s' = { s₀ with kernel := k' } ∧ Guarded k') (fun _ s' => s' = s₀) s₀ := by
      refine (publish_exclusions_spec _).mono ?_ fun _ _ h => h.1
      rintro _ _ ⟨k', rfl, hguard, -⟩
      exact ⟨k', rfl, hguard⟩
    cases sync_required with
    | false => exact hpublish
    | true =>
      rw [if_pos rfl, ends_bind]
      refine (external_spec _).mono ?_ fun _ _ h => h.1
      rintro _ _ rfl
      exact hpublish
  unfold committed_failure
  rw [ends_bind, ends_modify, ends_bind, ends_attempt]
  refine hrepair.mono ?_ ?_
  · rintro _ _ ⟨k', rfl, hguard⟩
    simp only
    rw [ends_bind, ends_attempt]
    refine (external_spec _).mono ?_ ?_
    · rintro _ _ rfl
      exact ⟨rfl, k', rfl, .inl hguard⟩
    · rintro e _ ⟨rfl, -⟩
      exact ⟨rfl, k', rfl, .inl hguard⟩
  · rintro e _ rfl
    simp only
    rw [ends_bind, ends_attempt]
    refine (install_guard_spec config.device_exclusions).mono ?_ ?_
    · rintro _ _ ⟨g, rfl⟩
      exact ⟨rfl, _, rfl, .inl guarded_update⟩
    · rintro e _ ⟨rfl, -⟩
      exact ⟨rfl, _, rfl, .inr rfl⟩

end

section

variable [RegexEngine] {s : AppState} {set : Settings} {faults : UpdateFaults}

/-- **Under the guard**: the new policy is applied, and then the configuration is saved. -/
theorem protected_steps_spec {network : Bool} (config next : ControllerConfig)
    (policy : RoutingPolicy) :
    Ends (protected_steps set faults network config next policy)
      (fun _ s' => ∃ s₁, Touched set s s₁ ∧
        (s.fake_dns.store.Inv → Applied set next policy config.device_exclusions s₁) ∧
        s' = { s₁ with disk := next })
      (fun e s' => e.committed = false ∧ ∃ s₁, Touched set s s₁ ∧
        (e.published = false ∧ s' = s₁ ∨ e.published = true ∧ s' = { s₁ with disk := next })) s := by
  unfold protected_steps
  have htail : Ends (do
      apply_policy set faults.apply next policy config.device_exclusions
      save faults.save next)
      (fun _ s' => ∃ s₁, Touched set s s₁ ∧
        (s.fake_dns.store.Inv → Applied set next policy config.device_exclusions s₁) ∧
        s' = { s₁ with disk := next })
      (fun e s' => e.committed = false ∧ ∃ s₁, Touched set s s₁ ∧
        (e.published = false ∧ s' = s₁ ∨ e.published = true ∧ s' = { s₁ with disk := next })) s := by
    rw [ends_bind]
    refine (apply_policy_spec next policy config.device_exclusions).mono ?_ ?_
    · rintro _ s₁ ⟨ht, ha⟩
      refine (save_spec next).mono ?_ ?_
      · rintro _ _ ⟨-, rfl⟩
        exact ⟨s₁, ht, ha, rfl⟩
      · rintro e _ ⟨hc, ⟨-, hp, rfl⟩ | ⟨-, hp, rfl⟩⟩
        · exact ⟨hc, _, ht, .inl ⟨hp, rfl⟩⟩
        · exact ⟨hc, s₁, ht, .inr ⟨hp, rfl⟩⟩
    · rintro e s₁ ⟨ht, he⟩
      exact ⟨he.committed, s₁, ht, .inl ⟨he.published, rfl⟩⟩
  cases network with
  | false => exact htail
  | true =>
    rw [if_pos rfl, ends_bind]
    refine (apply_network_spec next).mono ?_ ?_
    · rintro _ _ ⟨rfl, -⟩
      exact htail
    · rintro e _ ⟨rfl, he⟩
      exact ⟨he.committed, _, .refl set _, .inl ⟨he.published, rfl⟩⟩

/-- **A rollback that succeeds** has applied the policy from before. -/
theorem roll_back_spec {network : Bool} (config : ControllerConfig) (active : RoutingPolicy) :
    Ends (roll_back set faults network config active)
      (fun _ s' => Touched set s s' ∧
        (s.fake_dns.store.Inv → Applied set config active config.device_exclusions s'))
      (fun e s' => Touched set s s' ∧ e.Plain) s := by
  have hnetwork : Ends (do
      if network then
        apply_network faults.rollback_network config
        external "restore" faults.restore)
      (fun _ s' => s' = s) (fun e s' => s' = s ∧ e.Plain) s := by
    cases network with
    | false => exact rfl
    | true =>
      rw [if_pos rfl, ends_bind]
      refine (apply_network_spec config).mono ?_ fun _ _ h => h
      rintro _ _ ⟨rfl, -⟩
      exact external_spec _
  have hpolicy : ∀ network : Except Failure Unit, (∀ e, network = .error e → e.Plain) →
      Ends (do
        let policy ← attempt (apply_policy set faults.rollback config active
          config.device_exclusions)
        conclude (network >>= fun _ => policy))
      (fun _ s' => Touched set s s' ∧
        (s.fake_dns.store.Inv → Applied set config active config.device_exclusions s'))
      (fun e s' => Touched set s s' ∧ e.Plain) s := by
    intro network hn
    rw [ends_bind, ends_attempt]
    refine (apply_policy_spec config active config.device_exclusions).mono ?_ ?_
    · rintro _ s' ⟨ht, ha⟩
      cases network with
      | error e => exact ⟨ht, hn e rfl⟩
      | ok _ => exact ⟨ht, ha⟩
    · rintro e s' ⟨ht, he⟩
      cases network with
      | error e' => exact ⟨ht, hn e' rfl⟩
      | ok _ => exact ⟨ht, he⟩
  unfold roll_back
  rw [ends_bind, ends_attempt]
  refine hnetwork.mono ?_ ?_
  · rintro _ _ rfl
    exact hpolicy _ fun _ h => nomatch h
  · rintro e _ ⟨rfl, he⟩
    refine hpolicy _ fun e' h => ?_
    cases h
    exact he

/-- **An abandoned change**: degraded, or back to what was there before. -/
theorem abandon_spec {network : Bool} (config : ControllerConfig) (active : RoutingPolicy)
    {error : Failure} (herror : error.committed = false) :
    Ends (abandon set faults network config active error) (fun _ _ => False)
      (fun e s' => e.committed = false ∧ ∃ s₁, Touched set s s₁ ∧
        (s' = { s₁ with routing_degraded := true } ∨
          (s.fake_dns.store.Inv → Applied set config active config.device_exclusions s₁) ∧
          s' = { s₁ with kernel := Function.update s₁.kernel GUARD_TABLE none })) s := by
  unfold abandon
  rw [ends_bind, ends_attempt]
  refine (roll_back_spec config active).mono ?_ ?_
  · rintro _ s₁ ⟨ht, ha⟩
    simp only
    rw [ends_bind, ends_attempt]
    refine clear_guard_spec.mono ?_ ?_
    · rintro _ _ rfl
      exact ⟨herror, s₁, ht, .inr ⟨ha, rfl⟩⟩
    · rintro e _ ⟨rfl, -⟩
      exact ⟨rfl, s₁, ht, .inl rfl⟩
  · rintro e s₁ ⟨ht, -⟩
    exact ⟨rfl, s₁, ht, .inl rfl⟩

end

/-! ## Changes of the configuration -/

section

variable [RegexEngine] {s s' : AppState} {set : Settings} {faults : UpdateFaults} {edit : Edit}

/-- **The outcomes of `update_config`.** -/
inductive Updated (set : Settings) (edit : Edit) (s : AppState) :
    Except Failure Unit → AppState → Prop
  /-- nothing was changed -/
  | refused {e : Failure} {s' : AppState} (he : e.committed = false) (hs : Cached set s s') :
    Updated set edit s (.error e) s'
  /-- a change without an effect on the routing table -/
  | saved {next : ControllerConfig} (hn : edit.normalized s.config = .ok (next, .config)) :
    Updated set edit s (.ok ()) { s with config := next, disk := next }
  /-- the same, but the directory was not synced -/
  | unsynced {next : ControllerConfig} {e : Failure} {k' : Nft.Kernel}
    (hn : edit.normalized s.config = .ok (next, .config)) (he : e.committed = true)
    (hk : Guarded k' ∨ k' = s.kernel) :
    Updated set edit s (.error e)
      { s with config := next, disk := next, routing_degraded := true, kernel := k' }
  /-- not saved, and not undone -/
  | stuck {e : Failure} {s₁ : AppState} (he : e.committed = false) (hs : Kept set s s₁)
    (hg : Guarded s₁.kernel) : Updated set edit s (.error e) { s₁ with routing_degraded := true }
  /-- not saved, and undone -/
  | rolled_back {e : Failure} {s₁ : AppState} (he : e.committed = false) (hs : Kept set s s₁)
    (ha : s.fake_dns.store.Inv → Applied set s.config s.routing s.config.device_exclusions s₁) :
    Updated set edit s (.error e)
      { s₁ with kernel := Function.update s₁.kernel GUARD_TABLE none }
  /-- saved, applied and visible -/
  | applied {next : ControllerConfig} {change : Change} {policy : RoutingPolicy}
    {s' : AppState} (hn : edit.normalized s.config = .ok (next, change))
    (hconfig : s'.config = next ∧ s'.disk = next ∧ s'.routing = policy)
    (hd : s'.routing_degraded = s.routing_degraded)
    (hv : s'.fake_dns.vpn_enabled = next.vpn_enabled)
    (hs : s.fake_dns.store.Inv → s'.fake_dns.store.Inv ∧
      Applied set next policy next.device_exclusions s')
    (hc : CachesFor set.geodata s.caches → CachesFor set.geodata s'.caches ∧
      compiled set.geodata next.routing = .ok policy) :
    Updated set edit s (.ok ()) s'
  /-- saved, but not quite applied or visible -/
  | unrefreshed {next : ControllerConfig} {change : Change} {e : Failure} {s' : AppState}
    (hn : edit.normalized s.config = .ok (next, change)) (he : e.committed = true)
    (hconfig : s'.config = next ∧ s'.disk = next) (hd : s'.routing_degraded = true)
    (hg : Guarded s'.kernel) (hs : s.fake_dns.store.Inv → s'.fake_dns.store.Inv)
    (hc : CachesFor set.geodata s.caches → CachesFor set.geodata s'.caches) :
    Updated set edit s (.error e) s'

theorem Cached.refl (set : Settings) (s : AppState) : Cached set s s := ⟨s.caches, rfl, id⟩

theorem update_saved_spec {next : ControllerConfig}
    (hn : edit.normalized s.config = .ok (next, .config)) :
    Ends (update_saved set faults next) (fun u s' => Updated set edit s (.ok u) s')
      (fun e s' => Updated set edit s (.error e) s') s := by
  unfold update_saved
  rw [ends_bind, ends_attempt]
  refine (save_spec next).mono ?_ ?_
  · rintro _ _ ⟨-, rfl⟩
    exact .saved hn
  · rintro e _ ⟨hc, ⟨-, hp, rfl⟩ | ⟨-, hp, rfl⟩⟩
    · simp only [hp, Bool.false_eq_true, if_false]
      exact .refused hc (.refl set _)
    · simp only [hp, if_true]
      rw [ends_bind, ends_modify, ends_bind]
      refine (committed_failure_spec next e true).mono ?_ fun _ _ h => h.elim
      rintro e' _ ⟨he, k', rfl, hk⟩
      exact .unsynced hn he hk

theorem Cached.kept {set : Settings} {s s' : AppState} (h : Cached set s s') : Kept set s s' := by
  obtain ⟨caches, rfl, hc⟩ := h
  exact ⟨rfl, rfl, rfl, rfl, rfl, id, hc⟩

theorem unrefreshed_spec {next : ControllerConfig} {change : Change} {s₁ : AppState}
    {error : Failure} {sync_required : Bool}
    (hn : edit.normalized s.config = .ok (next, change))
    (hconfig : s₁.config = next ∧ s₁.disk = next)
    (hs : s.fake_dns.store.Inv → s₁.fake_dns.store.Inv)
    (hc : CachesFor set.geodata s.caches → CachesFor set.geodata s₁.caches)
    (hg : Guarded s₁.kernel) :
    Ends (do
        throw (← committed_failure set faults.repair next error sync_required) : Control Unit)
      (fun u s' => Updated set edit s (.ok u) s')
      (fun e s' => Updated set edit s (.error e) s') s₁ := by
  rw [ends_bind]
  refine (committed_failure_spec next error sync_required).mono ?_ fun _ _ h => h.elim
  rintro e _ ⟨he, k', rfl, hk'⟩
  refine .unrefreshed hn he hconfig rfl ?_ hs hc
  rcases hk' with h | rfl
  · exact h
  · exact hg

/-- **From the guard on**: `s₁` is the guarded state in which the policy has been compiled. -/
theorem guarded_spec {network : Bool} {next : ControllerConfig} {change : Change}
    {policy : RoutingPolicy} {s₁ : AppState}
    (hn : edit.normalized s.config = .ok (next, change)) (hk : Kept set s s₁)
    (hp : CachesFor set.geodata s.caches → compiled set.geodata next.routing = .ok policy)
    (hg : Guarded s₁.kernel) :
    Ends (update_guarded set faults network s.config s.routing next policy)
      (fun u s' => Updated set edit s (.ok u) s')
      (fun e s' => Updated set edit s (.error e) s') s₁ := by
  unfold update_guarded
  rw [ends_bind, ends_attempt]
  refine (protected_steps_spec s.config next policy).mono ?_ ?_
  · rintro _ _ ⟨s₂, ht, ha, rfl⟩
    have hk₂ := hk.trans ht.toKept
    simp only
    rw [ends_bind, ends_modify, ends_bind, ends_attempt]
    refine (finish_spec s.config next).mono ?_ ?_
    · rintro _ _ ⟨k', rfl, -, hpub⟩
      refine .applied hn ⟨rfl, rfl, rfl⟩ hk₂.degraded rfl (fun hs => ⟨hk₂.store hs, ?_⟩)
        fun hc => ⟨hk₂.caches hc, hp hc⟩
      have happlied := ha (hk.store hs)
      exact ⟨happlied.follows, hpub _ _ happlied.installed⟩
    · rintro e _ ⟨k', degraded, rfl, hg'⟩
      exact unrefreshed_spec hn ⟨rfl, rfl⟩ hk₂.store hk₂.caches (hg' (ht.guarded.mpr hg))
  · rintro e _ ⟨he, s₂, ht, ⟨hp', rfl⟩ | ⟨hp', rfl⟩⟩
    · have hk₂ := hk.trans ht.toKept
      simp only [hp', Bool.false_eq_true, if_false]
      refine (abandon_spec s.config s.routing he).mono (fun _ _ h => h.elim) ?_
      rintro e' _ ⟨he', s₃, ht₃, rfl | ⟨ha, rfl⟩⟩
      · exact .stuck he' (hk₂.trans ht₃.toKept) (ht₃.guarded.mpr (ht.guarded.mpr hg))
      · exact .rolled_back he' (hk₂.trans ht₃.toKept) fun hs => ha (hk₂.store hs)
    · have hk₂ := hk.trans ht.toKept
      simp only [hp', if_true]
      rw [ends_bind, ends_modify]
      exact unrefreshed_spec hn ⟨rfl, rfl⟩ hk₂.store hk₂.caches (ht.guarded.mpr hg)

theorem update_applied_spec {network : Bool} {next : ControllerConfig} {change : Change}
    (hn : edit.normalized s.config = .ok (next, change)) :
    Ends (update_applied set faults network next) (fun u s' => Updated set edit s (.ok u) s')
      (fun e s' => Updated set edit s (.error e) s') s := by
  have hguard : ∀ (s₁ : AppState) (policy : RoutingPolicy), Cached set s s₁ →
      (CachesFor set.geodata s.caches → compiled set.geodata next.routing = .ok policy) →
      Ends (do
        Controller.install_guard set faults.guard s.config.device_exclusions
        update_guarded set faults network s.config s.routing next policy)
        (fun u s' => Updated set edit s (.ok u) s')
        (fun e s' => Updated set edit s (.error e) s') s₁ := by
    intro s₁ policy hs₁ hp
    rw [ends_bind]
    refine (install_guard_spec s.config.device_exclusions).mono ?_ ?_
    · rintro _ _ ⟨g, rfl⟩
      exact guarded_spec hn (hs₁.kept.with_kernel _) hp guarded_update
    · rintro e _ ⟨rfl, he⟩
      exact .refused he.committed hs₁
  unfold update_applied
  rw [ends_bind, ends_get, ends_bind]
  refine (compile_spec next.routing).mono ?_ fun e s₁ h => .refused h.2.committed h.1
  rintro policy s₁ ⟨hs₁, hp⟩
  rw [ends_bind, ends_get]
  obtain ⟨caches, rfl, hc⟩ := hs₁
  cases network with
  | false => exact hguard _ policy ⟨caches, rfl, hc⟩ hp
  | true =>
    simp only [if_true]
    rw [ends_bind]
    refine (external_spec _).mono ?_ ?_
    · rintro _ _ rfl
      exact hguard _ policy ⟨caches, rfl, hc⟩ hp
    · rintro e _ ⟨rfl, he⟩
      exact .refused he.committed ⟨caches, rfl, hc⟩

/-- **Every outcome of a change of the configuration.** -/
theorem update_config_spec :
    Ends (update_config set faults edit) (fun u s' => Updated set edit s (.ok u) s')
      (fun e s' => Updated set edit s (.error e) s') s := by
  unfold update_config
  rw [ends_bind]
  refine (external_spec _).mono ?_ ?_
  · rintro _ s₀ rfl
    rw [ends_bind, ends_get]
    cases hd : s₀.routing_degraded with
    | true => exact .refused rfl (.refl set s₀)
    | false =>
      simp only [Bool.false_eq_true, if_false]
      rw [ends_bind, ends_get, ends_bind]
      refine (lift_spec _).mono ?_ ?_
      · rintro ⟨next, change⟩ _ ⟨rfl, hn⟩
        cases change with
        | config => exact update_saved_spec hn
        | policy => exact update_applied_spec hn
        | network => exact update_applied_spec hn
      · rintro e _ ⟨rfl, he⟩
        exact .refused he.committed (.refl set _)
  · rintro e _ ⟨rfl, he⟩
    exact .refused he.committed (.refl set _)

end

/-! ## Reconciling -/

section

variable [RegexEngine] {s : AppState} {set : Settings}

/-- **The outcomes of `reconcile_locked`.** -/
inductive Reconciled (set : Settings) (s : AppState) : Except Failure Unit → AppState → Prop
  /-- before the guard -/
  | untouched {e : Failure} {s' : AppState}
    (hs : Cached set { s with routing_degraded := true } s') : Reconciled set s (.error e) s'
  /-- under the guard -/
  | guarded {e : Failure} {s' : AppState} (hconfig : s'.config = s.config ∧ s'.disk = s.disk)
    (hd : s'.routing_degraded = true) (hg : Guarded s'.kernel)
    (hs : s.fake_dns.store.Inv → s'.fake_dns.store.Inv)
    (hc : CachesFor set.geodata s.caches → CachesFor set.geodata s'.caches) :
    Reconciled set s (.error e) s'
  /-- all is as the configuration says -/
  | done {policy : RoutingPolicy} {s' : AppState}
    (hconfig : s'.config = s.config ∧ s'.disk = s.disk ∧ s'.routing = policy)
    (hd : s'.routing_degraded = false) (hv : s'.fake_dns.vpn_enabled = s.config.vpn_enabled)
    (hserver : HasServer s.config)
    (hs : s.fake_dns.store.Inv → s'.fake_dns.store.Inv ∧
      Applied set s.config policy s.config.device_exclusions s')
    (hc : CachesFor set.geodata s.caches → CachesFor set.geodata s'.caches ∧
      compiled set.geodata s.config.routing = .ok policy) :
    Reconciled set s (.ok ()) s'

/-- **Every outcome of a reconcile.** -/
theorem reconcile_spec (set : Settings) (s : AppState) (faults : ReconcileFaults) :
    Ends (reconcile_locked set faults) (fun u s' => Reconciled set s (.ok u) s')
      (fun e s' => Reconciled set s (.error e) s') s := by
  set s₀ : AppState := { s with routing_degraded := true } with hs₀
  unfold reconcile_locked
  rw [ends_bind, ends_get, ends_bind, ends_modify, ends_bind]
  refine (external_spec _).mono ?_ ?_
  · rintro _ _ rfl
    rw [ends_bind]
    refine (compile_spec s.config.routing).mono ?_ fun e s₁ h => .untouched h.1
    rintro policy s₁ ⟨hs₁, hp⟩
    rw [ends_bind]
    refine (install_guard_spec s.config.device_exclusions).mono ?_ ?_
    · rintro _ _ ⟨g, rfl⟩
      have hk := hs₁.kept.with_kernel (Function.update s₁.kernel GUARD_TABLE (some g))
      rw [ends_bind]
      refine (apply_policy_spec s.config policy s.config.device_exclusions).mono ?_ ?_
      · rintro _ s₂ ⟨ht, ha⟩
        have hk₂ := hk.trans ht.toKept
        have hg : Guarded s₂.kernel := ht.guarded.mpr guarded_update
        have hguarded : ∀ e : Failure,
            Reconciled set s (.error e) (adopt s.config policy s₂) := fun e =>
          .guarded ⟨rfl, hk₂.disk⟩ hk₂.degraded hg hk₂.store hk₂.caches
        rw [ends_bind, ends_modify, ends_bind]
        refine (external_spec _).mono ?_ fun e _ h => h.1 ▸ hguarded e
        rintro _ _ rfl
        rw [ends_bind]
        refine (apply_network_spec s.config).mono ?_ fun e _ h => h.1 ▸ hguarded e
        rintro _ _ ⟨rfl, hserver⟩
        rw [ends_bind]
        refine (external_spec _).mono ?_ fun e _ h => h.1 ▸ hguarded e
        rintro _ _ rfl
        rw [ends_bind]
        refine clear_guard_spec.mono ?_ ?_
        · rintro _ _ rfl
          refine .done ⟨rfl, hk₂.disk, rfl⟩ rfl rfl hserver (fun hs => ⟨hk₂.store hs, ?_⟩)
            fun hc => ⟨hk₂.caches hc, hp hc⟩
          have happlied := ha (hk.store hs)
          exact ⟨happlied.follows, happlied.installed.update_guard none⟩
        · rintro e _ ⟨rfl, -⟩
          exact .guarded ⟨rfl, hk₂.disk⟩ rfl hg hk₂.store hk₂.caches
      · rintro e s₂ ⟨ht, -⟩
        have hk₂ := hk.trans ht.toKept
        exact .guarded ⟨hk₂.config, hk₂.disk⟩ hk₂.degraded (ht.guarded.mpr guarded_update)
          hk₂.store hk₂.caches
    · rintro e _ ⟨rfl, -⟩
      exact .untouched hs₁
  · rintro e _ ⟨rfl, -⟩
    exact .untouched (.refl set _)

end

end Gofro.Agent
