import GofroRouter.Agent.Controller.Servers
import GofroRouter.Agent.FakeDns.Maps

/-!
# Runs of the agent

The writers of the configuration, the reconciles, the queries and the purges, in any order, each
with failures at any of its steps.

* `Event.step`: one operation. `Consistent`: configuration, policy, leases and kernel agree.
* **`Sound.step`**, **`Sound.run`**: in every run, what is neither guarded nor degraded is
  consistent.
-/

namespace Gofro.Agent

open Geodata (RegexEngine)
open Fallible
open RoutingPolicy (CachesFor compiled)

/-! ## What the routing table depends on -/

section

variable {egress egress' : VpnEgress}

theorem target_congr (he : egress'.enabled = egress.enabled)
    (hw : egress.enabled = true → egress'.warp_source = egress.warp_source) :
    egress'.target = egress.target := by
  funext target
  unfold VpnEgress.target
  cases hv : egress.enabled with
  | true => rw [hw hv, he, hv]
  | false =>
    rw [he, hv]
    cases target <;> simp [effective_target]

theorem active_source_congr (he : egress'.enabled = egress.enabled)
    (hw : egress.enabled = true → egress'.warp_source = egress.warp_source) :
    egress'.active_source = egress.active_source := by
  unfold VpnEgress.active_source
  cases hv : egress.enabled with
  | true => rw [hw hv, he, hv]
  | false =>
    rw [he, hv]
    cases egress'.warp_source <;> cases egress.warp_source <;> rfl

theorem policy_edits_congr (he : egress'.enabled = egress.enabled)
    (hw : egress.enabled = true → egress'.warp_source = egress.warp_source) (lan : LanContext)
    (dns_port : ℕ) (policy : RoutingPolicy) (panel_ports : PanelPorts) :
    policy_edits lan dns_port egress' policy panel_ports =
      policy_edits lan dns_port egress policy panel_ports := by
  have ht := target_congr he hw
  have ha := active_source_congr he hw
  have hmark : mark_rules lan egress' policy panel_ports =
      mark_rules lan egress policy panel_ports := by
    simp only [mark_rules, classification, fallback_rule, ht]
  have hguard : warp_guard_rules lan egress' = warp_guard_rules lan egress := by
    simp only [warp_guard_rules, ha]
  have hchains : policy_chains lan dns_port egress' policy panel_ports =
      policy_chains lan dns_port egress policy panel_ports := by
    simp only [policy_chains, he, ha, hmark, hguard]
  rw [policy_edits, policy_edits, hchains]

end

section

variable [RegexEngine] {set : Settings} {s s' : AppState}

/-- **A configuration that is rendered alike** is applied as it stands. -/
theorem Applied.congr {config next : ControllerConfig} {policy : RoutingPolicy}
    {exclusions exclusions' : List MacAddress} (h : Applied set config policy exclusions s)
    (hs : s.fake_dns.store.Inv) (he : SameEgress config next)
    (hx : ∀ mac, mac ∈ exclusions' ↔ mac ∈ exclusions)
    (hdns : s'.fake_dns.store = s.fake_dns.store) (hk : s'.kernel TABLE = s.kernel TABLE) :
    Applied set next policy exclusions' s' := by
  have hedits := policy_edits_congr
    (show (VpnEgress.from_config next).enabled = (VpnEgress.from_config config).enabled from he.vpn)
    (fun hv => warp_source_congr (he.active hv)) set.lan set.dns_port policy set.panel_ports
  obtain ⟨t, ht, hr⟩ := h.installed.congr hs.nodup hs.nodup (fun _ => Iff.rfl) hx
  refine ⟨hdns ▸ h.follows, ?_⟩
  rw [hdns, hedits]
  exact ⟨t, hk.trans ht, hr⟩

/-! ## The invariant -/

/-- Configuration, policy, leases and kernel agree. -/
structure Consistent (set : Settings) (s : AppState) : Prop where
  policy : compiled set.geodata s.config.routing = .ok s.routing
  vpn : s.fake_dns.vpn_enabled = s.config.vpn_enabled
  applied : Applied set s.config s.routing s.config.device_exclusions s

/-- **The invariant of all runs.** -/
structure Sound (set : Settings) (s : AppState) : Prop where
  store : s.fake_dns.store.Inv
  caches : CachesFor set.geodata s.caches
  unguarded : ¬ Guarded s.kernel → Consistent set s
  ready : s.routing_degraded = false → Consistent set s ∧ HasServer s.config

theorem Consistent.congr (h : Consistent set s) (hs : s.fake_dns.store.Inv)
    (he : SameEgress s.config s'.config) (hr : s'.config.routing = s.config.routing)
    (hx : ∀ mac, mac ∈ s'.config.device_exclusions ↔ mac ∈ s.config.device_exclusions)
    (hrouting : s'.routing = s.routing) (hdns : s'.fake_dns = s.fake_dns)
    (hk : s'.kernel = s.kernel) : Consistent set s' := by
  refine ⟨?_, ?_, ?_⟩
  · rw [hr, hrouting]
    exact h.policy
  · rw [hdns, he.vpn]
    exact h.vpn
  · rw [hrouting]
    exact h.applied.congr hs he hx (by rw [hdns]) (by rw [hk])

/-! ## Updates -/

/-- **A degraded controller refuses every change.** -/
theorem update_config_degraded {faults : UpdateFaults} {edit : Edit}
    (hd : s.routing_degraded = true) :
    Ends (update_config set faults edit) (fun _ _ => False)
      (fun e s' => s' = s ∧ e.committed = false) s := by
  unfold update_config
  rw [ends_bind]
  refine (external_spec _).mono ?_ fun e _ h => ⟨h.1, h.2.committed⟩
  rintro _ s₀ rfl
  rw [ends_bind, ends_get, hd]
  exact ⟨rfl, rfl⟩

/-! ## What the operations keep -/

theorem Sound.cached (h : Sound set s) (hs : Cached set s s') : Sound set s' := by
  obtain ⟨caches, rfl, hc⟩ := hs
  have hcon : Consistent set s → Consistent set { s with caches } := fun h' =>
    h'.congr h.store (.refl _) rfl (fun _ => Iff.rfl) rfl rfl rfl
  exact ⟨h.store, hc h.caches, fun hg => hcon (h.unguarded hg),
    fun hd => ⟨hcon (h.ready hd).1, (h.ready hd).2⟩⟩

/-- **A reconcile keeps the invariant**, whatever fails. -/
theorem Sound.reconcile (h : Sound set s) {res : Except Failure Unit}
    (hres : Reconciled set s res s') : Sound set s' := by
  cases hres with
  | untouched hs =>
    have hdegraded : Sound set { s with routing_degraded := true } :=
      ⟨h.store, h.caches, fun hg => (h.unguarded hg).congr h.store (.refl _) rfl (fun _ => Iff.rfl)
        rfl rfl rfl, fun hd => nomatch hd⟩
    exact hdegraded.cached hs
  | guarded hconfig hd hg hs hc =>
    exact ⟨hs h.store, hc h.caches, fun hg' => absurd hg hg', fun h => by rw [hd] at h; cases h⟩
  | done hconfig hd hv hserver hs hc =>
    obtain ⟨hconfig, -, rfl⟩ := hconfig
    obtain ⟨hstore, happlied⟩ := hs h.store
    obtain ⟨hcaches, hpolicy⟩ := hc h.caches
    rw [← hconfig] at hv hserver happlied hpolicy
    have hcon : Consistent set s' := ⟨hpolicy, hv, happlied⟩
    exact ⟨hstore, hcaches, fun _ => hcon, fun _ => ⟨hcon, hserver⟩⟩

/-- **A compensated operation of the resolver keeps the invariant.** -/
theorem Sound.synced (h : Sound set s) {fake_dns : FakeDns} {kernel : Nft.Kernel}
    (hs : FakeDns.Synced s.routing true s.fake_dns s.kernel fake_dns kernel) :
    Sound set { s with fake_dns, kernel } := by
  have hcon : Consistent set s → Consistent set { s with fake_dns, kernel } := fun h' =>
    ⟨h'.policy, hs.vpn.trans h'.vpn, hs.follows h'.applied.follows,
      hs.installed rfl _ _ h'.applied.installed⟩
  refine ⟨hs.store, h.caches, fun hg => hcon (h.unguarded fun hg' => hg ?_),
    fun hd => ⟨hcon (h.ready hd).1, (h.ready hd).2⟩⟩
  show (kernel GUARD_TABLE).isSome = true
  rw [hs.guard]
  exact hg'

theorem Sound.auto_update (h : Sound set s) (lock : Bool) (outcome : SaveOutcome) (enabled : Bool) :
    Ends (set_auto_update lock outcome enabled) (fun _ s' => Sound set s')
      (fun _ s' => Sound set s') s := by
  have hsame : ∀ config disk : ControllerConfig, config = s.config ∨
      config = { s.config with auto_update_enabled := enabled } →
      Sound set { s with config, disk } := by
    intro config disk hc
    have hcon : Consistent set s → Consistent set { s with config, disk } := fun h' => by
      rcases hc with rfl | rfl
      · exact h'.congr h.store (.refl _) rfl (fun _ => Iff.rfl) rfl rfl rfl
      · exact h'.congr h.store ⟨rfl, fun _ => rfl⟩ rfl (fun _ => Iff.rfl) rfl rfl rfl
    refine ⟨h.store, h.caches, fun hg => hcon (h.unguarded hg),
      fun hd => ⟨hcon (h.ready hd).1, ?_⟩⟩
    rcases hc with rfl | rfl
    · exact (h.ready hd).2
    · exact (h.ready hd).2
  unfold set_auto_update
  rw [ends_bind]
  refine (external_spec _).mono ?_ fun _ _ hs => hs.1 ▸ h
  rintro _ s₀ rfl
  rw [ends_bind, ends_get, ends_bind]
  refine (save_spec _).mono ?_ ?_
  · rintro _ _ ⟨-, rfl⟩
    exact hsame _ _ (.inr rfl)
  · rintro _ _ ⟨-, ⟨-, -, rfl⟩ | ⟨-, -, rfl⟩⟩
    · exact h
    · exact hsame _ _ (.inl rfl)

/-! ## Writers -/

variable [Management] [Idna]

theorem Operation.run_degraded (set : Settings) (op : Operation) (faults : UpdateFaults)
    (hd : s.routing_degraded = true) :
    Ends (op.run set faults) (fun _ _ => False) (fun e s' => s' = s ∧ e.committed = false) s := by
  unfold Operation.run
  rw [ends_bind]
  refine (lift_spec _).mono ?_ fun e _ h => ⟨h.1, h.2.committed⟩
  rintro edit s₀ ⟨rfl, -⟩
  exact update_config_degraded hd

/-- The outcomes of a writer. -/
def Operation.Outcome (set : Settings) (op : Operation) (s : AppState)
    (res : Except Failure Unit) (s' : AppState) : Prop :=
  (∃ e, res = .error e ∧ e.committed = false ∧ s' = s) ∨
    s.routing_degraded = false ∧ ∃ edit, op.edit = .ok edit ∧ Updated set edit s res s'

theorem Operation.run_spec (set : Settings) (s : AppState) (op : Operation) (faults : UpdateFaults) :
    Ends (op.run set faults) (fun u s' => op.Outcome set s (.ok u) s')
      (fun e s' => op.Outcome set s (.error e) s') s := by
  cases hd : s.routing_degraded with
  | true =>
    exact (Operation.run_degraded set op faults hd).mono (fun _ _ h => h.elim)
      fun e _ h => .inl ⟨e, rfl, h.2, h.1⟩
  | false =>
    unfold Operation.run
    rw [ends_bind]
    refine (lift_spec _).mono ?_ fun e _ h => .inl ⟨e, rfl, h.2.committed, h.1⟩
    rintro edit s₀ ⟨rfl, hop⟩
    exact update_config_spec.mono (fun _ _ h => .inr ⟨hd, edit, hop, h⟩)
      fun _ _ h => .inr ⟨hd, edit, hop, h⟩

/-- **A writer keeps the invariant**, whatever fails. -/
theorem Sound.update (h : Sound set s) {op : Operation} {res : Except Failure Unit}
    (hres : op.Outcome set s res s') : Sound set s' := by
  obtain ⟨_, -, -, rfl⟩ | ⟨hd, edit, hop, hu⟩ := hres
  · exact h
  obtain ⟨hcon, hserver⟩ := h.ready hd
  cases hu with
  | refused he hs => exact h.cached hs
  | @saved next hn =>
    obtain ⟨he, hr, hx⟩ := op.same hop hn hserver
    have hcon' : Consistent set { s with config := next, disk := next } :=
      hcon.congr h.store he hr hx rfl rfl rfl
    exact ⟨h.store, h.caches, fun _ => hcon', fun _ => ⟨hcon', op.hasServer hop hn hserver⟩⟩
  | unsynced hn he hk =>
    obtain ⟨he, hr, hx⟩ := op.same hop hn hserver
    refine ⟨h.store, h.caches, fun hg => ?_, fun hd => nomatch hd⟩
    rcases hk with hk | rfl
    · exact absurd hk hg
    · exact hcon.congr h.store he hr hx rfl rfl rfl
  | stuck he hs hg =>
    exact ⟨hs.store h.store, hs.caches h.caches, fun hg' => absurd hg hg', fun hd => nomatch hd⟩
  | @rolled_back e s₁ he hs ha =>
    have hcon' : Consistent set
        { s₁ with kernel := Function.update s₁.kernel GUARD_TABLE none } := by
      have happlied := ha h.store
      refine ⟨?_, ?_, ?_⟩
      · rw [hs.config, hs.routing]
        exact hcon.policy
      · rw [hs.vpn, hs.config]
        exact hcon.vpn
      · rw [hs.config, hs.routing]
        exact ⟨happlied.follows, happlied.installed.update_guard none⟩
    exact ⟨hs.store h.store, hs.caches h.caches, fun _ => hcon',
      fun _ => ⟨hcon', by rw [hs.config]; exact hserver⟩⟩
  | applied hn hconfig hd' hv hs hc =>
    obtain ⟨rfl, -, rfl⟩ := hconfig
    obtain ⟨hstore, happlied⟩ := hs h.store
    obtain ⟨hcaches, hpolicy⟩ := hc h.caches
    have hcon' : Consistent set s' := ⟨hpolicy, hv, happlied⟩
    exact ⟨hstore, hcaches, fun _ => hcon', fun _ => ⟨hcon', op.hasServer hop hn hserver⟩⟩
  | unrefreshed hn he hconfig hd' hg hs hc =>
    exact ⟨hs h.store, hc h.caches, fun hg' => absurd hg hg', fun h => by rw [hd'] at h; cases h⟩

/-! ## Events -/

/-- What changes the controller: a request, a reconcile, or the resolver. -/
inductive Event
  | update (op : Operation) (faults : UpdateFaults)
  | auto_update (lock : Bool) (outcome : SaveOutcome) (enabled : Bool)
  | reconcile (faults : ReconcileFaults)
  | query (message : Message) (domain : String) (faults : QueryFaults)
  | purge (faults : FakeDns.PurgeFaults)

/-- The compensating step of a resolver operation, should it be needed, succeeds. -/
def Event.compensated : Event → Bool
  | .query _ _ faults => faults.rollback
  | .purge faults => faults.sql || faults.reinstall
  | _ => true

/-- The locks let one operation at a time change the leases and the kernel. -/
def Event.step (set : Settings) : Event → AppState → AppState
  | .update op faults, s => (op.run set faults s).2
  | .auto_update lock outcome enabled, s => (set_auto_update lock outcome enabled s).2
  | .reconcile faults, s => (reconcile_locked set faults s).2
  | .query message domain faults, s =>
    let (_, fake_dns, kernel) :=
      s.fake_dns.rewrite_response s.kernel message domain s.routing set.lan faults
    { s with fake_dns, kernel }
  | .purge faults, s =>
    let (_, fake_dns, kernel) := s.fake_dns.purge_expired s.kernel faults
    { s with fake_dns, kernel }

def run (set : Settings) (s : AppState) (events : List Event) : AppState :=
  events.foldl (fun s event => event.step set s) s

/-- **Every event keeps the invariant.** -/
theorem Sound.step (h : Sound set s) {event : Event} (hc : event.compensated = true) :
    Sound set (event.step set s) := by
  cases event with
  | update op faults =>
    exact ((op.run_spec set s faults).mono (fun _ _ h' => h.update h') fun _ _ h' => h.update h').state
  | auto_update lock outcome enabled => exact (h.auto_update lock outcome enabled).state
  | reconcile faults =>
    exact ((reconcile_spec set s faults).mono (fun _ _ h' => h.reconcile h') fun _ _ h' => h.reconcile h').state
  | query message domain faults =>
    have hs := FakeDns.rewrite_response_synced h.store
      (rfl : s.fake_dns.rewrite_response s.kernel message domain s.routing set.lan faults = _)
    rw [show faults.rollback = true from hc] at hs
    exact h.synced hs
  | purge faults =>
    have hs := FakeDns.purge_expired_synced s.routing h.store
      (rfl : s.fake_dns.purge_expired s.kernel faults = _)
    rw [show (faults.sql || faults.reinstall) = true from hc] at hs
    exact h.synced hs

/-- **Every run keeps the invariant.** -/
theorem Sound.run (h : Sound set s) {events : List Event}
    (hc : ∀ event ∈ events, event.compensated = true) : Sound set (run set s events) := by
  induction events generalizing s with
  | nil => exact h
  | cons event events ih =>
    exact ih (h.step (hc event List.mem_cons_self)) fun e he => hc e (List.mem_cons_of_mem _ he)

end

end Gofro.Agent
