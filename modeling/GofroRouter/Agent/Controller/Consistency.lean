import GofroRouter.Agent.Controller.Runs
import GofroRouter.Agent.FakeDns.Enforce

/-!
# Configuration, policy, leases and kernel

What every run of the agent, from its start on, keeps in agreement.

* `Agrees`: the kernel's table is what the configuration would be rendered to.
* **`controller_consistent`**: a controller that is not degraded, or not guarded, agrees.
* **`leases_consistent`**: memory, database and kernel hold the same leases.
-/

namespace Gofro.Agent

open Geodata (RegexEngine)
open Fallible
open RoutingPolicy (CachesFor compiled)

section

variable [RegexEngine]

/-- The state before the first reconcile (`main.rs`): all is loaded, and the guard is installed. -/
structure Started (set : Settings) (s : AppState) : Prop where
  degraded : s.routing_degraded = true
  guarded : Guarded s.kernel
  disk : s.disk = s.config
  vpn : s.fake_dns.vpn_enabled = s.config.vpn_enabled
  routing : ∃ alive, RoutingPolicy.compile set.geodata alive s.config.routing .empty =
    (.ok s.routing, s.caches)
  store : ∃ db max_leases sql clock db',
    Store.open_with_limits db max_leases sql clock = (.ok s.fake_dns.store, db')

/-- The script for a configuration leaves this table, in any kernel. -/
def Builds (set : Settings) (config : ControllerConfig) (policy : RoutingPolicy)
    (mappings : List FakeMapping) (t : Option Nft.Table) : Prop :=
  ∀ k, Nft.run k (render_with_exclusions set.lan set.dns_port (.from_config config) policy mappings
    set.panel_ports config.device_exclusions) = some (Function.update k TABLE t)

/-- Policy, table, tunnel and leases are those of the configuration. -/
structure Agrees (set : Settings) (s : AppState) : Prop where
  policy : compiled set.geodata s.config.routing = .ok s.routing
  table : Builds set s.config s.routing (s.fake_dns.store.reclassified s.routing) (s.kernel TABLE)
  vpn : s.fake_dns.vpn_enabled = s.config.vpn_enabled
  targets : s.fake_dns.store.Follows s.routing

variable {set : Settings} {s : AppState}

theorem Started.sound (h : Started set s) : Sound set s := by
  obtain ⟨alive, hc⟩ := h.routing
  obtain ⟨_, _, _, _, _, ho⟩ := h.store
  have hcaches := (RoutingPolicy.compile_eq alive s.config.routing (CachesFor.empty set.geodata)).2
  rw [hc] at hcaches
  refine ⟨(Store.open_inv ho).1, hcaches, fun hg => absurd h.guarded hg, fun hd => ?_⟩
  rw [h.degraded] at hd
  cases hd

/-- Leases that have their targets are not changed by looking them up again. -/
theorem Store.Follows.reclassified {s : Store} {policy : RoutingPolicy} (h : s.Follows policy) :
    s.reclassified policy = s.mappings := by
  refine List.map_congr_left fun l hl => ?_
  rw [← h l hl]

theorem Consistent.agrees (h : Consistent set s) (hs : s.fake_dns.store.Inv) : Agrees set s := by
  refine ⟨h.policy, fun k => ?_, h.vpn, h.applied.follows⟩
  obtain ⟨t, ht, hr⟩ := h.applied.installed
  rw [h.applied.follows.reclassified, render_with_exclusions, Nft.run_load,
    (runEdits_table hs.nodup).mpr hr, ht]
  rfl

/-! ## Degraded controllers -/

/-- **Only a reconcile that succeeds** ends the degraded state. -/
theorem degraded_step [Management] [Idna] {event : Event} (hd : s.routing_degraded = true)
    (hd' : (event.step set s).routing_degraded = false) :
    ∃ faults, event = .reconcile faults ∧
      ((reconcile_locked set faults).exec s).1 = .ok () := by
  cases event with
  | update op faults =>
    have hsame : ((op.run set faults).exec s).2 = s :=
      ((Operation.run_degraded set op faults hd).mono (fun _ _ h => h.elim) fun _ _ h => h.1).state
    rw [show Event.step set (.update op faults) s = s from hsame, hd] at hd'
    cases hd'
  | auto_update lock outcome enabled =>
    have hsame : Ends (set_auto_update lock outcome enabled)
        (fun _ s' => s'.routing_degraded = true) (fun _ s' => s'.routing_degraded = true) s := by
      unfold set_auto_update
      rw [ends_bind]
      refine (external_spec _).mono ?_ fun _ _ h => h.1 ▸ hd
      rintro _ s₀ rfl
      rw [ends_bind, ends_get, ends_bind]
      refine (save_spec _).mono ?_ ?_
      · rintro _ _ ⟨-, rfl⟩
        exact hd
      · rintro _ _ ⟨-, ⟨-, -, rfl⟩ | ⟨-, -, rfl⟩⟩
        · exact hd
        · exact hd
    have htrue := hsame.state
    rw [show Event.step set (.auto_update lock outcome enabled) s =
      ((set_auto_update lock outcome enabled).exec s).2 from rfl, htrue] at hd'
    cases hd'
  | reconcile faults =>
    refine ⟨faults, rfl, ?_⟩
    have hspec := reconcile_spec set s faults
    have hstep : ((reconcile_locked set faults).exec s).2.routing_degraded = false := hd'
    unfold Ends at hspec
    rcases hres : (reconcile_locked set faults).exec s with ⟨e | u, s'⟩
    · rw [hres] at hspec hstep
      cases hspec with
      | untouched hs =>
        obtain ⟨caches, rfl, -⟩ := hs
        cases hstep
      | guarded hconfig hdeg => rw [show s'.routing_degraded = false from hstep] at hdeg; cases hdeg
    · rfl
  | query message domain faults => exact absurd hd (by rw [show s.routing_degraded = false from hd']; simp)
  | purge faults => exact absurd hd (by rw [show s.routing_degraded = false from hd']; simp)

end

/-- **A change that is not rendered** would be rendered to the same table. -/
theorem Operation.same_table [Management] [Idna] {set : Settings} {op : Operation} {edit : Edit}
    (hop : op.edit = .ok edit) {config next : ControllerConfig}
    (h : edit.normalized config = .ok (next, .config)) (hs : HasServer config)
    {policy : RoutingPolicy} {mappings : List FakeMapping}
    (hn : (mappings.map FakeMapping.fake).Nodup) (t : Option Nft.Table) :
    Builds set next policy mappings t ↔ Builds set config policy mappings t := by
  obtain ⟨he, -, hx⟩ := op.same hop h hs
  have hedits := policy_edits_congr
    (show (VpnEgress.from_config next).enabled = (VpnEgress.from_config config).enabled from he.vpn)
    (fun hv => warp_source_congr (he.active hv)) set.lan set.dns_port policy set.panel_ports
  have hruns : Nft.runEdits .empty (table_edits set.lan set.dns_port (.from_config next) policy
      mappings set.panel_ports next.device_exclusions) =
      Nft.runEdits .empty (table_edits set.lan set.dns_port (.from_config config) policy mappings
        set.panel_ports config.device_exclusions) := by
    apply Option.ext
    intro t
    rw [runEdits_table hn, runEdits_table hn, hedits]
    exact ⟨fun h => h.congr hn hn (fun _ => Iff.rfl) fun mac => (hx mac).symm,
      fun h => h.congr hn hn (fun _ => Iff.rfl) hx⟩
  refine forall_congr' fun k => ?_
  rw [render_with_exclusions, render_with_exclusions, Nft.run_load, Nft.run_load, hruns]

/-! ## Leases -/

/-- The map and the sets of the table hold exactly these leases. -/
structure Mirrored (leases : List Lease) (t : Nft.Table) : Prop where
  map : ∃ m : Nft.AddrMap, t (.map "fake_to_real") = some m ∧
    ∀ fake real, m fake = some real ↔ ∃ l ∈ leases, l.fake = fake ∧ l.mapping.real = real
  sets : ∀ target, ∃ elems : Finset Nft.Elem,
    t (.set (fake_set target)) = some ⟨.ipv4_addr, elems⟩ ∧
    (∀ e, e ∈ elems ↔ ∃ l ∈ leases, l.mapping.target = target ∧ e = .addr l.fake) ∧
    ∀ l ∈ leases, .addr l.fake ∈ elems ↔ target = l.mapping.target

theorem Rendered.mirrored {base : List Nft.Edit} {s : Store} {exclusions : List MacAddress}
    {t : Nft.Table} (h : Rendered base s.mappings exclusions t) (hs : s.Inv) :
    Mirrored s.leases t := by
  have helems : ∀ target e, e ∈ fake_elems s.mappings target ↔
      ∃ l ∈ s.leases, l.mapping.target = target ∧ e = .addr l.fake := by
    intro target e
    simp only [mem_fake_elems, Store.mappings, List.mem_map, exists_exists_and_eq_and]
    rfl
  refine ⟨⟨_, h.fake_to_real, fun fake real => ?_⟩,
    fun target => ⟨_, h.fakes target, helems target, fun l hl => ?_⟩⟩
  · rw [fake_map_eq_some hs.nodup]
    simp only [Store.mappings, List.mem_map, exists_exists_and_eq_and]
    rfl
  · rw [helems]
    constructor
    · rintro ⟨l', hl', rfl, he⟩
      rw [hs.eq_of_fake hl hl' (Nft.Elem.addr.inj he)]
    · rintro rfl
      exact ⟨l, hl, rfl, rfl⟩

/-! ## Runs -/

section

variable [RegexEngine] [Management] [Idna] {set : Settings} {s₀ : AppState} {events : List Event}

/-- **The controller in every run**: without the guard, or not degraded, everything agrees; a
degraded controller refuses all changes until a reconcile succeeds; a change that is saved without
rendering it would be rendered to the table that is there. -/
theorem controller_consistent (h₀ : Started set s₀)
    (hc : ∀ event ∈ events, event.compensated = true) :
    (¬ Guarded (run set s₀ events).kernel → Agrees set (run set s₀ events)) ∧
    (¬ Agrees set (run set s₀ events) → (run set s₀ events).routing_degraded = true) ∧
    ((run set s₀ events).routing_degraded = true →
      (∀ (op : Operation) faults, ∃ e,
        (op.run set faults).exec (run set s₀ events) = (.error e, run set s₀ events)) ∧
      ∀ event : Event, (event.step set (run set s₀ events)).routing_degraded = false →
        ∃ faults, event = .reconcile faults ∧
          ((reconcile_locked set faults).exec (run set s₀ events)).1 = .ok ()) ∧
    ((run set s₀ events).routing_degraded = false → ∀ (op : Operation) edit next,
      op.edit = .ok edit → edit.normalized (run set s₀ events).config = .ok (next, .config) →
      Builds set next (run set s₀ events).routing
        ((run set s₀ events).fake_dns.store.reclassified (run set s₀ events).routing)
        ((run set s₀ events).kernel TABLE)) := by
  have h := h₀.sound.run hc
  generalize run set s₀ events = s at h ⊢
  refine ⟨fun hg => (h.unguarded hg).agrees h.store, fun ha => ?_, fun hd => ⟨fun op faults => ?_,
    fun event hd' => degraded_step hd hd'⟩, fun hd op edit next hop hn => ?_⟩
  · by_contra hd
    exact ha ((h.ready (Bool.not_eq_true _ ▸ hd)).1.agrees h.store)
  · have hspec := Operation.run_degraded set op faults hd
    unfold Ends at hspec
    rcases hres : (op.run set faults).exec s with ⟨e | u, s'⟩
    · rw [hres] at hspec
      obtain ⟨rfl, -⟩ := hspec
      exact ⟨e, rfl⟩
    · rw [hres] at hspec
      exact hspec.elim
  · obtain ⟨hcon, hserver⟩ := h.ready hd
    rw [op.same_table hop hn hserver (h.store.nodup_reclassified _)]
    exact (hcon.agrees h.store).table

end

/-! ### A first run -/

/-- No managed host is refused. -/
@[reducible] def sampleManagement : Management := ⟨fun _ => .ok ()⟩

def sampleSettings : Settings := ⟨sampleLan, 5353, ⟨80, 443⟩, .empty⟩

def sampleServer : ServerProfile := ⟨"vps", "", "203.0.113.1:51820", "key", none, none, none⟩

def sampleConfig : ControllerConfig := ⟨false, [], true, some "key", [sampleServer], blockRouting⟩

/-- A state after a start: nothing has been applied yet. -/
def sampleState : AppState where
  config := sampleConfig
  disk := sampleConfig
  routing := blockPolicy
  routing_degraded := true
  fake_dns := sampleDns
  kernel := fun name => if name = GUARD_TABLE then some .empty else none
  caches := .empty

def sampleReconcile : ReconcileFaults :=
  ⟨true, true, ⟨fun _ => true, fun _ => true⟩, true, ⟨true, true⟩, true, true, true, true⟩

/-- The first reconcile, and a query for the blocked name. -/
def startupEvents : List Event :=
  [.reconcile sampleReconcile, .query blockedAnswer "a.example" sampleFaults]

theorem sampleState_started :
    letI := sampleRegex
    Started sampleSettings sampleState :=
  letI := sampleRegex
  ⟨rfl, rfl, rfl, rfl, ⟨⟨fun _ => true, fun _ => true⟩, rfl⟩,
    ⟨.empty, 4096, ⟨true, true, true⟩, 0, .empty, rfl⟩⟩

theorem startupEvents_compensated :
    letI := sampleRegex
    letI := sampleIdna
    letI := sampleManagement
    ∀ event ∈ startupEvents, event.compensated = true := by
  let _ := sampleRegex
  let _ := sampleIdna
  let _ := sampleManagement
  simp [startupEvents, Event.compensated, sampleFaults]

theorem startup_ready :
    letI := sampleRegex
    letI := sampleIdna
    letI := sampleManagement
    (run sampleSettings sampleState startupEvents).routing_degraded = false ∧
      (run sampleSettings sampleState startupEvents).fake_dns.store.leases.map Lease.fake =
        [FIRST_FAKE] := by
  let _ := sampleRegex
  let _ := sampleIdna
  let _ := sampleManagement
  decide +kernel

/-- `controller_consistent` for the first run, which ends without the guard. -/
theorem controller_consistent_sample :
    letI := sampleRegex
    letI := sampleIdna
    letI := sampleManagement
    Agrees sampleSettings (run sampleSettings sampleState startupEvents) := by
  let _ := sampleRegex
  let _ := sampleIdna
  let _ := sampleManagement
  have h := controller_consistent sampleState_started startupEvents_compensated
  by_contra ha
  have hd := h.2.1 ha
  rw [startup_ready.1] at hd
  cases hd

section

variable [RegexEngine] [Management] [Idna] {set : Settings} {s₀ : AppState} {events : List Event}

/-- **The leases in every run** that is not degraded: the kernel's map and sets, and the rows of
the database, are those of the leases in memory, and a purge deletes only what is there. -/
theorem leases_consistent (h₀ : Started set s₀)
    (hc : ∀ event ∈ events, event.compensated = true)
    (hd : (run set s₀ events).routing_degraded = false) :
    (∃ t, (run set s₀ events).kernel TABLE = some t ∧
      Mirrored (run set s₀ events).fake_dns.store.leases t) ∧
    (∀ r, r ∈ (run set s₀ events).fake_dns.store.connection ↔
      ∃ l ∈ (run set s₀ events).fake_dns.store.leases, l.row = r) ∧
    ∀ clock expired, (run set s₀ events).fake_dns.store.expired clock = .ok expired →
      ∃ k', Nft.run (run set s₀ events).kernel
        (Nft.edits TABLE (removal_edits expired)) = some k' := by
  have h := h₀.sound.run hc
  generalize run set s₀ events = s at h hd ⊢
  obtain ⟨hcon, -⟩ := h.ready hd
  have hinst := hcon.applied.installed
  obtain ⟨t, ht, hr⟩ := hinst
  exact ⟨⟨t, ht, hr.mirrored h.store⟩, h.store.rows, fun clock expired he =>
    FakeDns.expired_accepted h.store hcon.applied.installed he⟩

end

/-- `leases_consistent` for the first run, which leaves one lease. -/
theorem leases_consistent_sample :
    letI := sampleRegex
    letI := sampleIdna
    letI := sampleManagement
    ∃ t, (run sampleSettings sampleState startupEvents).kernel TABLE = some t ∧
      Mirrored (run sampleSettings sampleState startupEvents).fake_dns.store.leases t :=
  letI := sampleRegex
  letI := sampleIdna
  letI := sampleManagement
  (leases_consistent sampleState_started startupEvents_compensated startup_ready.1).1

end Gofro.Agent
