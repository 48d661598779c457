import GofroRouter.Agent.FakeDns.Resolver
import GofroRouter.Lib.Fallible

/-!
# The controller

`controller.rs` and `controller/mode.rs`: a change of the configuration is compiled, applied under
the forwarding guard, saved, and made visible; whatever fails on the way is undone, or leaves the
controller degraded until a full reconcile. External commands may fail at every step.

* `update_config` with its two kinds of change, `committed_failure`, `set_auto_update`.
* `reconcile_locked` applies the configuration from scratch.
-/

namespace Gofro.Agent

open Geodata (RegexEngine Liveness Caches GeoData)
open Fallible (Op attempt)

/-- What the agent is started with. -/
structure Settings where
  lan : LanContext
  dns_port : ℕ
  panel_ports : PanelPorts
  geodata : GeoData

/-- What the controller reads and writes. -/
structure AppState where
  config : ControllerConfig
  /-- the saved configuration -/
  disk : ControllerConfig
  routing : RoutingPolicy
  routing_degraded : Bool
  fake_dns : FakeDns
  kernel : Nft.Kernel
  caches : Caches

/-- An error: its texts, the outermost first, and the marks that callers look for. -/
structure Failure where
  chain : List String
  /-- `PublishedSaveError` -/
  published : Bool
  /-- `CommittedRefreshFailed` -/
  committed : Bool
deriving DecidableEq

def Failure.of (message : String) : Failure := ⟨[message], false, false⟩

/-- An error gets a message in front of its own. -/
def Failure.context (failure : Failure) (message : String) : Failure :=
  { failure with chain := message :: failure.chain }

def Failure.text (failure : Failure) : String := String.intercalate ": " failure.chain

/-- An operation of the controller: it may fail, and it keeps what it has done. -/
abbrev Control := Op AppState Failure

/-- A step that does not touch the state. -/
def lift {α : Type} (result : Except String α) : Control α :=
  Op.of fun s => (result.mapError Failure.of, s)

/-- An outcome, as the end of an operation. -/
def conclude (outcome : Except Failure Unit) : Control Unit := Op.of fun s => (outcome, s)

/-- A command of which only success or failure matters here. -/
def external (step : String) (ok : Bool) : Control Unit :=
  if ok then pure () else throw (.of (step ++ " failed"))

/-- A script for nft. -/
def nft (script : Nft.Kernel → Except String Unit × Nft.Kernel) : Control Unit :=
  Op.of fun s => ((script s.kernel).1.mapError Failure.of, { s with kernel := (script s.kernel).2 })

/-! ## Steps -/

/-- How saving a file ends: not at all, or renamed into place with or without the directory
synced. -/
inductive SaveOutcome | failed | published | durable
deriving DecidableEq

/-- Writing `controller.json`: nothing, the new file without its sync, or all of it. -/
def save (outcome : SaveOutcome) (config : ControllerConfig) : Control Unit :=
  match outcome with
  | .failed => throw (.of "failed to save the configuration")
  | .published => do
    modify fun s => { s with disk := config }
    throw { Failure.of "configuration published but directory sync failed" with published := true }
  | .durable => modify fun s => { s with disk := config }

/-- `RoutingPolicy::compile`; reading the geodata may fail. -/
def compile [RegexEngine] (set : Settings) (ok : Bool) (alive : Liveness) (config : RoutingConfig) :
    Control RoutingPolicy :=
  Op.of fun s =>
    if ok then
      let (result, caches) := RoutingPolicy.compile set.geodata alive config s.caches
      (result.mapError Failure.of, { s with caches })
    else (.error (.of "failed to read geodata"), s)

/-- The guard stops the LAN while the table is rebuilt. -/
def Controller.install_guard (set : Settings) (ok : Bool) (exclusions : List MacAddress) :
    Control Unit := nft fun k => Agent.install_guard ok k set.lan exclusions

/-- The devices get into the table and into a new guard. -/
def Controller.publish_exclusions (set : Settings) (ok : Bool) (exclusions : List MacAddress) :
    Control Unit := nft fun k => Agent.publish_exclusions ok k set.lan exclusions

/-- A guard that cannot be removed leaves the controller degraded. -/
def Controller.clear_guard (ok : Bool) : Control Unit := do
  match ← attempt (nft fun k => Agent.clear_guard ok k) with
  | .ok () => pure ()
  | .error error =>
    modify fun s => { s with routing_degraded := true }
    throw (.of ("forwarding guard remains installed: " ++ error.text))

/-- The two steps of `apply_policy` that may fail. -/
structure ApplyFaults where
  nft : Bool
  sql : Bool

/-- The leases get the targets of a policy. -/
def commit_targets [RegexEngine] (ok : Bool) (policy : RoutingPolicy) : Control Unit :=
  Op.of fun s =>
    let (result, store) := s.fake_dns.store.commit_targets ok policy
    (result.mapError Failure.of, { s with fake_dns := { s.fake_dns with store } })

/-- The whole table for a policy, and then the targets of the leases. -/
def apply_policy [RegexEngine] (set : Settings) (faults : ApplyFaults) (config : ControllerConfig)
    (policy : RoutingPolicy) (exclusions : List MacAddress) : Control Unit := do
  let mappings := (← get).fake_dns.store.reclassified policy
  nft fun k => apply faults.nft k set.lan set.dns_port (.from_config config) policy mappings
    set.panel_ports exclusions
  commit_targets faults.sql policy

/-- The server of the tunnel has to be in the list. -/
def active_server (config : ControllerConfig) : Except String ServerProfile :=
  match config.active_server_key with
  | none => .error "активный VPN-сервер не выбран"
  | some key =>
    match config.servers.find? fun server => server.public_key = key with
    | none => .error "активный VPN-сервер отсутствует в списке"
    | some server => .ok server

/-- The tunnel needs a server; all else is up to the commands. -/
def apply_network (ok : Bool) (config : ControllerConfig) : Control Unit := do
  if config.vpn_enabled then discard (lift (active_server config))
  external "network" ok

/-! ## Changes of the configuration -/

/-- What has to be done about an edit: to save it, to render it, or also to set up the network. -/
inductive Change | config | policy | network
deriving DecidableEq

/-- The steps after a commit that was not quite complete. -/
structure RepairFaults where
  sync : Bool
  publish : Bool
  guard : Bool
  cleanup : Bool

/-- The text of `CommittedRefreshFailed`. -/
def REFRESH_FAILED : String :=
  "Operation committed, but status could not be refreshed. " ++
    "Refresh status before any further changes; do not repeat the write."

/-- The configuration is committed, but not everything has followed it. -/
def committed_failure (set : Settings) (faults : RepairFaults) (config : ControllerConfig)
    (error : Failure) (sync_required : Bool) : Control Failure := do
  modify fun s => { s with routing_degraded := true }
  let repair ← attempt do
    if sync_required then external "sync" faults.sync
    Controller.publish_exclusions set faults.publish config.device_exclusions
  let error ← match repair with
    | .error repair => do
      let error := error.context ("committed publication repair failed: " ++ repair.text)
      match ← attempt (Controller.install_guard set faults.guard config.device_exclusions) with
      | .ok () => pure error
      | .error guard => pure (error.context ("committed forwarding guard failed: " ++ guard.text))
    | .ok () => do
      match ← attempt (external "dns-cleanup" faults.cleanup) with
      | .ok () => pure error
      | .error cleanup =>
        pure (error.context ("committed DNS cleanup failed: " ++ cleanup.text))
  return { error.context REFRESH_FAILED with committed := true }

/-- The outcomes of everything that an update runs. -/
structure UpdateFaults where
  lock : Bool
  compile : Bool
  alive : Liveness
  snapshot : Bool
  guard : Bool
  network : Bool
  apply : ApplyFaults
  save : SaveOutcome
  rollback_network : Bool
  restore : Bool
  rollback : ApplyFaults
  publish : Bool
  cleanup : Bool
  clear : Bool
  repair : RepairFaults

section

variable [RegexEngine] (set : Settings) (faults : UpdateFaults)

/-- A change that leaves the routing table as it is. -/
def update_saved (next : ControllerConfig) : Control Unit := do
  match ← attempt (save faults.save next) with
  | .ok () => modify fun s => { s with config := next }
  | .error error =>
    if error.published then
      modify fun s => { s with config := next }
      throw (← committed_failure set faults.repair next error true)
    throw error

/-- The new configuration and policy, as the agent sees them. -/
def adopt (config : ControllerConfig) (policy : RoutingPolicy) (s : AppState) : AppState :=
  { s with
    config
    routing := policy
    fake_dns := { s.fake_dns with vpn_enabled := config.vpn_enabled } }

/-- What is done under the guard. -/
def protected_steps (network : Bool) (config next : ControllerConfig) (policy : RoutingPolicy) :
    Control Unit := do
  if network then apply_network faults.network next
  apply_policy set faults.apply next policy config.device_exclusions
  save faults.save next

/-- Back to the configuration before; both parts are tried. -/
def roll_back (network : Bool) (config : ControllerConfig) (active : RoutingPolicy) :
    Control Unit := do
  let network ← attempt do
    if network then
      apply_network faults.rollback_network config
      external "restore" faults.restore
  let policy ← attempt (apply_policy set faults.rollback config active config.device_exclusions)
  conclude (network >>= fun _ => policy)

/-- A change that failed before it was saved. -/
def abandon (network : Bool) (config : ControllerConfig) (active : RoutingPolicy)
    (error : Failure) : Control Unit := do
  match ← attempt (roll_back set faults network config active) with
  | .error rollback =>
    modify fun s => { s with routing_degraded := true }
    throw (.of ("configuration update failed: " ++ error.text ++ "; rollback failed: " ++
      rollback.text ++ "; forwarding guard remains installed"))
  | .ok () =>
    match ← attempt (Controller.clear_guard faults.clear) with
    | .ok () => throw error
    | .error guard =>
      throw (.of ("configuration update failed: " ++ error.text ++ "; " ++ guard.text))

/-- A change that has been saved is published and the guard is removed. -/
def finish (config next : ControllerConfig) : Control Unit := do
  if config.device_exclusions ≠ next.device_exclusions then
    Controller.publish_exclusions set faults.publish next.device_exclusions
    external "dns-cleanup" faults.cleanup
  Controller.clear_guard faults.clear

/-- The part of an update that runs under the guard. -/
def update_guarded (network : Bool) (config : ControllerConfig) (active : RoutingPolicy)
    (next : ControllerConfig) (policy : RoutingPolicy) : Control Unit := do
  match ← attempt (protected_steps set faults network config next policy) with
  | .error error =>
    if error.published then
      modify (adopt next policy)
      throw (← committed_failure set faults.repair next error true)
    abandon set faults network config active error
  | .ok () =>
    modify (adopt next policy)
    match ← attempt (finish set faults config next) with
    | .ok () => pure ()
    | .error error => throw (← committed_failure set faults.repair next error false)

/-- A change that is rendered into the routing table. -/
def update_applied (network : Bool) (next : ControllerConfig) : Control Unit := do
  let config := (← get).config
  let policy ← compile set faults.compile faults.alive next.routing
  let active := (← get).routing
  if network then external "snapshot" faults.snapshot
  Controller.install_guard set faults.guard config.device_exclusions
  update_guarded set faults network config active next policy

/-- Said until a reconcile has succeeded. -/
def DEGRADED : String :=
  "routing is degraded; full reconcile is required before configuration changes"

/-- A writer's change of the configuration. -/
abbrev Edit := ControllerConfig → Except String (ControllerConfig × Change)

/-- The edited configuration, with its exclusions normalized again. -/
def Edit.normalized (edit : Edit) : Edit := fun config => do
  let (next, change) ← edit config
  let device_exclusions ← normalize_exclusions next.device_exclusions
  return ({ next with device_exclusions }, change)

/-- A change of the configuration: guarded, applied, saved and made visible, or rolled back. -/
def update_config (edit : Edit) : Control Unit := do
  external "lock" faults.lock
  if (← get).routing_degraded then throw (.of DEGRADED)
  let (next, change) ← lift (edit.normalized (← get).config)
  match change with
  | .config => update_saved set faults next
  | .policy => update_applied set faults false next
  | .network => update_applied set faults true next

end

/-- The automatic updates of the agent itself; a file that is renamed but not synced counts as not
saved here. -/
def set_auto_update (lock : Bool) (outcome : SaveOutcome) (enabled : Bool) : Control Unit := do
  external "lock" lock
  let next := { (← get).config with auto_update_enabled := enabled }
  save outcome next
  modify fun s => { s with config := next }

/-! ## Reconciling -/

/-- The steps of a reconcile that may fail. -/
structure ReconcileFaults where
  sync : Bool
  compile : Bool
  alive : Liveness
  guard : Bool
  apply : ApplyFaults
  cleanup : Bool
  network : Bool
  retire : Bool
  clear : Bool

/-- Everything anew from the configuration in memory. -/
def reconcile_locked [RegexEngine] (set : Settings) (faults : ReconcileFaults) : Control Unit := do
  let config := (← get).config
  modify fun s => { s with routing_degraded := true }
  external "sync" faults.sync
  let policy ← compile set faults.compile faults.alive config.routing
  Controller.install_guard set faults.guard config.device_exclusions
  apply_policy set faults.apply config policy config.device_exclusions
  modify (adopt config policy)
  external "dns-cleanup" faults.cleanup
  apply_network faults.network config
  external "retire" faults.retire
  Controller.clear_guard faults.clear
  modify fun s => { s with routing_degraded := false }

end Gofro.Agent
