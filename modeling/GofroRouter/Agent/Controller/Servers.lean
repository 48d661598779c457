import GofroRouter.Agent.Controller.Spec

/-!
# The writers of the configuration

`controller/servers.rs` and the other callers of `update_config`: each is a check, and an edit that
says which kind of change it is.

* `Operation.edit`: the edit of every writer; `Operation.run`: the whole operation.
* `Operation.edited`: what the edits can do, once for all writers (`Edited`).
* **`Edited.hasServer`**: no edit leaves the tunnel without its server.
* **`Edited.same`**: an edit that is not rendered does not change what is rendered.
-/

namespace Gofro.Agent

open Geodata (RegexEngine)

/-! ## Edits -/

/-- An import of a key that is there replaces the profile and keeps what it does not say. -/
def replace_imported_server (config : ControllerConfig) (server : ServerProfile) :
    Option (ControllerConfig × Bool) := do
  let index ← config.servers.findIdx? fun item => item.public_key = server.public_key
  let previous ← config.servers[index]?
  let reconnect := config.vpn_enabled && config.active_server_key = some server.public_key
  -- a managed server keeps its management data and endpoint
  let server := if previous.management.isSome then
      { server with management := previous.management, endpoint := previous.endpoint }
    else server
  let server := { server with emoji := previous.emoji }
  return ({ config with servers := config.servers.set index server }, reconnect)

/-- A new server; the first one becomes active. -/
def insert_server (server : ServerProfile) : Edit := fun config => do
  bail_if (config.servers.any fun item => item.public_key = server.public_key)
    "сервер с таким public key уже существует"
  let becomes_active := config.active_server_key.isNone
  let active_server_key :=
    if becomes_active then some server.public_key else config.active_server_key
  return ({ config with active_server_key, servers := config.servers ++ [server] },
    if becomes_active && config.vpn_enabled then .network else .config)

/-- An import replaces a server or adds one. -/
def upsert_server (server : ServerProfile) : Edit := fun config =>
  match replace_imported_server config server with
  | some (next, reconnect) => .ok (next, if reconnect then .network else .config)
  | none => insert_server server config

/-- The edited server, before it is checked. -/
def ServerUpdate.apply (update : ServerUpdate) (server : ServerProfile) : ServerProfile :=
  { server with
    name := update.name
    endpoint := update.endpoint
    public_key := update.public_key
    emoji := update.emoji.getD server.emoji }

/-- Another server with the same key. -/
def key_taken (servers : List ServerProfile) (index : ℕ) (public_key : String) : Bool :=
  servers.zipIdx.any fun (item, other) => other != index && item.public_key = public_key

/-- An edit of a server, which may change its key. -/
def update_server [Management] (update : ServerUpdate) : Edit := fun config => do
  let some index := config.servers.findIdx? fun server =>
      server.public_key = update.previous_public_key
    | .error "сервер не найден"
  let some previous := config.servers[index]? | .error "сервер не найден"
  bail_if (previous.management.isSome &&
      (previous.endpoint != update.endpoint || previous.public_key != update.public_key))
    "нельзя изменить endpoint или public key управляемого сервера"
  let server := update.apply previous
  validate_server server
  bail_if (key_taken config.servers index server.public_key)
    "сервер с таким public key уже существует"
  let was_active : Bool := config.active_server_key = some update.previous_public_key
  let connection_changed :=
    previous.endpoint != server.endpoint || previous.public_key != server.public_key
  let active_server_key := if was_active then some server.public_key else config.active_server_key
  return ({ config with active_server_key, servers := config.servers.set index server },
    if was_active && config.vpn_enabled && connection_changed then .network else .config)

/-- Selecting the active server again changes nothing. -/
def select_server (public_key : String) : Edit := fun config =>
  match config.servers.find? fun server => server.public_key = public_key with
  | none => .error "сервер не найден"
  | some server =>
    if config.active_server_key = some public_key then .ok (config, .config)
    else .ok ({ config with active_server_key := some server.public_key },
      if config.vpn_enabled then .network else .config)

/-- `pins`: whether the host pins of the servers could be preserved first. -/
def delete_server (pins : Bool) (public_key : String) : Edit := fun config => do
  bail_if (!pins) "failed to preserve host pins"
  let servers := config.servers.filter fun server => server.public_key ≠ public_key
  bail_if (servers.length = config.servers.length) "сервер не найден"
  if config.active_server_key = some public_key then
    bail_if (config.vpn_enabled && servers.isEmpty)
      "сначала отключите VPN, затем удалите последний сервер"
    return ({ config with servers, active_server_key := servers.head?.map (·.public_key) },
      if config.vpn_enabled then .network else .config)
  return ({ config with servers }, .config)

/-- The tunnel is turned on only if there is a server for it. -/
def set_mode (vpn_enabled : Bool) : Edit := fun config => do
  let next := { config with vpn_enabled }
  if vpn_enabled then discard (active_server next)
  return (next, if config.vpn_enabled = vpn_enabled then .policy else .network)

/-- The rules as a whole. -/
def update_routing (routing : RoutingConfig) : Edit := fun config =>
  .ok ({ config with routing }, .policy)

/-- One device is excluded, or included again. -/
def update_device_exclusion (mac : MacAddress) (excluded : Bool) : Edit := fun config => do
  let kept := config.device_exclusions.filter fun entry => entry ≠ mac
  let device_exclusions ← normalize_exclusions (if excluded then kept ++ [mac] else kept)
  return ({ config with device_exclusions }, .policy)

/-! ## Operations -/

/-- The writers; an imported profile has been parsed, or not. -/
inductive Operation
  | update_device_exclusion (mac : MacAddress) (excluded : Bool)
  | set_mode (vpn_enabled : Bool)
  | update_routing (routing : RoutingConfig)
  | import_server (profile : Except String ServerProfile)
  | add_server (server : ServerProfile)
  | update_server (update : ServerUpdate)
  | select_server (public_key : String)
  | delete_server (public_key : String) (pins : Bool)

/-- The checks before the configuration is looked at, and the edit. -/
def Operation.edit [Management] [Idna] : Operation → Except String Edit
  | .update_device_exclusion mac excluded => .ok (Agent.update_device_exclusion mac excluded)
  | .set_mode vpn_enabled => .ok (Agent.set_mode vpn_enabled)
  | .update_routing routing => do return Agent.update_routing (← normalize_routing routing)
  | .import_server profile => do
    let server ← profile
    validate_server server
    return upsert_server server
  | .add_server server => do
    validate_server server
    return insert_server server
  | .update_server update => do
    let name ← normalize_server_name update.name
    return Agent.update_server { update with name }
  | .select_server public_key => .ok (Agent.select_server public_key)
  | .delete_server public_key pins => .ok (Agent.delete_server pins public_key)

/-- The edit of an operation, made by `update_config`. -/
def Operation.run [RegexEngine] [Management] [Idna] (set : Settings) (faults : UpdateFaults)
    (op : Operation) : Control Unit := do
  let edit ← lift op.edit
  update_config set faults edit

/-! ## What an edit does -/

theorem ok_inj {α : Type} {a b : α} (h : (pure a : Except String α) = .ok b) : b = a :=
  (Except.ok.inj h).symm

theorem findIdx?_getElem? {α : Type} {p : α → Bool} {l : List α} {index : ℕ}
    (h : l.findIdx? p = some index) : ∃ a, l[index]? = some a ∧ p a = true := by
  obtain ⟨hlt, hp, -⟩ := List.findIdx?_eq_some_iff_getElem.mp h
  exact ⟨_, List.getElem?_eq_getElem hlt, hp⟩

section

variable {config next : ControllerConfig} {change : Change}

/-- The profile that the egress is read from. -/
def active (config : ControllerConfig) : Option ServerProfile :=
  config.servers.find? fun server => some server.public_key = config.active_server_key

theorem hasServer_iff :
    HasServer config ↔ (config.vpn_enabled = true → (active config).isSome = true) := by
  refine imp_congr_right fun _ => ?_
  unfold active_server active
  cases hk : config.active_server_key with
  | none => simp
  | some key =>
    simp only [Option.some.injEq]
    cases config.servers.find? fun server => server.public_key = key <;> simp

/-- **The edits of the writers**, each with its kind of change. -/
inductive Edited (config : ControllerConfig) : ControllerConfig → Change → Prop
  | excluded (device_exclusions : List MacAddress) :
    Edited config { config with device_exclusions } .policy
  | routed (routing : RoutingConfig) : Edited config { config with routing } .policy
  | switched (vpn_enabled : Bool)
    (hs : vpn_enabled = true → ∃ server,
      active_server { config with vpn_enabled } = .ok server) :
    Edited config { config with vpn_enabled }
      (if config.vpn_enabled = vpn_enabled then .policy else .network)
  | replaced {index : ℕ} {previous server : ServerProfile}
    (hi : config.servers[index]? = some previous) (hk : server.public_key = previous.public_key) :
    Edited config { config with servers := config.servers.set index server }
      (if config.vpn_enabled && config.active_server_key = some previous.public_key then .network
        else .config)
  | inserted (server : ServerProfile)
    (hnew : ∀ item ∈ config.servers, item.public_key ≠ server.public_key) :
    Edited config
      { config with
        active_server_key := if config.active_server_key.isNone then some server.public_key
          else config.active_server_key
        servers := config.servers ++ [server] }
      (if config.active_server_key.isNone && config.vpn_enabled then .network else .config)
  | updated (update : ServerUpdate) {index : ℕ} {previous : ServerProfile}
    (hi : config.servers[index]? = some previous)
    (hk : previous.public_key = update.previous_public_key)
    (hnew : key_taken config.servers index update.public_key = false) :
    Edited config
      { config with
        active_server_key :=
          if config.active_server_key = some update.previous_public_key then
            some (update.apply previous).public_key
          else config.active_server_key
        servers := config.servers.set index (update.apply previous) }
      (if config.active_server_key = some update.previous_public_key && config.vpn_enabled &&
          (previous.endpoint != (update.apply previous).endpoint ||
            previous.public_key != (update.apply previous).public_key) then .network else .config)
  | kept : Edited config config .config
  | selected {server : ServerProfile} (hm : server ∈ config.servers) :
    Edited config { config with active_server_key := some server.public_key }
      (if config.vpn_enabled then .network else .config)
  | deleted (public_key : String) (hk : config.active_server_key ≠ some public_key) :
    Edited config
      { config with servers := config.servers.filter fun server => server.public_key ≠ public_key }
      .config
  | deselected (servers : List ServerProfile) (hs : config.vpn_enabled = true → servers ≠ []) :
    Edited config { config with servers, active_server_key := servers.head?.map (·.public_key) }
      (if config.vpn_enabled then .network else .config)

theorem update_device_exclusion_eq_ok {mac : MacAddress} {excluded : Bool}
    (h : update_device_exclusion mac excluded config = .ok (next, change)) :
    Edited config next change := by
  simp only [update_device_exclusion, bind_eq_ok] at h
  obtain ⟨device_exclusions, -, h⟩ := h
  cases ok_inj h
  exact .excluded _

theorem set_mode_eq_ok {vpn_enabled : Bool}
    (h : set_mode vpn_enabled config = .ok (next, change)) : Edited config next change := by
  unfold set_mode at h
  cases vpn_enabled with
  | false =>
    cases ok_inj h
    exact .switched false fun h => nomatch h
  | true =>
    simp only [if_true, bind_eq_ok] at h
    obtain ⟨_, hs, h⟩ := h
    cases ok_inj h
    refine .switched true fun _ => ?_
    cases hr : active_server { config with vpn_enabled := true } with
    | ok server => exact ⟨server, rfl⟩
    | error e => rw [hr] at hs; cases hs

theorem insert_server_eq_ok {server : ServerProfile}
    (h : insert_server server config = .ok (next, change)) : Edited config next change := by
  simp only [insert_server, bind_eq_ok, bail_if_eq_ok, List.any_eq_false, decide_eq_true_eq] at h
  obtain ⟨_, hnew, h⟩ := h
  cases ok_inj h
  exact .inserted server hnew

theorem replace_imported_server_eq_some {server : ServerProfile} {reconnect : Bool}
    (h : replace_imported_server config server = some (next, reconnect)) :
    Edited config next (if reconnect then .network else .config) := by
  simp only [replace_imported_server, Option.bind_eq_bind, Option.bind_eq_some_iff] at h
  obtain ⟨index, hfind, previous, hi, h⟩ := h
  obtain ⟨_, hp, hkey⟩ := findIdx?_getElem? hfind
  cases Option.some.inj (hi.symm.trans hp)
  have hkey : previous.public_key = server.public_key := of_decide_eq_true hkey
  cases Option.some.inj h
  rw [← hkey]
  refine .replaced hi ?_
  dsimp only
  split_ifs
  · rfl
  · exact hkey.symm

theorem upsert_server_eq_ok {server : ServerProfile}
    (h : upsert_server server config = .ok (next, change)) : Edited config next change := by
  unfold upsert_server at h
  cases hr : replace_imported_server config server with
  | none =>
    rw [hr] at h
    exact insert_server_eq_ok h
  | some entry =>
    rw [hr] at h
    cases Except.ok.inj h
    exact replace_imported_server_eq_some hr

theorem update_server_eq_ok [Management] {update : ServerUpdate}
    (h : update_server update config = .ok (next, change)) : Edited config next change := by
  unfold update_server at h
  split at h
  · rename_i index hfind
    obtain ⟨previous, hp, hkey⟩ := findIdx?_getElem? hfind
    rw [hp] at h
    simp only [bind_eq_ok, bail_if_eq_ok] at h
    obtain ⟨-, -, -, -, -, hnew, h⟩ := h
    cases ok_inj h
    simpa only [decide_eq_true_eq] using Edited.updated update hp (of_decide_eq_true hkey) hnew
  · cases h

theorem select_server_eq_ok {public_key : String}
    (h : select_server public_key config = .ok (next, change)) : Edited config next change := by
  unfold select_server at h
  split at h
  · cases h
  · rename_i server hfind
    by_cases hk : config.active_server_key = some public_key
    · rw [if_pos hk] at h
      cases h
      exact .kept
    · rw [if_neg hk] at h
      cases h
      exact .selected (List.mem_of_find?_eq_some hfind)

theorem delete_server_eq_ok {pins : Bool} {public_key : String}
    (h : delete_server pins public_key config = .ok (next, change)) : Edited config next change := by
  simp only [delete_server, bind_eq_ok, bail_if_eq_ok] at h
  obtain ⟨-, -, -, -, h⟩ := h
  by_cases hk : config.active_server_key = some public_key
  · rw [if_pos hk] at h
    simp only [bind_eq_ok, bail_if_eq_ok] at h
    obtain ⟨_, hlast, h⟩ := h
    cases ok_inj h
    refine .deselected _ fun hv => ?_
    rw [hv, Bool.true_and, List.isEmpty_eq_false_iff] at hlast
    exact hlast
  · rw [if_neg hk] at h
    cases ok_inj h
    exact .deleted public_key hk

theorem Operation.edited [Management] [Idna] {op : Operation} {edit : Edit} (hop : op.edit = .ok edit)
    (h : edit config = .ok (next, change)) : Edited config next change := by
  cases op with
  | update_device_exclusion mac excluded =>
    cases Except.ok.inj hop; exact update_device_exclusion_eq_ok h
  | set_mode vpn_enabled => cases Except.ok.inj hop; exact set_mode_eq_ok h
  | update_routing routing =>
    simp only [Operation.edit, bind_eq_ok] at hop
    obtain ⟨routing, -, hop⟩ := hop
    cases ok_inj hop
    cases Except.ok.inj h
    exact .routed routing
  | import_server profile =>
    simp only [Operation.edit, bind_eq_ok] at hop
    obtain ⟨server, -, -, -, hop⟩ := hop
    cases ok_inj hop
    exact upsert_server_eq_ok h
  | add_server server =>
    simp only [Operation.edit, bind_eq_ok] at hop
    obtain ⟨-, -, hop⟩ := hop
    cases ok_inj hop
    exact insert_server_eq_ok h
  | update_server update =>
    simp only [Operation.edit, bind_eq_ok] at hop
    obtain ⟨name, -, hop⟩ := hop
    cases ok_inj hop
    exact update_server_eq_ok h
  | select_server public_key => cases Except.ok.inj hop; exact select_server_eq_ok h
  | delete_server public_key pins => cases Except.ok.inj hop; exact delete_server_eq_ok h

/-! ## The server of the tunnel -/

theorem find?_set_map {α β : Type} {p : α → Bool} {f : α → β} {l : List α} {i : ℕ} {a b : α}
    (hb : l[i]? = some b) (hp : p a = p b) (hf : p b = true → f a = f b) :
    ((l.set i a).find? p).map f = (l.find? p).map f := by
  induction l generalizing i with
  | nil => rfl
  | cons c l ih =>
    cases i with
    | zero =>
      cases Option.some.inj hb
      rw [List.set_cons_zero, List.find?_cons, List.find?_cons, hp]
      cases hpb : p b with
      | true => exact congrArg some (hf hpb)
      | false => rfl
    | succ i =>
      rw [List.set_cons_succ, List.find?_cons, List.find?_cons]
      cases p c with
      | true => rfl
      | false => exact ih hb

/-- What the egress reads of a profile. -/
def ServerProfile.identity (server : ServerProfile) : Option ManagedServer × Option String :=
  (server.management, server.client_tunnel_address)

theorem warp_source_congr (h : (active next).map ServerProfile.identity =
    (active config).map ServerProfile.identity) :
    (VpnEgress.from_config next).warp_source = (VpnEgress.from_config config).warp_source := by
  change (active next >>= fun server => _) = (active config >>= fun server => _)
  cases hn : active next with
  | none =>
    rw [hn] at h
    rw [Option.map_eq_none_iff.mp h.symm]
  | some server =>
    rw [hn] at h
    obtain ⟨server', hs, he⟩ := Option.map_eq_some_iff.mp h.symm
    obtain ⟨hm, ha⟩ := Prod.ext_iff.mp he
    simp only [ServerProfile.identity] at hm ha
    rw [hs]
    simp only [Option.bind_eq_bind, Option.bind_some, hm, ha]

/-- The same tunnel: what is rendered of it has not changed. -/
structure SameEgress (config next : ControllerConfig) : Prop where
  vpn : next.vpn_enabled = config.vpn_enabled
  active : config.vpn_enabled = true →
    (active next).map ServerProfile.identity = (active config).map ServerProfile.identity

theorem SameEgress.refl (config : ControllerConfig) : SameEgress config config :=
  ⟨rfl, fun _ => rfl⟩

theorem key_taken_eq_false {servers : List ServerProfile} {index j : ℕ} {public_key : String}
    {server : ServerProfile} (h : key_taken servers index public_key = false)
    (hj : servers[j]? = some server) (hne : j ≠ index) : server.public_key ≠ public_key := by
  rw [key_taken, List.any_eq_false] at h
  have := h (server, j) (List.mem_zipIdx_iff_getElem?.mpr hj)
  simpa [hne] using this

theorem hasServer_iff_mem : HasServer config ↔ (config.vpn_enabled = true →
    ∃ server ∈ config.servers, some server.public_key = config.active_server_key) := by
  rw [hasServer_iff, active]
  simp only [List.find?_isSome, decide_eq_true_eq]

theorem mem_set {α : Type} {P : α → Prop} {l : List α} {i : ℕ} {a b : α} (hb : l[i]? = some b)
    (hP : P b → P a) (h : ∃ c ∈ l, P c) : ∃ c ∈ l.set i a, P c := by
  obtain ⟨c, hc, hPc⟩ := h
  obtain ⟨j, hj⟩ := List.mem_iff_getElem?.mp hc
  have hi := (List.getElem?_eq_some_iff.mp hb).1
  by_cases hij : i = j
  · subst hij
    cases Option.some.inj (hb.symm.trans hj)
    exact ⟨a, List.mem_set hi a, hP hPc⟩
  · exact ⟨c, List.mem_of_getElem? (i := j) (by rw [List.getElem?_set_ne hij, hj]), hPc⟩

/-- **No edit leaves the tunnel without its server.** -/
theorem Edited.hasServer (h : Edited config next change) (hs : HasServer config) :
    HasServer next := by
  rw [hasServer_iff_mem] at hs
  cases h with
  | excluded | routed | kept => exact hasServer_iff_mem.mpr hs
  | switched vpn_enabled hs' => exact hs'
  | replaced hi hk =>
    refine hasServer_iff_mem.mpr fun hv => mem_set hi (fun h => ?_) (hs hv)
    rw [hk]
    exact h
  | inserted server hnew =>
    refine hasServer_iff_mem.mpr fun hv => ?_
    obtain ⟨item, hm, hk⟩ := hs hv
    refine ⟨item, List.mem_append_left _ hm, ?_⟩
    rw [← hk]
    rfl
  | updated update hi hk hnew =>
    refine hasServer_iff_mem.mpr fun hv => ?_
    dsimp only
    split_ifs with hw
    · exact ⟨_, List.mem_set (List.getElem?_eq_some_iff.mp hi).1 _, rfl⟩
    · refine mem_set hi (fun h => absurd ?_ hw) (hs hv)
      rw [← hk, h]
  | selected hm => exact hasServer_iff_mem.mpr fun _ => ⟨_, hm, rfl⟩
  | deleted public_key hk =>
    refine hasServer_iff_mem.mpr fun hv => ?_
    obtain ⟨item, hm, hi⟩ := hs hv
    refine ⟨item, List.mem_filter.mpr ⟨hm, decide_eq_true fun he => hk ?_⟩, hi⟩
    rw [← hi, he]
  | deselected servers hs' =>
    refine hasServer_iff_mem.mpr fun hv => ?_
    cases servers with
    | nil => exact absurd rfl (hs' hv)
    | cons server servers => exact ⟨server, List.mem_cons_self, rfl⟩

/-- **An edit that is not rendered** keeps all that is rendered. -/
theorem Edited.same (h : Edited config next change) (hc : change = .config)
    (hs : HasServer config) : SameEgress config next ∧ next.routing = config.routing ∧
      next.device_exclusions = config.device_exclusions := by
  rw [hasServer_iff] at hs
  cases h with
  | excluded | routed => cases hc
  | switched vpn_enabled hs' => split_ifs at hc
  | kept => exact ⟨⟨rfl, fun _ => rfl⟩, rfl, rfl⟩
  | replaced hi hk =>
    refine ⟨⟨rfl, fun hv => find?_set_map hi ?_ fun hp => ?_⟩, rfl, rfl⟩
    · rw [hk]
    · have hkey := of_decide_eq_true hp
      simp only [hv, Bool.true_and, ite_eq_right_iff, reduceCtorEq, imp_false,
        decide_eq_true_eq] at hc
      exact absurd hkey.symm hc
  | inserted server hnew =>
    refine ⟨⟨rfl, fun hv => ?_⟩, rfl, rfl⟩
    obtain ⟨item, hitem⟩ := Option.isSome_iff_exists.mp (hs hv)
    rw [active] at hitem
    have hsome : config.active_server_key.isNone = false := by
      have hkey := List.find?_some hitem
      rw [← of_decide_eq_true hkey]
      rfl
    simp only [active, hsome, List.find?_append, Bool.false_eq_true, if_false]
    rw [hitem, Option.some_or]
  | @updated update index previous hi hk hnew =>
    refine ⟨⟨rfl, fun hv => ?_⟩, rfl, rfl⟩
    by_cases hw : config.active_server_key = some update.previous_public_key
    · -- the same key and endpoint
      simp only [hw, decide_true, hv, Bool.true_and, ite_eq_right_iff, reduceCtorEq, imp_false,
        Bool.not_eq_true, Bool.or_eq_false_iff, bne_eq_false_iff_eq] at hc
      simp only [active, if_pos hw]
      rw [← hc.2, hk, hw]
      exact find?_set_map hi (by rw [hc.2]) fun _ => rfl
    · -- another server is active, and keeps its key for itself
      simp only [active, if_neg hw]
      have hprevious : decide (some previous.public_key = config.active_server_key) = false :=
        decide_eq_false fun h => hw (by rw [← h, hk])
      refine find?_set_map hi ?_ fun hp => ?_
      · rw [hprevious]
        refine decide_eq_false fun h => ?_
        obtain ⟨item, hitem⟩ := Option.isSome_iff_exists.mp (hs hv)
        rw [active] at hitem
        have hkey := List.find?_some hitem
        have hkey := of_decide_eq_true hkey
        obtain ⟨j, hj⟩ := List.mem_iff_getElem?.mp (List.mem_of_find?_eq_some hitem)
        refine key_taken_eq_false hnew hj ?_ (Option.some.inj (hkey.trans h.symm))
        rintro rfl
        cases Option.some.inj (hi.symm.trans hj)
        exact hw (by rw [← hkey, hk])
      · rw [hprevious] at hp
        cases hp
  | selected hm =>
    refine ⟨⟨rfl, fun hv => ?_⟩, rfl, rfl⟩
    rw [hv] at hc
    cases hc
  | deleted public_key hk =>
    refine ⟨⟨rfl, fun hv => ?_⟩, rfl, rfl⟩
    simp only [active, List.find?_filter]
    congr 2
    funext server
    rw [decide_eq_decide]
    simp only [ne_eq, decide_not, Bool.not_eq_true', decide_eq_false_iff_not, decide_eq_true_eq]
    refine ⟨And.right, fun h => ⟨fun he => hk ?_, h⟩⟩
    rw [← h, he]
  | deselected servers hs' =>
    refine ⟨⟨rfl, fun hv => ?_⟩, rfl, rfl⟩
    rw [hv] at hc
    cases hc

/-! ## The edit of an operation -/

theorem Edit.normalized_eq_ok {edit : Edit}
    (h : edit.normalized config = .ok (next, change)) :
    ∃ edited device_exclusions, edit config = .ok (edited, change) ∧
      next = { edited with device_exclusions } ∧
      ∀ mac, mac ∈ device_exclusions ↔ mac ∈ edited.device_exclusions := by
  simp only [Edit.normalized, bind_eq_ok] at h
  obtain ⟨⟨edited, change'⟩, hedit, device_exclusions, hn, h⟩ := h
  cases ok_inj h
  exact ⟨edited, device_exclusions, hedit, rfl, mem_normalize_exclusions hn⟩

theorem Operation.hasServer [Management] [Idna] {op : Operation} {edit : Edit} (hop : op.edit = .ok edit)
    (h : edit.normalized config = .ok (next, change)) (hs : HasServer config) : HasServer next := by
  obtain ⟨edited, device_exclusions, hedit, rfl, -⟩ := Edit.normalized_eq_ok h
  exact (Operation.edited hop hedit).hasServer hs

theorem Operation.same [Management] [Idna] {op : Operation} {edit : Edit} (hop : op.edit = .ok edit)
    (h : edit.normalized config = .ok (next, .config))
    (hs : HasServer config) : SameEgress config next ∧ next.routing = config.routing ∧
      ∀ mac, mac ∈ next.device_exclusions ↔ mac ∈ config.device_exclusions := by
  obtain ⟨edited, device_exclusions, hedit, rfl, hx⟩ := Edit.normalized_eq_ok h
  obtain ⟨he, hr, hd⟩ := (Operation.edited hop hedit).same rfl hs
  exact ⟨⟨he.vpn, he.active⟩, hr, fun mac => (hx mac).trans (by rw [hd])⟩

end

end Gofro.Agent
