import GofroRouter.Agent.Controller.Listed
import GofroRouter.Agent.Profile
import GofroRouter.Agent.Saved

/-!
# A saved configuration can be loaded

What the agent writes to its configuration file, in whatever run, `load` reads back unchanged when
the agent is started again.

* `Operation.Received`: the servers that the callers of the writers pass.
* `Rewritten`: what an event makes of the configuration; `Rewritten.loadable`.
* **`run_reloads`**: memory and disk, after every run from a loaded configuration.
-/

namespace Gofro.Agent

open Geodata (RegexEngine)
open Fallible

section

variable [Management] [Idna]

/-! ## Servers -/

/-- The servers that callers pass: one that is read from a profile, with management data when a VPS
has been enrolled. -/
def Operation.Received : Operation → Prop
  | .import_server profile => ∃ name text, profile = parse_server_profile name text
  | .add_server server => ∃ name text parsed management,
      parse_server_profile name text = .ok parsed ∧ management.Fits ∧
        server = { parsed with management := some management }
  | _ => True

omit [Idna] in
theorem parse_server_profile_name {name text : String} {server : ServerProfile}
    (h : parse_server_profile name text = .ok server) :
    normalize_server_name server.name = .ok server.name ∧ server.management = none := by
  simp only [parse_server_profile, bind_eq_ok] at h
  obtain ⟨_, -, st, -, hcheck⟩ := h
  obtain ⟨values, -, -, name', address, hname, -, rfl⟩ := valid_of_check_profile hcheck
  exact ⟨normalize_server_name_fixed hname, rfl⟩

omit [Idna] in
theorem validate_server_saved {server : ServerProfile} (h : validate_server server = .ok ()) :
    validate_saved_server server = .ok () := by
  simp only [validate_server, bind_eq_ok] at h
  obtain ⟨_, hv, -⟩ := h
  exact hv

omit [Idna] in
/-- A server with a normalized name that passes the checks of new servers. -/
theorem load_server_of_validate {server : ServerProfile}
    (hname : normalize_server_name server.name = .ok server.name)
    (hv : validate_server server = .ok ()) : load_server server = .ok server :=
  load_server_eq_ok.mpr ⟨_, hname, rfl, validate_server_saved hv⟩

omit [Management] [Idna] in
theorem exists_unit {x : Except String Unit} : (∃ u, x = .ok u) ↔ x = .ok () :=
  ⟨fun ⟨_, h⟩ => h, fun h => ⟨(), h⟩⟩

omit [Idna] in
theorem validate_saved_server_eq_ok {server : ServerProfile} :
    validate_saved_server server = .ok () ↔
      validate_server_name server.name = .ok () ∧ validate_emoji server.emoji = .ok () ∧
        validate_endpoint server.endpoint = .ok () ∧
        validate_wireguard_key server.public_key "public" = .ok () ∧
        (∀ address ∈ server.client_tunnel_address,
          ∃ a, normalize_tunnel_address address = .ok a) ∧
        (∀ key ∈ server.client_private_key, validate_wireguard_key key "private" = .ok ()) ∧
        ∀ management ∈ server.management, Management.validate_management management = .ok () := by
  obtain ⟨name, emoji, endpoint, public_key, address, private_key, management⟩ := server
  cases address <;> cases private_key <;> cases management <;>
    simp [validate_saved_server, bind_eq_ok, exists_unit, Server.discard_eq_ok]

/-- A server of a configuration that can be loaded. -/
def Loaded (server : ServerProfile) : Prop := load_server server = .ok server ∧ server.Fits

omit [Idna] in
theorem loaded_iff {server : ServerProfile} : Loaded server ↔
    normalize_server_name server.name = .ok server.name ∧
      validate_saved_server server = .ok () ∧ server.Fits := by
  rw [Loaded, load_server_eq_ok, and_congr_left_iff.mpr fun _ => ?_, and_assoc]
  constructor
  · rintro ⟨name, hn, he, hv⟩
    exact ⟨by rw [hn, he], hv⟩
  · rintro ⟨hn, hv⟩
    exact ⟨_, hn, rfl, hv⟩

/-! ## Edits -/

section

variable {config next : ControllerConfig} {change : Change}

/-- The servers and the routing of an edited configuration can be loaded. -/
def EditLoads (next : ControllerConfig) : Prop :=
  (∀ server ∈ next.servers, Loaded server) ∧ normalize_routing next.routing = .ok next.routing

theorem Loadable.loads (h : Loadable config) : EditLoads config :=
  ⟨fun server hs => ⟨h.servers server hs, h.fits.servers server hs⟩, h.routing⟩

omit [Management] [Idna] in
theorem forall_mem_set {α : Type} {P : α → Prop} {l : List α} {i : ℕ} {a : α} (ha : P a)
    (hl : ∀ b ∈ l, P b) : ∀ b ∈ l.set i a, P b := fun b hb =>
  (List.mem_or_eq_of_mem_set hb).elim (hl b) fun he => he ▸ ha

theorem set_mode_loads {vpn_enabled : Bool} (hl : EditLoads config)
    (h : set_mode vpn_enabled config = .ok (next, change)) : EditLoads next := by
  unfold set_mode at h
  cases vpn_enabled with
  | false =>
    cases ok_inj h
    exact hl
  | true =>
    simp only [if_true, bind_eq_ok] at h
    obtain ⟨_, -, h⟩ := h
    cases ok_inj h
    exact hl

theorem insert_server_loads {server : ServerProfile} (hl : EditLoads config)
    (hs : Loaded server) (h : insert_server server config = .ok (next, change)) :
    EditLoads next := by
  simp only [insert_server, bind_eq_ok] at h
  obtain ⟨_, -, h⟩ := h
  cases ok_inj h
  exact ⟨List.forall_mem_append.mpr ⟨hl.1, List.forall_mem_singleton.mpr hs⟩, hl.2⟩

theorem upsert_server_loads {server : ServerProfile} (hl : EditLoads config)
    (hs : Loaded server) (h : upsert_server server config = .ok (next, change)) :
    EditLoads next := by
  unfold upsert_server at h
  cases hr : replace_imported_server config server with
  | none =>
    rw [hr] at h
    exact insert_server_loads hl hs h
  | some entry =>
    rw [hr] at h
    simp only [replace_imported_server, Option.bind_eq_bind, Option.bind_eq_some_iff] at hr
    obtain ⟨index, -, previous, hi, hr⟩ := hr
    cases Option.some.inj hr
    cases Except.ok.inj h
    obtain ⟨hname, hv, hfits⟩ := loaded_iff.mp hs
    obtain ⟨hn, he, hep, hpk, ha, hk, hm⟩ := validate_saved_server_eq_ok.mp hv
    obtain ⟨-, hv', hfits'⟩ := loaded_iff.mp (hl.1 previous (List.mem_of_getElem? hi))
    obtain ⟨-, he', hep', -, -, -, hm'⟩ := validate_saved_server_eq_ok.mp hv'
    refine ⟨forall_mem_set (loaded_iff.mpr ?_) hl.1, hl.2⟩
    split_ifs with hmanaged
    · exact ⟨hname, validate_saved_server_eq_ok.mpr ⟨hn, he', hep', hpk, ha, hk, hm'⟩, hfits'⟩
    · exact ⟨hname, validate_saved_server_eq_ok.mpr ⟨hn, he', hep, hpk, ha, hk, hm⟩, hfits⟩

theorem update_server_loads {update : ServerUpdate} (hl : EditLoads config)
    (hname : normalize_server_name update.name = .ok update.name)
    (h : update_server update config = .ok (next, change)) : EditLoads next := by
  unfold update_server at h
  split at h
  · split at h
    · rename_i previous hp
      simp only [bind_eq_ok] at h
      obtain ⟨-, -, _, hv, -, -, h⟩ := h
      cases ok_inj h
      have hfits : previous.Fits := (hl.1 previous (List.mem_of_getElem? hp)).2
      exact ⟨forall_mem_set (loaded_iff.mpr ⟨hname, validate_server_saved hv, hfits⟩) hl.1, hl.2⟩
    · cases h
  · cases h

theorem select_server_loads {public_key : String} (hl : EditLoads config)
    (h : select_server public_key config = .ok (next, change)) : EditLoads next := by
  unfold select_server at h
  split at h
  · cases h
  · split_ifs at h <;> cases h <;> exact hl

theorem delete_server_loads {pins : Bool} {public_key : String} (hl : EditLoads config)
    (h : delete_server pins public_key config = .ok (next, change)) : EditLoads next := by
  have hkept : ∀ server ∈ config.servers.filter fun server => server.public_key ≠ public_key,
      Loaded server := fun server hs => hl.1 server (List.mem_of_mem_filter hs)
  simp only [delete_server, bind_eq_ok] at h
  obtain ⟨-, -, -, -, h⟩ := h
  by_cases hk : config.active_server_key = some public_key
  · rw [if_pos hk] at h
    simp only [bind_eq_ok] at h
    obtain ⟨-, -, h⟩ := h
    cases ok_inj h
    exact ⟨hkept, hl.2⟩
  · rw [if_neg hk] at h
    cases ok_inj h
    exact ⟨hkept, hl.2⟩

/-- **Every writer's edit can be loaded.** -/
theorem Operation.edit_loads (hidna : Idna.Standard) {op : Operation} (hr : op.Received)
    {edit : Edit} (hop : op.edit = .ok edit) (hl : EditLoads config)
    (h : edit config = .ok (next, change)) : EditLoads next := by
  cases op with
  | update_device_exclusion mac excluded =>
    cases Except.ok.inj hop
    simp only [Agent.update_device_exclusion, bind_eq_ok] at h
    obtain ⟨_, -, h⟩ := h
    cases ok_inj h
    exact hl
  | set_mode vpn_enabled =>
    cases Except.ok.inj hop
    exact set_mode_loads hl h
  | update_routing routing =>
    simp only [Operation.edit, bind_eq_ok] at hop
    obtain ⟨routing, hrouting, hop⟩ := hop
    cases ok_inj hop
    cases Except.ok.inj h
    exact ⟨hl.1, normalize_routing_fixed hidna hrouting⟩
  | import_server profile =>
    obtain ⟨name, text, rfl⟩ := hr
    simp only [Operation.edit, bind_eq_ok] at hop
    obtain ⟨server, hparse, _, hv, hop⟩ := hop
    cases ok_inj hop
    obtain ⟨hname, hnone⟩ := parse_server_profile_name hparse
    exact upsert_server_loads hl ⟨load_server_of_validate hname hv,
      fun m hm => by rw [hnone] at hm; cases hm⟩ h
  | add_server server =>
    obtain ⟨name, text, parsed, management, hparse, hfits, rfl⟩ := hr
    simp only [Operation.edit, bind_eq_ok] at hop
    obtain ⟨_, hv, hop⟩ := hop
    cases ok_inj hop
    have hname := (parse_server_profile_name hparse).1
    refine insert_server_loads hl ⟨load_server_of_validate ?_ hv, ?_⟩ h
    · exact hname
    · rintro _ ⟨⟩
      exact hfits
  | update_server update =>
    simp only [Operation.edit, bind_eq_ok] at hop
    obtain ⟨name, hname, hop⟩ := hop
    cases ok_inj hop
    exact update_server_loads hl (normalize_server_name_fixed hname) h
  | select_server public_key =>
    cases Except.ok.inj hop
    exact select_server_loads hl h
  | delete_server public_key pins =>
    cases Except.ok.inj hop
    exact delete_server_loads hl h

theorem Loadable.edited (hidna : Idna.Standard) {op : Operation} (hr : op.Received) {edit : Edit}
    (hop : op.edit = .ok edit) (hl : Loadable config)
    (h : edit.normalized config = .ok (next, change)) : Loadable next := by
  simp only [Edit.normalized, bind_eq_ok] at h
  obtain ⟨⟨edited, change'⟩, hedit, macs, hm, h⟩ := h
  cases ok_inj h
  obtain ⟨hservers, hrouting⟩ := Operation.edit_loads hidna hr hop hl.loads hedit
  exact ⟨⟨fun server hs => (hservers server hs).2, fits_of_normalize_routing hrouting⟩,
    fun server hs => (hservers server hs).1, hrouting, normalize_exclusions_fixed hm⟩

end

/-! ## Runs -/

/-- What an event can make of a configuration. -/
inductive Rewritten (event : Event) (config : ControllerConfig) : ControllerConfig → Prop
  | kept : Rewritten event config config
  | switched (enabled : Bool) :
    Rewritten event config { config with auto_update_enabled := enabled }
  | edited {op : Operation} {faults : UpdateFaults} (he : event = .update op faults) {edit : Edit}
    {next : ControllerConfig} {change : Change} (hop : op.edit = .ok edit)
    (hn : edit.normalized config = .ok (next, change)) : Rewritten event config next

/-- The servers that the event brings come from a caller. -/
def Event.Received : Event → Prop
  | .update op _ => op.Received
  | _ => True

theorem Rewritten.loadable (hidna : Idna.Standard) {event : Event} (hr : event.Received)
    {config next : ControllerConfig} (h : Rewritten event config next) (hl : Loadable config) :
    Loadable next := by
  cases h with
  | kept => exact hl
  | switched enabled => exact ⟨⟨hl.fits.servers, hl.fits.routing⟩, hl.servers, hl.routing,
      hl.device_exclusions⟩
  | edited he hop hn =>
    subst he
    exact hl.edited hidna hr hop hn

/-- What an event makes of memory and disk. -/
def Event.Rewrites (event : Event) (s s' : AppState) : Prop :=
  Rewritten event s.config s'.config ∧ (s'.disk = s.disk ∨ Rewritten event s.config s'.disk)

section

variable [RegexEngine] {set : Settings} {s : AppState}

omit [RegexEngine] in
theorem Event.Rewrites.kept {event : Event} {s s' : AppState} (hc : s'.config = s.config)
    (hd : s'.disk = s.disk) : event.Rewrites s s' := ⟨hc ▸ .kept, .inl hd⟩

theorem Event.Rewrites.update {op : Operation} {faults : UpdateFaults} {res : Except Failure Unit}
    {s' : AppState} (h : op.Outcome set s res s') : (Event.update op faults).Rewrites s s' := by
  rcases h with ⟨_, -, -, rfl⟩ | ⟨-, edit, hop, hu⟩
  · exact .kept rfl rfl
  have hedited : ∀ (next : ControllerConfig) (change : Change) (s' : AppState),
      edit.normalized s.config = .ok (next, change) → s'.config = next → s'.disk = next →
      (Event.update op faults).Rewrites s s' := by
    rintro next change s' hn rfl hd
    exact ⟨.edited rfl hop hn, .inr (hd ▸ .edited rfl hop hn)⟩
  cases hu with
  | refused he hs => exact .kept hs.kept.config hs.kept.disk
  | saved hn => exact hedited _ _ _ hn rfl rfl
  | unsynced hn => exact hedited _ _ _ hn rfl rfl
  | stuck he hs => exact .kept hs.config hs.disk
  | rolled_back he hs => exact .kept hs.config hs.disk
  | applied hn hconfig => exact hedited _ _ _ hn hconfig.1 hconfig.2.1
  | unrefreshed hn he hconfig => exact hedited _ _ _ hn hconfig.1 hconfig.2

theorem Event.Rewrites.reconcile {faults : ReconcileFaults} {res : Except Failure Unit}
    {s' : AppState} (h : Reconciled set s res s') : (Event.reconcile faults).Rewrites s s' := by
  cases h with
  | untouched hs => exact .kept hs.kept.config hs.kept.disk
  | guarded hconfig => exact .kept hconfig.1 hconfig.2
  | done hconfig => exact .kept hconfig.1 hconfig.2.1

/-- **What an event does to memory and disk.** -/
theorem Event.rewrites (set : Settings) (event : Event) (s : AppState) :
    event.Rewrites s (event.step set s) := by
  cases event with
  | update op faults =>
    exact ((op.run_spec set s faults).mono (fun _ _ h => Event.Rewrites.update h) fun _ _ h =>
      Event.Rewrites.update h).state
  | auto_update lock outcome enabled =>
    refine Ends.state (P := fun s' => (Event.auto_update lock outcome enabled).Rewrites s s')
      ((set_auto_update_exec lock outcome enabled s).mono ?_ ?_)
    · rintro _ s' ⟨-, -, hc, hd⟩
      unfold Event.Rewrites
      rw [hc, hd]
      exact ⟨.switched enabled, .inr (.switched enabled)⟩
    · rintro _ s' ⟨-, ⟨rfl, -⟩ | ⟨-, -, rfl⟩⟩
      · exact .kept rfl rfl
      · exact ⟨.kept, .inr (.switched enabled)⟩
  | reconcile faults =>
    exact ((reconcile_spec set s faults).mono (fun _ _ h => Event.Rewrites.reconcile h) fun _ _ h =>
      Event.Rewrites.reconcile h).state
  | query message domain faults => exact .kept rfl rfl
  | purge faults => exact .kept rfl rfl

/-- Every run keeps a loadable configuration in memory, and writes only loadable ones. -/
theorem Loadable.run (hidna : Idna.Standard) (hl : Loadable s.config) {events : List Event}
    (hr : ∀ event ∈ events, event.Received) :
    Loadable (run set s events).config ∧
      ((run set s events).disk = s.disk ∨ Loadable (run set s events).disk) := by
  induction events generalizing s with
  | nil => exact ⟨hl, .inl rfl⟩
  | cons event events ih =>
    obtain ⟨hconfig, hdisk⟩ := event.rewrites set s
    have hevent := hr event List.mem_cons_self
    obtain ⟨hrun, hrun'⟩ := @ih (event.step set s) (hconfig.loadable hidna hevent hl) fun e he =>
      hr e (List.mem_cons_of_mem _ he)
    refine ⟨hrun, hrun'.elim (fun he => ?_) .inr⟩
    rcases hdisk with hsame | h
    · exact .inl (he.trans hsame)
    · exact .inr (he ▸ h.loadable hidna hevent hl)

/-- **A saved configuration can be loaded.** From a configuration that was loaded, and in every run
of the writers and all else that the agent does, whatever fails: the configuration in memory would
be loaded unchanged from the text that it is saved as, and so is the one on disk, unless the file is
still the one from before the run. -/
theorem run_reloads (hidna : Idna.Standard) {contents : String}
    (hload : load_text contents = .ok s.config) {events : List Event}
    (hr : ∀ event ∈ events, event.Received) :
    load_text (saved_text (run set s events).config) = .ok (run set s events).config ∧
      ((run set s events).disk = s.disk ∨
        load_text (saved_text (run set s events).disk) = .ok (run set s events).disk) := by
  simp only [load_text, bind_eq_ok] at hload
  obtain ⟨_, -, hload⟩ := hload
  have hrun : Loadable (run set s events).config ∧
      ((run set s events).disk = s.disk ∨ Loadable (run set s events).disk) :=
    (loadable_of_load hidna hload).run hidna hr
  obtain ⟨hconfig, hdisk⟩ := hrun
  exact ⟨hconfig.reload, hdisk.imp_right Loadable.reload⟩

end

end

/-! ### An import into a legacy configuration -/

/-- A file without routing, exclusions and automatic updates. -/
def legacyText : String := "\x7b\"vpn_enabled\":false,\"active_server_key\":null,\"servers\":[]\x7d"

def legacyConfig : ControllerConfig := ⟨false, [], false, none, [], .initial⟩

def legacyState : AppState := { sampleState with config := legacyConfig, disk := legacyConfig }

/-- A profile is imported, and the tunnel turned on. -/
def profileEvents [Management] : List Event :=
  [.reconcile sampleReconcile,
    .update (.import_server (parse_server_profile " Primary " sampleProfile))
      ⟨true, true, ⟨fun _ => true, fun _ => true⟩, true, true, true, ⟨true, true⟩, .published, true,
        true, ⟨true, true⟩, true, true, true, ⟨true, true, true, true⟩⟩]

/-- `run_reloads` for it. -/
theorem run_reloads_sample :
    letI := sampleRegex
    letI := asciiIdna
    letI := sampleManagement
    load_text (saved_text (run sampleSettings legacyState profileEvents).config) =
      .ok (run sampleSettings legacyState profileEvents).config := by
  let _ := sampleRegex
  let _ := asciiIdna
  let _ := sampleManagement
  have hload : load_text legacyText = .ok legacyState.config := by decide +kernel
  refine (run_reloads asciiIdna_standard hload ?_).1
  rintro event (_ | ⟨_, _ | ⟨_, hevent⟩⟩)
  · trivial
  · exact ⟨_, _, rfl⟩
  · nomatch hevent

end Gofro.Agent
