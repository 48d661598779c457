import GofroRouter.Agent.Pins.Retry

/-!
# Pins are immutable and survive crashes

* `Barred`: without a valid host and port no call gets to the directory's names.
* **`pins_safe`**: in every run a pin is a complete key and keeps it until a reset removes it, a call
  that succeeds has made it durable, another key is refused, and a retry with the same key succeeds.
* `pins_replaced`: a loss of power may undo a pin that no call has yet reported, and a call that a
  reset overtakes may pin another key.
-/

namespace Gofro.Agent.Pins

open Text Directory

variable {target : Target} {base : ℕ} {s s' : State} {id f : ℕ} {task : Task} {choice : Choice}
  {key : String} {event : Event} {events : List Event}

/-! ## Calls without a valid host and port -/

/-- Where a call can be that never gets to a pin. -/
def Barred : Task → Prop
  | .manage call | .inspect call => call = .reset
  | .done _ _ => True
  | _ => False

/-- There is no pin and no call that could make one. -/
structure NoPin (target : Target) (s : State) : Prop where
  free : ∀ f, ¬ s.dir.MayBe target.path f
  barred : ∀ id task, s.tasks id = some task → Barred task

theorem NoPin.put (h : NoPin target s) (hb : Barred task) : NoPin target (s.put id task) where
  free := h.free
  barred other task' ht := by
    rcases tasks_put ht with ⟨-, rfl⟩ | ⟨-, ht⟩
    · exact hb
    · exact h.barred other task' ht

theorem NoPin.sync (h : NoPin target s) : NoPin target (s.setDir s.dir.sync) :=
  ⟨fun f hf => h.free f (mayBe_of_sync hf), h.barred⟩

theorem NoPin.advance (h : NoPin target s) (ht : s.tasks id = some task)
    (hs : s.advance target id choice task = some s') : NoPin target s' := by
  have hb := h.barred id task ht
  cases task with
  | manage call =>
    cases hb
    cases choice with
    | done => cases hs; exact h.sync.put rfl
    | failed progress =>
      cases hs
      refine NoPin.put ?_ trivial
      split_ifs
      · exact h
      · exact h.sync
    | created number => cases hs
    | listed entries => cases hs
  | inspect call =>
    cases hb
    have hnone : s.dir.now target.path = none := by
      cases hpin : s.dir.now target.path with
      | none => rfl
      | some f => exact absurd (mayBe_now hpin) (h.free f)
    cases choice with
    | done =>
      simp only [State.advance, State.inspect, hnone] at hs
      cases hs
      exact h.put trivial
    | failed progress => cases hs; exact h.put trivial
    | created number => cases hs
    | listed entries => cases hs
  | done call result => cases hs
  | _ => exact hb.elim

theorem NoPin.step (h : NoPin target s) (hvalid : target.valid = false)
    (hs : Pins.step target s event = some s') : NoPin target s' := by
  cases event with
  | call call =>
    cases hs
    refine ⟨h.free, fun other task ht => ?_⟩
    rcases tasks_put (show (s.put s.next _).tasks other = some task from ht) with ⟨-, rfl⟩ | ⟨-, ht⟩
    · cases call with
      | pin key => simp [hvalid, Barred]
      | reset => rfl
    · exact h.barred other task ht
  | run id choice =>
    obtain ⟨task, ht, hs⟩ := Option.bind_eq_some_iff.mp hs
    exact h.advance ht hs
  | died pid =>
    cases hs
    exact ⟨h.free, fun _ _ hno => by cases hno⟩
  | powerLoss pid keep lost =>
    simp only [Pins.step] at hs
    split_ifs at hs
    cases hs
    exact ⟨fun f hf => h.free f (mayBe_powerLoss hf), fun _ _ hno => by cases hno⟩

theorem valid_of_pin {dir : Directory Attributes} {pid : ℕ} (hfree : ∀ f, ¬ dir.MayBe target.path f)
    (hs : events.foldlM (step target) (start dir pid) = some s) (hpin : s.dir.now target.path = some f) :
    target.valid = true := by
  by_contra hvalid
  have hstart : NoPin target (start dir pid) := ⟨hfree, fun _ _ hno => nomatch hno⟩
  have hrun : NoPin target s :=
    foldlM_invariant (P := fun _ s => NoPin target s)
      (fun _ _ _ _ h hs => h.step (Bool.not_eq_true _ ▸ hvalid) hs) hstart hs
  exact hrun.free f (mayBe_now hpin)

/-! ## The pins of a run -/

/-- The pin holds a key. -/
def Stored (target : Target) (s : State) (key : String) : Prop :=
  ∃ f, s.dir.now target.path = some f ∧ (s.dir.inode f).content = key

/-- A call with another key than the pin's: it writes nothing, and it does not succeed. -/
theorem Inv.refuses (h : Inv target base s) (hkey : Stored target s key) {other : String}
    (hother : other ≠ key) (hpower : ∀ e ∈ events, e.isPowerLoss = false)
    (hs : events.foldlM (Pins.step target) (s.call target (.pin other)) = some s')
    (hremovals : s'.removals = s.removals) (ht : s'.tasks s.next = some task) :
    (∀ choice t, Pins.step target s' (.run s.next choice) = some t →
      t.dir.now = s'.dir.now ∧ t.dir.inode = s'.dir.inode) ∧
    ∀ call result, task = .done call result → ∃ error, result = .error error := by
  obtain ⟨f, hpin, rfl⟩ := hkey
  have hrun := run_refused (RefusedAt.call h hpin hother.symm) hpower hs hremovals
  have hr := hrun.task task ht
  constructor
  · intro choice t hstep
    obtain ⟨task', ht', hadvance⟩ := Option.bind_eq_some_iff.mp hstep
    cases Option.some.inj (ht'.symm.trans ht)
    have hrefused := advance_refused hrun.pin hrun.other hr hadvance
    exact ⟨hrefused.now, hrefused.inode⟩
  · rintro call result rfl
    exact hr.2

/-- **From any directory without a pin, in every run of calls, deaths of the process and losses of
power.** -/
theorem pins_safe {dir : Directory Attributes} {pid : ℕ} (hdistinct : dir.distinct = true)
    (hfree : ∀ f, ¬ dir.MayBe target.path f)
    (hs : events.foldlM (step target) (start dir pid) = some s) :
    -- A pin is a complete key.
    (∀ key, Stored target s key → parse_host_key key = true) ∧
    -- Its content never changes until a reset removes it or the power is lost.
    (∀ (later : List Event) t key, later.foldlM (step target) s = some t → t.removals = s.removals →
      (∀ e ∈ later, e.isPowerLoss = false) → Stored target s key → Stored target t key) ∧
    -- A call succeeds with the offered key, synced; and unless a reset has removed a pin since its last
    -- check, the key is stored under a single link, and a loss of power does not change it either.
    (∀ id task choice key t, s.tasks id = some task → step target s (.run id choice) = some t →
      t.tasks id = some (.done (.pin key) (.ok ())) → ∃ f removals,
        task = .syncDirectory key f removals ∧ (t.dir.inode f).content = key ∧
        (t.dir.inode f).synced = true ∧ (removals = t.removals →
          t.dir.now target.path = some f ∧ t.dir.links f = 1 ∧
          ∀ (later : List Event) u, later.foldlM (step target) t = some u → u.removals = t.removals →
            Stored target u key)) ∧
    -- A call with another key changes nothing and ends with an error.
    (∀ key other (later : List Event) t task, Stored target s key → other ≠ key →
      later.foldlM (step target) (s.call target (.pin other)) = some t → t.removals = s.removals →
      (∀ e ∈ later, e.isPowerLoss = false) → t.tasks s.next = some task →
      (∀ choice u, step target t (.run s.next choice) = some u →
        u.dir.now = t.dir.now ∧ u.dir.inode = t.dir.inode) ∧
      ∀ call result, task = .done call result → ∃ error, result = .error error) ∧
    -- A retry with the same key that meets no failure succeeds; of the names it removes those that
    -- the agent owns and that lead to the pin's file.
    ∀ key entries, Stored target s key → len key ≤ 128 →
      (∀ name, s.dir.now name ≠ none → name ∈ entries) → ∃ f t,
        s.dir.now target.path = some f ∧
        Relation.ReflTransGen (Proceeds target s.next entries) (s.call target (.pin key)) t ∧
        t.tasks s.next = some (.done (.pin key) (.ok ())) ∧
        (∀ name, t.dir.now name =
          if owned_name name = true ∧ s.dir.now name = some f then none else s.dir.now name) ∧
        (t.dir.inode f).content = key := by
  have hinv : Inv target dir.next s := (Inv.start hdistinct hfree).run hs
  refine ⟨?_, ?_, ?_, ?_, ?_⟩
  · rintro key ⟨f, hpin, rfl⟩
    exact (hinv.pinned f (mayBe_now hpin)).key
  · rintro later t key hlater hremovals hpower ⟨f, hpin, rfl⟩
    obtain ⟨hpin', hcontent⟩ := run_now hinv hpin hpower hlater hremovals
    exact ⟨f, hpin', hcontent⟩
  · intro id task choice key t ht hstep hok
    obtain ⟨f, removals, htask, hcontent, hsynced, hsettled⟩ := hinv.success ht hstep hok
    refine ⟨f, removals, htask, hcontent, hsynced, fun he => ?_⟩
    obtain ⟨hpin, hlinks⟩ := hsettled he
    refine ⟨hpin.now, hlinks, fun later u hlater hremovals => ?_⟩
    obtain ⟨hpin', hcontent'⟩ := run_settled (hinv.step hstep) hpin hlater hremovals
    exact ⟨f, hpin'.now, hcontent'.trans hcontent⟩
  · intro key other later t task hstored hother hlater hremovals hpower ht
    exact hinv.refuses hstored hother hpower hlater hremovals ht
  · rintro key entries ⟨f, hpin, rfl⟩ hlen hentries
    have hvalid := valid_of_pin hfree hs hpin
    obtain ⟨t, hrun, hdone, hnow, hcontent⟩ := retry_succeeds hinv hvalid hpin rfl hlen hentries
    exact ⟨f, t, hpin, hrun, hdone, fun name => congrFun hnow name, hcontent⟩

/-! ## Runs -/

/-- A directory without files. -/
def Directory.none : Directory Attributes :=
  ⟨fun _ => ⟨0, 0, CREATED, "", false⟩, fun _ => .none, [], [], 0, fun m hm name file hf => by
    rw [List.mem_singleton.mp hm] at hf
    cases hf⟩

def SAMPLE_TARGET : Target := ⟨"1.1.1.1", 22⟩

def SAMPLE_KEY : String :=
  "ssh-ed25519 AAAAC3NzaC1lZDI1NTE5AAAAIEwCks2omLrfMrS1du13ol2Iwo4CoDhME50jxaLI7Mdq"

/-- A call up to the link of its pin, and what happens then. -/
def publishing (event : Event) : List Event :=
  [.call (.pin SAMPLE_KEY), .run 0 .done, .run 0 .done, .run 0 (.created 7), .run 0 .done, .run 0 .done,
    .run 0 .done, event]

theorem none_free (f : ℕ) : ¬ Directory.none.MayBe SAMPLE_TARGET.path f := by
  rintro ⟨m, hm, hf⟩
  rw [List.mem_singleton.mp hm] at hf
  cases hf

/-- The process dies between the link and the removal of the temporary name; a retry succeeds. -/
theorem pins_safe_sample : ∃ s t,
    (publishing (.died 1)).foldlM (step SAMPLE_TARGET) (start Directory.none 1) = some s ∧
      Relation.ReflTransGen (Proceeds SAMPLE_TARGET s.next s.dir.names)
        (s.call SAMPLE_TARGET (.pin SAMPLE_KEY)) t ∧
      t.tasks s.next = some (.done (.pin SAMPLE_KEY) (.ok ())) := by
  have hrun : ((publishing (.died 1)).foldlM (step SAMPLE_TARGET) (start Directory.none 1)).map
      (fun s => (s.dir.now SAMPLE_TARGET.path, (s.dir.inode 0).content)) =
        some (some 0, SAMPLE_KEY) := by decide +kernel
  obtain ⟨s, hs, hpin⟩ := Option.map_eq_some_iff.mp hrun
  have hstored : Stored SAMPLE_TARGET s SAMPLE_KEY :=
    ⟨0, congrArg Prod.fst hpin, congrArg Prod.snd hpin⟩
  have hentries : ∀ name, s.dir.now name ≠ none → name ∈ s.dir.names := by
    intro name hname
    obtain ⟨f, hf⟩ := Option.ne_none_iff_exists'.mp hname
    exact (mayBe_now hf).mem_names
  obtain ⟨f, t, -, hretry, hdone, -⟩ := (pins_safe (by decide) none_free hs).2.2.2.2
    SAMPLE_KEY s.dir.names hstored (by decide +kernel) hentries
  exact ⟨s, t, hs, hretry, hdone⟩

/-! ## Pins that are replaced -/

/-- A pin keeps its key until a reset removes it. -/
def Immutable (target : Target) : Prop :=
  ∀ (dir : Directory Attributes) (pid : ℕ) (events later : List Event) (s t : State) (key : String),
    dir.distinct = true → (∀ f, ¬ dir.MayBe target.path f) →
    events.foldlM (step target) (start dir pid) = some s →
    later.foldlM (step target) s = some t → t.removals = s.removals →
    Stored target s key → Stored target t key

/-- A call with another key than the pin's does not succeed. -/
def Exclusive (target : Target) : Prop :=
  ∀ (dir : Directory Attributes) (pid : ℕ) (events later : List Event) (s t : State)
    (key other : String) (call : Call) (result : Except PinError Unit),
    dir.distinct = true → (∀ f, ¬ dir.MayBe target.path f) →
    events.foldlM (step target) (start dir pid) = some s → Stored target s key → other ≠ key →
    later.foldlM (step target) (s.call target (.pin other)) = some t →
    (∀ e ∈ later, e.isPowerLoss = false) → t.tasks s.next = some (.done call result) →
    ∃ error, result = .error error

theorem unsynced_pin_lost : ¬ Immutable SAMPLE_TARGET := by
  intro h
  let lost : Event := .powerLoss 2 (fun _ => 1) fun _ => ""
  have hpublished : ((publishing (.call .reset)).foldlM (step SAMPLE_TARGET) (start Directory.none 1)).map
      (fun s => (s.dir.now SAMPLE_TARGET.path, (s.dir.inode 0).content)) =
        some (some 0, SAMPLE_KEY) := by decide +kernel
  obtain ⟨s, hs, hpin⟩ := Option.map_eq_some_iff.mp hpublished
  have hlost : (((publishing (.call .reset)).foldlM (step SAMPLE_TARGET) (start Directory.none 1)).bind
      fun s => ([lost].foldlM (step SAMPLE_TARGET) s).map
        fun t => (t.dir.now SAMPLE_TARGET.path, decide (t.removals = s.removals))) =
          some (none, true) := by decide +kernel
  rw [hs, Option.bind_some] at hlost
  obtain ⟨t, ht, hgone⟩ := Option.map_eq_some_iff.mp hlost
  have hstored : Stored SAMPLE_TARGET s SAMPLE_KEY :=
    ⟨0, congrArg Prod.fst hpin, congrArg Prod.snd hpin⟩
  have hremovals : t.removals = s.removals := of_decide_eq_true (congrArg Prod.snd hgone)
  obtain ⟨f, hf, -⟩ := h Directory.none 1 _ [lost] s t SAMPLE_KEY (by decide) none_free hs
    ht hremovals hstored
  cases (congrArg Prod.fst hgone).symm.trans hf

/-- Another key of the same host. -/
def OTHER_KEY : String :=
  "ssh-ed25519 AAAAC3NzaC1lZDI1NTE5AAAAIEwCks2omLrfMrS1du13ol2Iwo4CoDhME50jxaLI7Mdr"

/-- A call that is done with its pin. -/
def pinning : List Event := publishing (.run 0 .done) ++ List.replicate 6 (.run 0 .done)

/-- A reset from beginning to end while a call has still to look at the pin. -/
def resetting : List Event :=
  .run 1 .done :: .call .reset :: List.replicate 7 (.run 2 .done) ++
    [.run 1 .done, .run 1 (.created 8)] ++ List.replicate 10 (.run 1 .done)

/-- A reset during a call may remove the pin before the call has looked at it, and the call then
makes its own. -/
theorem reset_pin_replaced : ¬ Exclusive SAMPLE_TARGET := by
  intro h
  have hpinned : (pinning.foldlM (step SAMPLE_TARGET) (start Directory.none 1)).map
      (fun s => (s.dir.now SAMPLE_TARGET.path, (s.dir.inode 0).content)) =
        some (some 0, SAMPLE_KEY) := by decide +kernel
  obtain ⟨s, hs, hpin⟩ := Option.map_eq_some_iff.mp hpinned
  have hstored : Stored SAMPLE_TARGET s SAMPLE_KEY :=
    ⟨0, congrArg Prod.fst hpin, congrArg Prod.snd hpin⟩
  have hreset : ((pinning.foldlM (step SAMPLE_TARGET) (start Directory.none 1)).bind fun s =>
      (resetting.foldlM (step SAMPLE_TARGET) (s.call SAMPLE_TARGET (.pin OTHER_KEY))).map
        fun t => t.tasks s.next) = some (some (.done (.pin OTHER_KEY) (.ok ()))) := by decide +kernel
  rw [hs, Option.bind_some] at hreset
  obtain ⟨t, ht, hdone⟩ := Option.map_eq_some_iff.mp hreset
  have hpower : ∀ e ∈ resetting, e.isPowerLoss = false := by decide
  obtain ⟨error, he⟩ := h Directory.none 1 _ _ s t SAMPLE_KEY OTHER_KEY _ _ (by decide) none_free hs
    hstored (by decide) ht hpower hdone
  cases he

/-- **How a pin may go all the same**: with the power before it is synced, and when a reset overtakes
a call, which then pins its own key. -/
theorem pins_replaced : ¬ Immutable SAMPLE_TARGET ∧ ¬ Exclusive SAMPLE_TARGET :=
  ⟨unsynced_pin_lost, reset_pin_replaced⟩

end Gofro.Agent.Pins
