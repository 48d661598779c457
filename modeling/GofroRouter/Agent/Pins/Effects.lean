import GofroRouter.Agent.Pins.Kept

/-!
# What a system call of a pin call does

* `Effect`: the directory and the count of removals after a system call; `advance_moved`.
* `advance_ok`: a pin call succeeds with its last sync only.
* `step_pin`, `step_settled`: what keeps the name of the pin where it is.
-/

namespace Gofro.Agent.Pins

open Text Directory

/-- The directory after a system call of a task, and the count of removals. -/
inductive Effect (target : Target) (s : State) : Task → Directory Attributes → ℕ → Prop
  | same (task : Task) : Effect target s task s.dir s.removals
  | synced (task : Task) : Effect target s task s.dir.sync s.removals
  | created (key temporary : String) (number : ℕ) : s.dir.now temporary = none →
    Effect target s (.create key temporary) (s.dir.create temporary number CREATED) s.removals
  | wrote (key temporary : String) (file : ℕ) (content : String) :
    Effect target s (.write key temporary file) (s.dir.write file content) s.removals
  | syncedFile (task : Task) (file : ℕ) : Effect target s task (s.dir.syncFile file) s.removals
  | linked (key temporary : String) (file : ℕ) : s.dir.now target.path = none →
    Effect target s (.publish key temporary file) (s.dir.link temporary target.path) s.removals
  | cleaned (key temporary : String) (file : ℕ) (published : Option Bool) :
    Effect target s (.cleanup key temporary file published) (s.dir.unlink temporary) s.removals
  | recovered (key : String) (metadata : Metadata) (file : ℕ) (entry : String) (entries : List String) :
    Effect target s (.remove key metadata file entry entries) (s.dir.unlink entry) s.removals
  | removed (file : ℕ) :
    Effect target s (.unlink file) (s.dir.unlink target.path) (s.removals + 1)

variable {target : Target} {base : ℕ} {s s' : State} {id file : ℕ} {task : Task} {choice : Choice}
  {key : String}

theorem effect_syncSome (p : Prop) [Decidable p] : Effect target s task
    (if p then s else s.setDir s.dir.sync).dir (if p then s else s.setDir s.dir.sync).removals := by
  split_ifs
  · exact .same task
  · exact .synced task

/-- A system call of a task, with its effect; the other tasks are as they were. -/
structure Moved (target : Target) (s : State) (id : ℕ) (task : Task) (s' : State) : Prop where
  effect : Effect target s task s'.dir s'.removals
  tasks : ∃ task', s'.tasks = Function.update s.tasks id (some task')
  next : s'.next = s.next

theorem moved {u : State} {task' : Task} (he : Effect target s task u.dir u.removals)
    (ht : u.tasks = s.tasks) (hn : u.next = s.next) : Moved target s id task (u.put id task') :=
  ⟨he, ⟨task', ht ▸ rfl⟩, hn⟩

theorem moved_syncSome {p : Prop} [Decidable p] {task' : Task} :
    Moved target s id task ((if p then s else s.setDir s.dir.sync).put id task') := by
  refine moved (effect_syncSome p) (syncSome_tasks p) ?_
  split_ifs
  · rfl
  · rfl

theorem moved_syncDirectory {call : Call} {message : String}
    (hs : s.syncDirectory id call message choice = some s') :
    Moved target s id task s' := by
  cases choice with
  | done => cases hs; exact moved (.synced task) rfl rfl
  | failed progress => cases hs; exact moved_syncSome
  | created number => cases hs
  | listed entries => cases hs

theorem advance_moved (hs : s.advance target id choice task = some s') :
    Moved target s id task s' := by
  cases task with
  | manage call =>
    cases choice with
    | done => cases call <;> cases hs <;> exact moved (.synced _) rfl rfl
    | failed progress => cases hs; exact moved_syncSome
    | created number => cases hs
    | listed entries => cases hs
  | look key =>
    cases choice with
    | done =>
      simp only [State.advance, State.look] at hs
      split_ifs at hs <;> cases hs <;> exact moved (.same _) rfl rfl
    | failed progress => cases hs; exact moved (.same _) rfl rfl
    | created number => cases hs
    | listed entries => cases hs
  | create key temporary =>
    cases choice with
    | created number =>
      simp only [State.advance, State.create] at hs
      split_ifs at hs with hused
      · cases hs
        exact moved (.same _) rfl rfl
      · cases hs
        exact moved (.created key temporary number (by simpa using hused)) rfl rfl
    | failed progress => cases hs; exact moved (.same _) rfl rfl
    | done => cases hs
    | listed entries => cases hs
  | write key temporary file =>
    cases choice with
    | done => cases hs; exact moved (.wrote key temporary file key) rfl rfl
    | failed progress => cases hs; exact moved (.wrote key temporary file _) rfl rfl
    | created number => cases hs
    | listed entries => cases hs
  | sync key temporary file =>
    cases choice with
    | done => cases hs; exact moved (.syncedFile _ file) rfl rfl
    | failed progress => cases hs; exact moved (.same _) rfl rfl
    | created number => cases hs
    | listed entries => cases hs
  | publish key temporary file =>
    cases choice with
    | done =>
      simp only [State.advance, State.publish] at hs
      split_ifs at hs with hgone hfree
      · cases hs
        exact moved (.same _) rfl rfl
      · cases hs
        exact moved (.linked key temporary file (Option.isNone_iff_eq_none.mp hfree)) rfl rfl
      · cases hs
        exact moved (.same _) rfl rfl
    | failed progress => cases hs; exact moved (.same _) rfl rfl
    | created number => cases hs
    | listed entries => cases hs
  | cleanup key temporary file published =>
    cases choice with
    | done =>
      simp only [State.advance, State.cleanup] at hs
      have hcleaned : ∀ task', Moved target s id (.cleanup key temporary file published)
          ((if (s.dir.now temporary).isNone then s else s.setDir (s.dir.unlink temporary)).put id
            task') := by
        intro task'
        split_ifs
        · exact moved (.same _) rfl rfl
        · exact moved (.cleaned key temporary file published) rfl rfl
      cases published with
      | none => cases hs; exact hcleaned _
      | some published =>
        dsimp only at hs
        split at hs <;> cases hs <;> exact hcleaned _
    | failed progress => cases hs; exact moved (.same _) rfl rfl
    | created number => cases hs
    | listed entries => cases hs
  | inspect call =>
    cases choice with
    | done =>
      simp only [State.advance, State.inspect] at hs
      split at hs
      · cases hs; exact moved (.same _) rfl rfl
      · cases hs; exact moved (.same _) rfl rfl
      · split at hs <;> cases hs <;> exact moved (.same _) rfl rfl
      · split at hs <;> cases hs <;> exact moved (.same _) rfl rfl
    | failed progress => cases hs; exact moved (.same _) rfl rfl
    | created number => cases hs
    | listed entries => cases hs
  | «open» call metadata =>
    cases choice with
    | done =>
      simp only [State.advance, State.openPin] at hs
      split at hs
      · cases hs; exact moved (.same _) rfl rfl
      · split at hs <;> cases hs <;> exact moved (.same _) rfl rfl
    | failed progress => cases hs; exact moved (.same _) rfl rfl
    | created number => cases hs
    | listed entries => cases hs
  | read call metadata file =>
    cases choice with
    | done =>
      simp only [State.advance, State.read] at hs
      split at hs
      · cases hs; exact moved (.same _) rfl rfl
      · cases call with
        | pin key => dsimp only at hs; split_ifs at hs <;> cases hs <;> exact moved (.same _) rfl rfl
        | reset => dsimp only at hs; split_ifs at hs <;> cases hs <;> exact moved (.same _) rfl rfl
    | failed progress => cases hs; exact moved (.same _) rfl rfl
    | created number => cases hs
    | listed entries => cases hs
  | list key metadata file =>
    cases choice with
    | listed entries =>
      simp only [State.advance, State.list] at hs
      split_ifs at hs
      cases hs
      exact moved (.same _) rfl rfl
    | failed progress => cases hs; exact moved (.same _) rfl rfl
    | done => cases hs
    | created number => cases hs
  | recover key metadata file entries =>
    cases entries with
    | nil => cases choice <;> cases hs <;> exact moved (.same _) rfl rfl
    | cons entry entries =>
      cases choice with
      | done =>
        simp only [State.advance, State.recover] at hs
        split at hs
        · cases hs; exact moved (.same _) rfl rfl
        · split at hs
          · cases hs; exact moved (.same _) rfl rfl
          · split at hs <;> cases hs <;> exact moved (.same _) rfl rfl
      | failed progress => cases hs; exact moved (.same _) rfl rfl
      | created number => cases hs
      | listed entries => cases hs
  | remove key metadata file entry entries =>
    cases choice with
    | done =>
      simp only [State.advance, State.remove] at hs
      split at hs
      · cases hs; exact moved (.same _) rfl rfl
      · cases hs; exact moved (.recovered key metadata file entry entries) rfl rfl
    | failed progress => cases hs; exact moved (.same _) rfl rfl
    | created number => cases hs
    | listed entries => cases hs
  | confirm key metadata file =>
    cases choice with
    | done =>
      simp only [State.advance, State.confirm] at hs
      split at hs
      · cases hs; exact moved (.same _) rfl rfl
      · split at hs <;> cases hs <;> exact moved (.same _) rfl rfl
    | failed progress => cases hs; exact moved (.same _) rfl rfl
    | created number => cases hs
    | listed entries => cases hs
  | syncFile key file removals =>
    cases choice with
    | done => cases hs; exact moved (.syncedFile _ file) rfl rfl
    | failed progress => cases hs; exact moved (.same _) rfl rfl
    | created number => cases hs
    | listed entries => cases hs
  | syncDirectory key file removals => exact moved_syncDirectory hs
  | check metadata file =>
    cases choice with
    | done =>
      simp only [State.advance, State.check] at hs
      split at hs
      · cases hs; exact moved (.same _) rfl rfl
      · split at hs <;> cases hs <;> exact moved (.same _) rfl rfl
    | failed progress => cases hs; exact moved (.same _) rfl rfl
    | created number => cases hs
    | listed entries => cases hs
  | «unlink» file =>
    cases choice with
    | done =>
      simp only [State.advance, State.unlink] at hs
      split at hs
      · cases hs; exact moved (.same _) rfl rfl
      · cases hs; exact moved (.removed file) rfl rfl
    | failed progress => cases hs; exact moved (.same _) rfl rfl
    | created number => cases hs
    | listed entries => cases hs
  | syncRemoval file => exact moved_syncDirectory hs
  | done call result => cases hs

theorem Effect.removals_le {d : Directory Attributes} {removals : ℕ}
    (he : Effect target s task d removals) : s.removals ≤ removals := by
  cases he <;> omega

theorem Effect.content {d : Directory Attributes} {removals f : ℕ}
    (he : Effect target s task d removals) (ht : s.tasks id = some task) (hs : Sealed base s f) :
    (d.inode f).content = (s.dir.inode f).content := by
  cases he with
  | created key temporary number hfree => rw [inode_create_of_ne hs.lt_next.ne]
  | wrote key temporary file content =>
    have hne : f ≠ file := fun he => hs.undrafted id _ ht (he ▸ rfl)
    rw [Directory.write, inode_modify_of_ne hne]
  | syncedFile _ file =>
    by_cases hf : f = file
    · rw [hf, Directory.syncFile, inode_modify_self]
    · rw [Directory.syncFile, inode_modify_of_ne hf]
  | _ => rfl

theorem settled_bind {d : Directory Attributes} {name other : String} {new : Option ℕ}
    {hnew : ∀ f, new = some f → f < d.next} {f : ℕ} (hne : other ≠ name)
    (h : ∀ m ∈ d.now :: d.before, m other = some f) :
    ∀ m ∈ (d.bind name new hnew).now :: (d.bind name new hnew).before, m other = some f := by
  intro m hm
  rcases List.mem_cons.mp hm with rfl | hm
  · exact (Function.update_of_ne hne _ _).trans (h d.now List.mem_cons_self)
  · exact h m hm

/-- The pin is bound to the file, and is so again after a loss of power. -/
def Settled (target : Target) (s : State) (file : ℕ) : Prop :=
  ∀ m ∈ s.dir.now :: s.dir.before, m target.path = some file

theorem Settled.now {f : ℕ} (h : Settled target s f) : s.dir.now target.path = some f :=
  h s.dir.now List.mem_cons_self

theorem Effect.now {d : Directory Attributes} {f : ℕ} (he : Effect target s task d s.removals)
    (hok : task.Ok target base s) (hpin : s.dir.now target.path = some f) :
    d.now target.path = some f := by
  have hbind : ∀ {name : String} {new : Option ℕ} {e : Directory Attributes}
      {hnew : ∀ f, new = some f → f < e.next}, owned_name name = true →
      e.now target.path = some f → (e.bind name new hnew).now target.path = some f :=
    fun howned hnow => (Function.update_of_ne (owned_ne_path howned).symm _ _).trans hnow
  generalize hr : s.removals = removals at he
  cases he with
  | created key temporary number hfree => exact hbind hok.2.owned hpin
  | linked key temporary file hfree => cases hfree.symm.trans hpin
  | cleaned key temporary file published => exact hbind hok.2.owned hpin
  | recovered key metadata file entry entries => exact hbind hok.2 hpin
  | removed file => omega
  | _ => exact hpin

theorem Effect.settled {d : Directory Attributes} {f : ℕ} (he : Effect target s task d s.removals)
    (hok : task.Ok target base s) (hpin : Settled target s f) :
    ∀ m ∈ d.now :: d.before, m target.path = some f := by
  generalize hr : s.removals = removals at he
  cases he with
  | synced task =>
    intro m hm
    rw [List.mem_singleton.mp hm]
    exact hpin.now
  | created key temporary number hfree => exact settled_bind (owned_ne_path hok.2.owned).symm hpin
  | linked key temporary file hfree => cases hfree.symm.trans hpin.now
  | cleaned key temporary file published =>
    exact settled_bind (owned_ne_path hok.2.owned).symm hpin
  | recovered key metadata file entry entries => exact settled_bind (owned_ne_path hok.2).symm hpin
  | removed file => omega
  | _ => exact hpin

/-! ## Events -/

/-- Whether what is not synced may be undone. -/
def Event.isPowerLoss : Event → Bool
  | .powerLoss _ _ _ => true
  | _ => false

variable {event : Event} {events : List Event}

theorem step_removals_le (hs : step target s event = some s') : s.removals ≤ s'.removals := by
  cases event with
  | call call => cases hs; exact le_rfl
  | run id choice =>
    obtain ⟨task, -, hs⟩ := Option.bind_eq_some_iff.mp hs
    exact (advance_moved hs).effect.removals_le
  | died pid => cases hs; exact le_rfl
  | powerLoss pid keep lost =>
    simp only [step] at hs
    split_ifs at hs
    cases hs
    exact le_rfl

theorem step_content {f : ℕ} (hf : Sealed base s f)
    (hs : step target s event = some s') :
    (s'.dir.inode f).content = (s.dir.inode f).content := by
  cases event with
  | call call => cases hs; rfl
  | run id choice =>
    obtain ⟨task, ht, hs⟩ := Option.bind_eq_some_iff.mp hs
    exact (advance_moved hs).effect.content ht hf
  | died pid => cases hs; rfl
  | powerLoss pid keep lost =>
    simp only [step] at hs
    split_ifs at hs
    cases hs
    exact congrArg Inode.content (inode_powerLoss hf.synced)

theorem step_now (h : Inv target base s) {f : ℕ} (hpin : s.dir.now target.path = some f)
    (hs : step target s event = some s') (hremovals : s'.removals = s.removals)
    (hpower : event.isPowerLoss = false) : s'.dir.now target.path = some f := by
  cases event with
  | call call => cases hs; exact hpin
  | run id choice =>
    obtain ⟨task, ht, hs⟩ := Option.bind_eq_some_iff.mp hs
    have he := (advance_moved hs).effect
    rw [hremovals] at he
    exact he.now (h.tasks id task ht) hpin
  | died pid => cases hs; exact hpin
  | powerLoss pid keep lost => cases hpower

theorem step_settled (h : Inv target base s) {f : ℕ} (hpin : Settled target s f)
    (hs : step target s event = some s') (hremovals : s'.removals = s.removals) :
    Settled target s' f := by
  cases event with
  | call call => cases hs; exact hpin
  | run id choice =>
    obtain ⟨task, ht, hs⟩ := Option.bind_eq_some_iff.mp hs
    have he := (advance_moved hs).effect
    rw [hremovals] at he
    exact he.settled (h.tasks id task ht) hpin
  | died pid => cases hs; exact hpin
  | powerLoss pid keep lost =>
    simp only [step] at hs
    split_ifs at hs
    cases hs
    intro m hm
    rw [List.mem_singleton.mp hm]
    exact hpin ((s.dir.now :: s.dir.before).getD (keep target.path) s.dir.now)
      (powerLoss_mem s.dir (keep target.path))

theorem run_removals_le (hs : events.foldlM (step target) s = some s') : s.removals ≤ s'.removals :=
  foldlM_invariant (P := fun _ t => s.removals ≤ t.removals)
    (fun _ _ _ _ hle hstep => hle.trans (step_removals_le hstep)) le_rfl hs

/-- **Without a removal, the pin stays bound to its file and the file keeps its contents.** -/
theorem run_now (h : Inv target base s) {f : ℕ} (hpin : s.dir.now target.path = some f)
    (hpower : ∀ e ∈ events, e.isPowerLoss = false)
    (hs : events.foldlM (step target) s = some s') (hremovals : s'.removals = s.removals) :
    s'.dir.now target.path = some f ∧ (s'.dir.inode f).content = (s.dir.inode f).content := by
  induction events generalizing s with
  | nil => cases hs; exact ⟨hpin, rfl⟩
  | cons event events ih =>
    rw [List.foldlM_cons] at hs
    obtain ⟨t, hstep, hrun⟩ := Option.bind_eq_some_iff.mp hs
    have hle := step_removals_le hstep
    have hle' := run_removals_le hrun
    have hcontent := step_content (h.pinned f (mayBe_now hpin)) hstep
    have hpin' := step_now h hpin hstep (by omega) (hpower event List.mem_cons_self)
    have hrest := ih (h.step hstep) hpin' (fun e he => hpower e (List.mem_cons_of_mem _ he)) hrun
      (by omega)
    exact ⟨hrest.1, hrest.2.trans hcontent⟩

/-- **A settled pin survives losses of power too.** -/
theorem run_settled (h : Inv target base s) {f : ℕ} (hpin : Settled target s f)
    (hs : events.foldlM (step target) s = some s') (hremovals : s'.removals = s.removals) :
    Settled target s' f ∧ (s'.dir.inode f).content = (s.dir.inode f).content := by
  induction events generalizing s with
  | nil => cases hs; exact ⟨hpin, rfl⟩
  | cons event events ih =>
    rw [List.foldlM_cons] at hs
    obtain ⟨t, hstep, hrun⟩ := Option.bind_eq_some_iff.mp hs
    have hle := step_removals_le hstep
    have hle' := run_removals_le hrun
    have hcontent := step_content (h.pinned f (mayBe_now hpin.now)) hstep
    have hrest := ih (h.step hstep) (step_settled h hpin hstep (by omega)) hrun (by omega)
    exact ⟨hrest.1, hrest.2.trans hcontent⟩

/-! ## Success -/

theorem put_eq {u : State} {result : Task} (ht : (u.put id task).tasks id = some result) :
    result = task := by
  rw [show (u.put id task).tasks id = some task from Function.update_self _ _ _] at ht
  exact (Option.some.inj ht).symm

theorem advance_ok (hs : s.advance target id choice task = some s')
    (hok : s'.tasks id = some (.done (.pin key) (.ok ()))) :
    ∃ f removals, task = .syncDirectory key f removals ∧ s'.dir = s.dir.sync ∧
      s'.removals = s.removals := by
  cases task with
  | manage call =>
    cases choice with
    | done => cases call <;> cases hs <;> cases put_eq hok
    | failed progress => cases hs; cases put_eq hok
    | created number => cases hs
    | listed entries => cases hs
  | look key =>
    cases choice with
    | done =>
      simp only [State.advance, State.look] at hs
      split_ifs at hs <;> cases hs <;> cases put_eq hok
    | failed progress => cases hs; cases put_eq hok
    | created number => cases hs
    | listed entries => cases hs
  | create key temporary =>
    cases choice with
    | created number =>
      simp only [State.advance, State.create] at hs
      split_ifs at hs <;> cases hs <;> cases put_eq hok
    | failed progress => cases hs; cases put_eq hok
    | done => cases hs
    | listed entries => cases hs
  | write key temporary file => cases choice <;> cases hs <;> cases put_eq hok
  | sync key temporary file => cases choice <;> cases hs <;> cases put_eq hok
  | publish key temporary file =>
    cases choice with
    | done =>
      simp only [State.advance, State.publish] at hs
      split_ifs at hs <;> cases hs <;> cases put_eq hok
    | failed progress => cases hs; cases put_eq hok
    | created number => cases hs
    | listed entries => cases hs
  | cleanup key temporary file published =>
    cases choice with
    | done =>
      simp only [State.advance, State.cleanup] at hs
      cases published with
      | none => cases hs; cases put_eq hok
      | some published =>
        dsimp only at hs
        split at hs <;> cases hs <;> cases put_eq hok
    | failed progress => cases hs; cases put_eq hok
    | created number => cases hs
    | listed entries => cases hs
  | inspect call =>
    cases choice with
    | done =>
      simp only [State.advance, State.inspect] at hs
      split at hs
      · cases hs; cases put_eq hok
      · cases hs; cases put_eq hok
      · split at hs <;> cases hs <;> cases put_eq hok
      · split at hs <;> cases hs <;> cases put_eq hok
    | failed progress => cases hs; cases put_eq hok
    | created number => cases hs
    | listed entries => cases hs
  | «open» call metadata =>
    cases choice with
    | done =>
      simp only [State.advance, State.openPin] at hs
      split at hs
      · cases hs; cases put_eq hok
      · split at hs <;> cases hs <;> cases put_eq hok
    | failed progress => cases hs; cases put_eq hok
    | created number => cases hs
    | listed entries => cases hs
  | read call metadata file =>
    cases choice with
    | done =>
      simp only [State.advance, State.read] at hs
      split at hs
      · cases hs; cases put_eq hok
      · cases call with
        | pin key => dsimp only at hs; split_ifs at hs <;> cases hs <;> cases put_eq hok
        | reset => dsimp only at hs; split_ifs at hs <;> cases hs <;> cases put_eq hok
    | failed progress => cases hs; cases put_eq hok
    | created number => cases hs
    | listed entries => cases hs
  | list key metadata file =>
    cases choice with
    | listed entries =>
      simp only [State.advance, State.list] at hs
      split_ifs at hs
      cases hs
      cases put_eq hok
    | failed progress => cases hs; cases put_eq hok
    | done => cases hs
    | created number => cases hs
  | recover key metadata file entries =>
    cases entries with
    | nil => cases choice <;> cases hs <;> cases put_eq hok
    | cons entry entries =>
      cases choice with
      | done =>
        simp only [State.advance, State.recover] at hs
        split at hs
        · cases hs; cases put_eq hok
        · split at hs
          · cases hs; cases put_eq hok
          · split at hs <;> cases hs <;> cases put_eq hok
      | failed progress => cases hs; cases put_eq hok
      | created number => cases hs
      | listed entries => cases hs
  | remove key metadata file entry entries => cases choice <;> cases hs <;> cases put_eq hok
  | confirm key metadata file =>
    cases choice with
    | done =>
      simp only [State.advance, State.confirm] at hs
      split at hs
      · cases hs; cases put_eq hok
      · split at hs <;> cases hs <;> cases put_eq hok
    | failed progress => cases hs; cases put_eq hok
    | created number => cases hs
    | listed entries => cases hs
  | syncFile key file removals => cases choice <;> cases hs <;> cases put_eq hok
  | syncDirectory key file removals =>
    cases choice with
    | done =>
      cases hs
      cases put_eq hok
      exact ⟨file, removals, rfl, rfl, rfl⟩
    | failed progress => cases hs; cases put_eq hok
    | created number => cases hs
    | listed entries => cases hs
  | check metadata file =>
    cases choice with
    | done =>
      simp only [State.advance, State.check] at hs
      split at hs
      · cases hs; cases put_eq hok
      · split at hs <;> cases hs <;> cases put_eq hok
    | failed progress => cases hs; cases put_eq hok
    | created number => cases hs
    | listed entries => cases hs
  | «unlink» file =>
    cases choice with
    | done =>
      simp only [State.advance, State.unlink] at hs
      split at hs <;> cases hs <;> cases put_eq hok
    | failed progress => cases hs; cases put_eq hok
    | created number => cases hs
    | listed entries => cases hs
  | syncRemoval file => cases choice <;> cases hs <;> cases put_eq hok
  | done call result => cases hs

/-- **What holds when a pin call succeeds.** -/
theorem Inv.success (h : Inv target base s) (ht : s.tasks id = some task)
    (hs : Pins.step target s (.run id choice) = some s')
    (hok : s'.tasks id = some (.done (.pin key) (.ok ()))) :
    ∃ f removals, task = .syncDirectory key f removals ∧ (s'.dir.inode f).content = key ∧
      (s'.dir.inode f).synced = true ∧
      (removals = s'.removals → Settled target s' f ∧ s'.dir.links f = 1) := by
  obtain ⟨task', ht', hadvance⟩ := Option.bind_eq_some_iff.mp hs
  cases Option.some.inj (ht'.symm.trans ht)
  obtain ⟨f, removals, rfl, hdir, hremovals⟩ := advance_ok hadvance hok
  obtain ⟨hsealed, hcontent, -, hsole⟩ := h.tasks id _ ht
  rw [hdir, hremovals]
  refine ⟨f, removals, rfl, hcontent, hsealed.synced, fun he => ?_⟩
  obtain ⟨hpin, honly⟩ := hsole he
  constructor
  · intro m hm
    rw [hdir] at hm
    rw [List.mem_singleton.mp hm]
    exact hpin
  · exact (links_eq_one (d := s.dir.sync) hpin).mpr ⟨(h.made f hsealed.base_le hsealed.lt_next).1, honly⟩

end Gofro.Agent.Pins
