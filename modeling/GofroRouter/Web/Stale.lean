import GofroRouter.Web.RouterState

/-!
# Stale answers change nothing

A mutation starts with a new status version and keeps polls away until it has ended; so a poll from
before the end of a mutation has an old version. A reset starts a new generation.

* `older_generation`: an answer to a task of an older generation changes nothing.
* `Inv`: who may have taken `mutation`, and which polls have an old version; it holds of every run.
* **`stale_ignored`**: what the two say about a stale answer; `abandoned_mutation`: a mutation that a
  reset has abandoned keeps no poll away.
-/

namespace Gofro.Web

open Fallible

/-! ## Older generations -/

section

variable {s : Store} {id generation version authVersion : ℕ}

theorem superseded_of_ne (h : generation ≠ s.state.generation) :
    s.superseded authVersion generation := .inl h

theorem pollDone_of_ne (h : generation ≠ s.state.generation) : s.pollDone generation = s :=
  if_neg h

theorem onboardingDone_of_ne (h : generation ≠ s.state.generation) :
    s.onboardingDone version generation = s :=
  if_neg fun hand => h hand.1

theorem authDone_of_ne (h : generation ≠ s.state.generation) :
    s.authDone authVersion generation = s :=
  if_pos (superseded_of_ne h)

theorem answer_older {task : Task} {response : Except Failure Value} {s' : Store}
    (h : task.generation ≠ s.state.generation) (ha : s.answer id task response = some s') :
    s'.state = s.state := by
  cases task with
  | refresh version authVersion generation =>
    replace h : generation ≠ s.state.generation := h
    have hdone : s.pollDone generation = s := pollDone_of_ne h
    match response with
    | .ok (.status status) =>
      cases ha
      have hno : ¬ (generation = s.state.generation ∧ version = s.state.statusVersion) :=
        fun hand => h hand.1
      rw [Store.refreshed, if_neg hno, hdone]
    | .error error =>
      cases ha
      rw [Store.refreshed, if_pos (.inl h), hdone]
    | .ok (.auth _) | .ok (.onboarding _) | .ok (.lanDevices _) | .ok .other => cases ha
  | mutation kind generation after =>
    replace h : generation ≠ s.state.generation := h
    cases ha
    have h' : generation ≠ (s.note (.ended id generation)).state.generation := h
    rw [Store.mutationEnded.eq_def, if_pos h']
    rfl
  | onboarding version generation authVersion =>
    replace h : generation ≠ s.state.generation := h
    have hdone : s.onboardingDone version generation = s := onboardingDone_of_ne h
    match response with
    | .ok (.onboarding onboarding) =>
      cases ha
      rw [Store.onboardingLoaded, if_pos (.inl h), hdone]
    | .error error =>
      cases ha
      rw [Store.onboardingLoaded, if_pos (.inl h), hdone]
    | .ok (.status _) | .ok (.auth _) | .ok (.lanDevices _) | .ok .other => cases ha
  | authStatus authVersion generation =>
    replace h : generation ≠ s.state.generation := h
    match response with
    | .ok (.auth auth) =>
      cases ha
      rw [Store.authInitialized, if_pos (superseded_of_ne h)]
    | .error error =>
      cases ha
      rw [Store.authInitialized, if_pos (superseded_of_ne h)]
    | .ok (.status _) | .ok (.onboarding _) | .ok (.lanDevices _) | .ok .other => cases ha
  | signIn setup authVersion generation =>
    replace h : generation ≠ s.state.generation := h
    match response with
    | .ok (.auth auth) =>
      cases ha
      rw [Store.signedIn, if_pos (superseded_of_ne h)]
    | .error error =>
      cases ha
      rw [Store.signedIn, if_pos (superseded_of_ne h)]
    | .ok (.status _) | .ok (.onboarding _) | .ok (.lanDevices _) | .ok .other => cases ha
  | logout authVersion generation =>
    replace h : generation ≠ s.state.generation := h
    match response with
    | .ok (.auth auth) =>
      cases ha
      rw [Store.loggedOut, if_pos (superseded_of_ne h)]
    | .error error =>
      cases ha
      rw [Store.loggedOut, if_pos (superseded_of_ne h)]
    | .ok (.status _) | .ok (.onboarding _) | .ok (.lanDevices _) | .ok .other => cases ha
  | changePassword authVersion generation =>
    replace h : generation ≠ s.state.generation := h
    match response with
    | .ok (.auth auth) =>
      cases ha
      rw [Store.passwordChanged, if_pos (superseded_of_ne h)]
    | .error error =>
      cases ha
      rw [Store.passwordChanged, if_pos (superseded_of_ne h)]
    | .ok (.status _) | .ok (.onboarding _) | .ok (.lanDevices _) | .ok .other => cases ha
  | lanDevices authVersion generation =>
    replace h : generation ≠ s.state.generation := h
    match response with
    | .ok (.lanDevices inventory) =>
      cases ha
      rw [Store.lanDevicesLoaded, if_pos (superseded_of_ne h), Store.inventoryDone, if_neg h]
    | .error error =>
      cases ha
      rw [Store.lanDevicesLoaded, if_pos (superseded_of_ne h), Store.inventoryDone, if_neg h]
    | .ok (.status _) | .ok (.auth _) | .ok (.onboarding _) | .ok .other => cases ha
  | testRouting authVersion generation =>
    replace h : generation ≠ s.state.generation := h
    match response with
    | .ok .other => cases ha; rfl
    | .error error =>
      cases ha
      rw [Store.routingTested, if_pos (superseded_of_ne h)]
    | .ok (.status _) | .ok (.auth _) | .ok (.onboarding _) | .ok (.lanDevices _) => cases ha
  | mutated value generation after => cases ha
  | onboardingRefreshed child complete version generation => cases ha
  | onboarded child authVersion generation => cases ha

/-- A method of an older generation that goes on leaves the state as it is. -/
theorem resume_older {task : Task} {s' : Store} (h : task.generation ≠ s.state.generation)
    (hr : s.resume task = some s') : s'.state = s.state := by
  cases task with
  | mutated value generation after =>
    replace h : generation ≠ s.state.generation := h
    cases hr
    rw [Store.mutated.eq_def, if_pos h]
  | onboardingRefreshed child complete version generation =>
    replace h : generation ≠ s.state.generation := h
    rw [Store.resume, Option.ite_none_right_eq_some] at hr
    cases hr.2
    rw [Store.onboardingRefreshed, if_pos h]
  | onboarded child authVersion generation =>
    replace h : generation ≠ s.state.generation := h
    rw [Store.resume, Option.ite_none_right_eq_some] at hr
    cases hr.2
    rw [authDone_of_ne h]
  | _ => cases hr

variable [Schemas]

theorem older_generation {task : Task} (ht : s.tasks id = some task)
    (h : task.generation ≠ s.state.generation) (response : Except Failure Value) :
    (step s (.respond id response)).state = s.state ∧ (step s (.resume id)).state = s.state := by
  constructor
  · simp only [step, ht]
    cases ha : (s.drop id).answer id task response with
    | none => rfl
    | some s' => exact @answer_older (s.drop id) id task response s' h ha
  · simp only [step, ht]
    cases hr : (s.drop id).resume task with
    | none => rfl
    | some s' => exact @resume_older (s.drop id) task s' h hr

end

/-! ## Polls and mutations -/

/-- The task keeps other mutations and polls away. -/
def Task.holds (state : RouterState) : Task → Prop
  | .mutation _ generation _ => generation = state.generation
  | .changePassword authVersion generation =>
    generation = state.generation ∧ authVersion = state.authVersion
  | _ => False

/-- The task is neither a poll nor a mutation. -/
def Task.quiet : Task → Bool
  | .refresh .. => false
  | .mutation .. => false
  | .changePassword .. => false
  | _ => true

/-- Since the poll was sent, a mutation of that generation has ended. -/
def Since (log : List Entry) (poll generation : ℕ) : Prop :=
  ∃ newer older task, log = newer ++ .polled poll :: older ∧ .ended task generation ∈ newer

/-- The poll was sent before the end of a mutation of its generation, which has ended or not yet. -/
def Outdated (s : Store) (poll generation : ℕ) : Prop :=
  Since s.log poll generation ∨
    ∃ id kind after, s.tasks id = some (.mutation kind generation after)

structure Inv (s : Store) : Prop where
  fresh : ∀ id, s.next ≤ id → s.tasks id = none
  logged : ∀ id, .polled id ∈ s.log → id < s.next
  le : ∀ id task, s.tasks id = some task → task.generation ≤ s.state.generation
  version : ∀ id version authVersion generation,
    s.tasks id = some (.refresh version authVersion generation) → version ≤ s.state.statusVersion
  auth : ∀ id authVersion generation,
    s.tasks id = some (.changePassword authVersion generation) → authVersion ≤ s.state.authVersion
  busy : ∀ id task, s.tasks id = some task → task.holds s.state → s.state.mutation ≠ none
  alone : ∀ id task id' task', s.tasks id = some task → s.tasks id' = some task' →
    task.holds s.state → task'.holds s.state → id = id'
  during : ∀ id kind after poll version authVersion,
    s.tasks id = some (.mutation kind s.state.generation after) →
    s.tasks poll = some (.refresh version authVersion s.state.generation) →
    version < s.state.statusVersion
  stale : ∀ id version authVersion generation,
    s.tasks id = some (.refresh version authVersion generation) → Since s.log id generation →
    version < s.state.statusVersion ∨ generation < s.state.generation

variable {s : Store} {v : RouterState} {id : ℕ} {task : Task}

theorem not_holds_of_quiet (h : task.quiet = true) : ¬ task.holds v := by
  cases task <;> simp_all [Task.quiet, Task.holds]

/-- The counters only grow, and nobody gets to hold `mutation` or loses it. -/
theorem Inv.set (h : Inv s) (hg : s.state.generation ≤ v.generation)
    (hs : s.state.statusVersion ≤ v.statusVersion) (ha : s.state.authVersion ≤ v.authVersion)
    (hholds : ∀ id task, s.tasks id = some task → task.holds v →
      task.holds s.state ∧ v.mutation ≠ none) : Inv (s.set v) where
  fresh := h.fresh
  logged := h.logged
  le id task ht := (h.le id task ht).trans hg
  version id version authVersion generation ht := (h.version id _ _ _ ht).trans hs
  auth id authVersion generation ht := (h.auth id _ _ ht).trans ha
  busy id task ht hh := (hholds id task ht hh).2
  alone id task id' task' ht ht' hh hh' :=
    h.alone id task id' task' ht ht' (hholds id task ht hh).1 (hholds id' task' ht' hh').1
  during id kind after poll version authVersion ht hp := by
    have he : v.generation = s.state.generation := (hholds id _ ht rfl).1
    change s.tasks id = some (.mutation kind v.generation after) at ht
    change s.tasks poll = some (.refresh version authVersion v.generation) at hp
    rw [he] at ht hp
    exact (h.during id kind after poll version authVersion ht hp).trans_le hs
  stale id version authVersion generation ht hsince := by
    rcases h.stale id _ _ _ ht hsince with hlt | hlt
    · exact .inl (hlt.trans_le hs)
    · exact .inr (hlt.trans_le hg)

/-- Generation, versions and `mutation` are as they were. -/
structure Tame (v v' : RouterState) : Prop where
  generation : v'.generation = v.generation
  statusVersion : v'.statusVersion = v.statusVersion
  authVersion : v'.authVersion = v.authVersion
  mutation : v'.mutation = v.mutation

theorem holds_congr {v v' : RouterState} (hg : v'.generation = v.generation)
    (ha : v'.authVersion = v.authVersion) : task.holds v' ↔ task.holds v := by
  cases task <;> simp [Task.holds, hg, ha]

theorem Inv.tame (h : Inv s) (v : RouterState) (ht : Tame s.state v) : Inv (s.set v) := by
  refine h.set ht.generation.ge ht.statusVersion.ge ht.authVersion.ge fun id task htask hh => ?_
  have hh' := (holds_congr ht.generation ht.authVersion).mp hh
  exact ⟨hh', ht.mutation ▸ h.busy id task htask hh'⟩

theorem Inv.reset (h : Inv s) (hg : s.state.generation < v.generation)
    (hs : s.state.statusVersion ≤ v.statusVersion) (ha : s.state.authVersion ≤ v.authVersion) :
    Inv (s.set v) := by
  refine h.set hg.le hs ha fun id task ht hh => ?_
  have hle := h.le id task ht
  have he : task.generation = v.generation := by
    cases task <;> simp_all [Task.holds, Task.generation]
  omega

theorem Inv.release (h : Inv s) (v : RouterState) (hg : v.generation = s.state.generation)
    (hs : v.statusVersion = s.state.statusVersion) (ha : v.authVersion = s.state.authVersion)
    (hno : ∀ id task, s.tasks id = some task → ¬ task.holds s.state) : Inv (s.set v) :=
  h.set hg.ge hs.ge ha.ge fun id task ht hh => absurd ((holds_congr hg ha).mp hh) (hno id task ht)

theorem since_cons {entry : Entry} {log : List Entry} {poll generation : ℕ}
    (h : Since (entry :: log) poll generation) (hne : .polled poll ∉ [entry]) :
    Since log poll generation ∨ ∃ task, entry = .ended task generation := by
  obtain ⟨newer, older, task, heq, hmem⟩ := h
  cases newer with
  | nil =>
    cases heq
    simp at hne
  | cons e newer =>
    obtain ⟨rfl, rfl⟩ := List.cons.inj heq
    rcases List.mem_cons.mp hmem with he | hmem
    · exact .inr ⟨task, he.symm⟩
    · exact .inl ⟨newer, older, task, rfl, hmem⟩

theorem fresh_spawn (h : ∀ id, s.next ≤ id → s.tasks id = none) :
    ∀ id, (s.spawn task).next ≤ id → (s.spawn task).tasks id = none := by
  intro other (hle : s.next + 1 ≤ other)
  have hne : other ≠ s.next := by omega
  exact (Function.update_of_ne hne _ _).trans (h other (by omega))

theorem spawned {tasks : ℕ → Option Task} {next other : ℕ} {task task' : Task}
    (ht : Function.update tasks next (some task) other = some task') :
    other = next ∧ task' = task ∨ tasks other = some task' := by
  by_cases he : other = next
  · rw [he, Function.update_self] at ht
    exact .inl ⟨he, (Option.some.inj ht).symm⟩
  · rw [Function.update_of_ne he] at ht
    exact .inr ht

/-- Tasks go, or are replaced by tasks that are neither polls nor mutations. -/
theorem Inv.retask (h : Inv s) {tasks : ℕ → Option Task} {next : ℕ} (hnext : s.next ≤ next)
    (hfresh : ∀ id, next ≤ id → tasks id = none)
    (htasks : ∀ id task, tasks id = some task → s.tasks id = some task ∨
      task.quiet = true ∧ task.generation ≤ s.state.generation) :
    Inv { s with tasks := tasks, next := next } := by
  have hold : ∀ id task, tasks id = some task → task.quiet = false → s.tasks id = some task :=
    fun id task ht hq => (htasks id task ht).resolve_right fun hno => by simp [hq] at hno
  have hholds : ∀ id task, tasks id = some task → task.holds s.state → s.tasks id = some task :=
    fun id task ht hh => (htasks id task ht).resolve_right fun hno =>
      not_holds_of_quiet hno.1 hh
  exact {
    fresh := hfresh
    logged := fun id hid => (h.logged id hid).trans_le hnext
    le := fun id task ht => (htasks id task ht).elim (h.le id task) And.right
    version := fun id _ _ _ ht => h.version id _ _ _ (hold id _ ht rfl)
    auth := fun id _ _ ht => h.auth id _ _ (hold id _ ht rfl)
    busy := fun id task ht hh => h.busy id task (hholds id task ht hh) hh
    alone := fun id task id' task' ht ht' hh hh' =>
      h.alone id task id' task' (hholds id task ht hh) (hholds id' task' ht' hh') hh hh'
    during := fun id _ _ poll _ _ ht hp =>
      h.during id _ _ poll _ _ (hold id _ ht rfl) (hold poll _ hp rfl)
    stale := fun id _ _ _ ht => h.stale id _ _ _ (hold id _ ht rfl) }

theorem Inv.drop (h : Inv s) (id : ℕ) : Inv (s.drop id) := by
  refine h.retask le_rfl (fun other hle => ?_) fun other task ht => .inl ?_
  · by_cases he : other = id
    · rw [he, Function.update_self]
    · rw [Function.update_of_ne he]
      exact h.fresh other hle
  · by_cases he : other = id
    · rw [he, Function.update_self] at ht
      cases ht
    · rwa [Function.update_of_ne he] at ht

theorem Inv.put (h : Inv s) (hid : id < s.next) (hq : task.quiet = true)
    (hg : task.generation ≤ s.state.generation) : Inv (s.put id task) := by
  refine h.retask le_rfl (fun other hle => ?_) fun other task' ht => ?_
  · rw [Function.update_of_ne (by omega)]
    exact h.fresh other hle
  · by_cases he : other = id
    · rw [he, Function.update_self] at ht
      cases ht
      exact .inr ⟨hq, hg⟩
    · rw [Function.update_of_ne he] at ht
      exact .inl ht

theorem Inv.spawn (h : Inv s) (hq : task.quiet = true)
    (hg : task.generation ≤ s.state.generation) : Inv (s.spawn task) := by
  refine h.retask (Nat.le_succ _) (fresh_spawn h.fresh) fun other task' ht => ?_
  rcases spawned ht with ⟨-, rfl⟩ | ht
  · exact .inr ⟨hq, hg⟩
  · exact .inl ht

theorem Inv.next_free (h : Inv s) : s.tasks s.next = none := h.fresh s.next le_rfl

theorem Inv.lt_next (h : Inv s) (ht : s.tasks id = some task) : id < s.next := by
  by_contra hle
  rw [h.fresh id (Nat.le_of_not_lt hle)] at ht
  cases ht

theorem Inv.refresh (h : Inv s) : Inv s.refresh.1 := by
  unfold Store.refresh
  split_ifs with hbusy
  · exact h
  · have hfree : s.state.mutation = none := by simp_all
    have hno : ∀ id task, s.tasks id = some task → ¬ task.holds s.state :=
      fun id task ht hh => h.busy id task ht hh hfree
    exact {
      fresh := fresh_spawn h.fresh
      logged := fun other hmem => by
        rcases List.mem_cons.mp hmem with he | hmem
        · cases he
          exact Nat.lt_succ_self _
        · exact (h.logged other hmem).trans (Nat.lt_succ_self _)
      le := fun other task ht => by
        rcases spawned ht with ⟨rfl, rfl⟩ | ht
        · exact le_rfl
        · exact h.le other task ht
      version := fun other version _ _ ht => by
        rcases spawned ht with ⟨rfl, he⟩ | ht
        · cases he
          exact le_rfl
        · exact h.version other _ _ _ ht
      auth := fun other _ _ ht => by
        rcases spawned ht with ⟨rfl, he⟩ | ht
        · cases he
        · exact h.auth other _ _ ht
      busy := fun other task ht hh => by
        rcases spawned ht with ⟨rfl, rfl⟩ | ht
        · exact absurd hh id
        · exact h.busy other task ht hh
      alone := fun other task other' task' ht ht' hh hh' => by
        rcases spawned ht with ⟨rfl, rfl⟩ | ht
        · exact absurd hh id
        · exact absurd hh (hno other task ht)
      during := fun other kind after poll version authVersion ht hp => by
        rcases spawned ht with ⟨rfl, he⟩ | ht
        · cases he
        · exact absurd rfl (hno other _ ht)
      stale := fun other version authVersion generation ht hsince => by
        rcases spawned ht with ⟨rfl, he⟩ | ht
        · obtain ⟨newer, older, task, heq, hmem⟩ := hsince
          cases newer with
          | nil => cases hmem
          | cons e newer =>
            have hlog : s.log = newer ++ .polled s.next :: older := (List.cons.inj heq).2
            have hold : .polled s.next ∈ s.log := by
              rw [hlog]
              exact List.mem_append_right _ List.mem_cons_self
            exact absurd (h.logged s.next hold) (Nat.lt_irrefl _)
        · have hne : .polled other ∉ [Entry.polled s.next] := by
            intro hmem
            cases List.mem_singleton.mp hmem
            cases h.next_free.symm.trans ht
          rcases since_cons hsince hne with hsince | ⟨task, he⟩
          · exact h.stale other _ _ _ ht hsince
          · cases he }

/-- A mutation begins when nothing holds `mutation`, and makes every poll old. -/
theorem Inv.mutateResult (h : Inv s) (kind : String) (after : After) :
    Inv (s.mutateResult kind after) := by
  unfold Store.mutateResult
  split_ifs with hbusy
  · exact h
  · have hfree : s.state.mutation = none := by simpa [RouterState.busy] using hbusy
    have hno : ∀ id task, s.tasks id = some task → ¬ task.holds s.state :=
      fun id task ht hh => h.busy id task ht hh hfree
    have hlt : ∀ poll version authVersion generation,
        s.tasks poll = some (.refresh version authVersion generation) →
        version < s.state.statusVersion + 1 :=
      fun poll _ _ _ hp => Nat.lt_succ_of_le (h.version poll _ _ _ hp)
    exact {
      fresh := fresh_spawn h.fresh
      logged := fun other hmem => (h.logged other hmem).trans (Nat.lt_succ_self _)
      le := fun other task ht => by
        rcases spawned ht with ⟨rfl, rfl⟩ | ht
        · exact le_rfl
        · exact h.le other task ht
      version := fun other version _ _ ht => by
        rcases spawned ht with ⟨rfl, he⟩ | ht
        · cases he
        · exact (hlt other _ _ _ ht).le
      auth := fun other _ _ ht => by
        rcases spawned ht with ⟨rfl, he⟩ | ht
        · cases he
        · exact h.auth other _ _ ht
      busy := fun other task ht hh hnone => nomatch hnone
      alone := fun other task other' task' ht ht' hh hh' => by
        rcases spawned ht with ⟨rfl, rfl⟩ | ht
        · rcases spawned ht' with ⟨rfl, rfl⟩ | ht'
          · rfl
          · exact absurd hh' (hno other' task' ht')
        · exact absurd hh (hno other task ht)
      during := fun other kind after poll version authVersion ht hp => by
        rcases spawned hp with ⟨rfl, he⟩ | hp
        · cases he
        · exact hlt poll _ _ _ hp
      stale := fun other version authVersion generation ht hsince => by
        rcases spawned ht with ⟨rfl, he⟩ | ht
        · cases he
        · exact .inl (hlt other _ _ _ ht) }

theorem Inv.changePassword (h : Inv s) : Inv s.changePassword := by
  unfold Store.changePassword
  split_ifs with hbusy
  · exact h
  · have hfree : s.state.mutation = none := by simp_all [RouterState.busy]
    have hno : ∀ id task, s.tasks id = some task → ¬ task.holds s.state :=
      fun id task ht hh => h.busy id task ht hh hfree
    have hno' : ∀ id task, s.tasks id = some task → ¬ task.holds s.state.passwordStarted := by
      intro id task ht hh
      cases task with
      | mutation kind generation after => exact hno id _ ht hh
      | changePassword authVersion generation =>
        have hle := h.auth id _ _ ht
        have he : authVersion = s.state.authVersion + 1 := hh.2
        omega
      | _ => exact hh
    exact {
      fresh := fresh_spawn h.fresh
      logged := fun other hmem => (h.logged other hmem).trans (Nat.lt_succ_self _)
      le := fun other task ht => by
        rcases spawned ht with ⟨rfl, rfl⟩ | ht
        · exact le_rfl
        · exact h.le other task ht
      version := fun other version _ _ ht => by
        rcases spawned ht with ⟨rfl, he⟩ | ht
        · cases he
        · exact h.version other _ _ _ ht
      auth := fun other _ _ ht => by
        rcases spawned ht with ⟨rfl, he⟩ | ht
        · cases he
          exact le_rfl
        · exact (h.auth other _ _ ht).trans (Nat.le_succ _)
      busy := fun other task ht hh hnone => nomatch hnone
      alone := fun other task other' task' ht ht' hh hh' => by
        rcases spawned ht with ⟨rfl, rfl⟩ | ht
        · rcases spawned ht' with ⟨rfl, rfl⟩ | ht'
          · rfl
          · exact absurd hh' (hno' other' task' ht')
        · exact absurd hh (hno' other task ht)
      during := fun other kind after poll version authVersion ht hp => by
        rcases spawned ht with ⟨rfl, he⟩ | ht
        · cases he
        · exact absurd rfl (hno other _ ht)
      stale := fun other version authVersion generation ht hsince => by
        rcases spawned ht with ⟨rfl, he⟩ | ht
        · cases he
        · exact h.stale other _ _ _ ht hsince }

theorem Inv.ended (h : Inv s) {kind : String} {generation : ℕ} {after : After}
    (ht : s.tasks id = some (.mutation kind generation after)) :
    Inv ((s.drop id).note (.ended id generation)) := by
  have hdrop := h.drop id
  refine { hdrop with logged := fun other hmem => ?_, stale := fun other v av g hother hsince => ?_ }
  · rcases List.mem_cons.mp hmem with he | hmem
    · cases he
    · exact h.logged other hmem
  · have hne : .polled other ∉ [Entry.ended id generation] := by
      intro hmem
      cases List.mem_singleton.mp hmem
    rcases since_cons hsince hne with hsince | ⟨task, he⟩
    · exact hdrop.stale other _ _ _ hother hsince
    · cases he
      have hpoll : s.tasks other = some (.refresh v av generation) := by
        by_cases he : other = id
        · subst he
          have hnone : (s.drop other).tasks other = none := Function.update_self _ _ _
          rw [show ((s.drop other).note _).tasks other = (s.drop other).tasks other from rfl, hnone] at hother
          cases hother
        · rwa [show ((s.drop id).note _).tasks other = s.tasks other from
            Function.update_of_ne he _ _] at hother
      rcases (h.le id _ ht).lt_or_eq with hlt | heq
      · exact .inr hlt
      · replace heq : generation = s.state.generation := heq
        subst heq
        exact .inl (h.during id _ _ other _ _ ht hpoll)

/-! ## Methods and answers -/

theorem tame_clearWarning (v : RouterState) : Tame v v.clearWarning := by
  unfold RouterState.clearWarning
  split_ifs
  · exact ⟨rfl, rfl, rfl, rfl⟩
  · exact ⟨rfl, rfl, rfl, rfl⟩

theorem tame_polled (v : RouterState) (status : Status) : Tame v (v.polled status) := by
  obtain ⟨hg, hs, ha, hm⟩ := tame_clearWarning
    { v with
      currentStatus := some status
      statusUncertain := false
      actionError := if v.actionError = refreshRequired then "" else v.actionError
      pollError := "" }
  exact ⟨hg, hs, ha, hm⟩

theorem tame_mutated (v : RouterState) (status : Status) : Tame v (v.mutated status) := by
  obtain ⟨hg, hs, ha, hm⟩ := tame_clearWarning
    { v with currentStatus := some status, statusUncertain := false }
  exact ⟨hg, hs, ha, hm⟩

theorem tame_onboarded (v : RouterState) (onboarding : OnboardingStatus) :
    Tame v (v.onboarded onboarding) := by
  unfold RouterState.onboarded
  dsimp only
  split_ifs
  · exact ⟨rfl, rfl, rfl, rfl⟩
  · exact ⟨rfl, rfl, rfl, rfl⟩

theorem refresh_tame (s : Store) : Tame s.state s.refresh.1.state ∧ s.next ≤ s.refresh.1.next := by
  unfold Store.refresh
  split_ifs
  · exact ⟨⟨rfl, rfl, rfl, rfl⟩, le_rfl⟩
  · exact ⟨⟨rfl, rfl, rfl, rfl⟩, Nat.le_succ _⟩

theorem loadOnboarding_tame (s : Store) :
    Tame s.state s.loadOnboarding.1.state ∧ s.next ≤ s.loadOnboarding.1.next := by
  unfold Store.loadOnboarding
  split_ifs
  · exact ⟨⟨rfl, rfl, rfl, rfl⟩, le_rfl⟩
  · exact ⟨⟨rfl, rfl, rfl, rfl⟩, Nat.le_succ _⟩

theorem Inv.ite {p : Prop} [Decidable p] {a b : Store} (ha : Inv a) (hb : Inv b) :
    Inv (if p then a else b) := by
  split_ifs
  · exact ha
  · exact hb

theorem Inv.loadOnboarding (h : Inv s) : Inv s.loadOnboarding.1 := by
  unfold Store.loadOnboarding
  split_ifs
  · exact h
  · exact (h.tame s.state.onboardingStarted ⟨rfl, rfl, rfl, rfl⟩).spawn rfl le_rfl

theorem Inv.startPolling (h : Inv s) : Inv s.startPolling :=
  .ite h (h.refresh.tame _ ⟨rfl, rfl, rfl, rfl⟩)

theorem Inv.handleAuthError (h : Inv s) (ht : Tame s.state v) {error : Failure} {v' : RouterState}
    (hv : v.handleAuthError error = some v') : Inv (s.set v') := by
  rw [RouterState.handleAuthError, Option.ite_none_right_eq_some] at hv
  cases hv.2
  refine h.reset ?_ ?_ ?_
  · show s.state.generation < v.generation + 1
    rw [ht.generation]
    exact Nat.lt_succ_self _
  · show s.state.statusVersion ≤ v.statusVersion + 1
    rw [ht.statusVersion]
    exact Nat.le_succ _
  · show s.state.authVersion ≤ v.authVersion + 1
    rw [ht.authVersion]
    exact Nat.le_succ _

theorem Inv.authFailed (h : Inv s) (ht : Tame s.state v) (error : Failure) :
    Inv (s.authFailed v error) := by
  unfold Store.authFailed
  cases hv : v.handleAuthError error with
  | none => exact h.tame v ht
  | some v' => exact h.handleAuthError ht hv

theorem Inv.authDone (h : Inv s) (authVersion generation : ℕ) :
    Inv (s.authDone authVersion generation) :=
  .ite h (h.tame s.state.authFinished ⟨rfl, rfl, rfl, rfl⟩)

theorem Inv.pollDone (h : Inv s) (generation : ℕ) : Inv (s.pollDone generation) :=
  .ite (h.tame s.state.pollFinished ⟨rfl, rfl, rfl, rfl⟩) h

theorem Inv.onboardingDone (h : Inv s) (version generation : ℕ) :
    Inv (s.onboardingDone version generation) :=
  .ite (h.tame s.state.onboardingFinished ⟨rfl, rfl, rfl, rfl⟩) h

theorem Inv.inventoryDone (h : Inv s) (generation : ℕ) : Inv (s.inventoryDone generation) :=
  .ite (h.tame s.state.inventoryFinished ⟨rfl, rfl, rfl, rfl⟩) h

theorem Inv.onboardingRefreshed (h : Inv s) (complete : Bool) (version generation : ℕ) :
    Inv (s.onboardingRefreshed complete version generation) :=
  .ite h (.ite (h.startPolling.onboardingDone _ _) (h.onboardingDone _ _))

theorem Inv.refreshed (h : Inv s) (version authVersion generation : ℕ)
    (answer : Except Failure Status) : Inv (s.refreshed version authVersion generation answer) := by
  cases answer with
  | ok status =>
    exact .ite ((h.tame _ (tame_polled s.state status)).pollDone _) (h.pollDone _)
  | error error =>
    refine .ite (h.pollDone _) ?_
    cases hv : s.state.handleAuthError error with
    | some v => exact h.handleAuthError ⟨rfl, rfl, rfl, rfl⟩ hv
    | none =>
      have hfailed := h.tame (s.state.pollFailed error) ⟨rfl, rfl, rfl, rfl⟩
      exact .ite (hfailed.pollDone _) (h.pollDone _)

theorem Inv.mutated (h : Inv s) (value : Option Value) (generation : ℕ) (after : After) :
    Inv (s.mutated value generation after) := by
  rw [Store.mutated.eq_def]
  refine .ite h ?_
  split
  · exact h
  · exact h.tame _ (tame_mutated s.state _)
  · exact h.tame s.state.uncertain ⟨rfl, rfl, rfl, rfl⟩
  · exact .ite (h.tame { s.state with actionWarning := "" } ⟨rfl, rfl, rfl, rfl⟩) h
  · exact h
  · rename_i result
    exact (h.tame (s.state.completed result) ⟨rfl, rfl, rfl, rfl⟩).startPolling
  · exact h

theorem mutationFailed_release (v : RouterState) (kind : String) (error : Failure) :
    (v.mutationFailed kind error).generation = v.generation ∧
      (v.mutationFailed kind error).statusVersion = v.statusVersion ∧
      (v.mutationFailed kind error).authVersion = v.authVersion := by
  unfold RouterState.mutationFailed
  split_ifs
  · exact ⟨rfl, rfl, rfl⟩
  · exact ⟨rfl, rfl, rfl⟩

theorem Inv.mutationEnded (h : Inv s) {kind : String} {generation : ℕ} {after : After}
    (hid : id < s.next) (hle : generation ≤ s.state.generation)
    (hno : generation = s.state.generation →
      ∀ other task, s.tasks other = some task → ¬ task.holds s.state)
    (answer : Except Failure Value) : Inv (s.mutationEnded id kind generation after answer) := by
  have hput : ∀ {v : RouterState} (value : Option Value), Inv (s.set v) →
      s.state.generation ≤ v.generation → Inv ((s.set v).put id (.mutated value generation after)) :=
    fun value hset hv => hset.put hid rfl (hle.trans hv)
  rw [Store.mutationEnded.eq_def]
  split_ifs with hg
  · exact h.put hid rfl hle
  · have hno' := hno (not_not.mp hg)
    cases answer with
    | ok value => exact hput _ (h.release s.state.mutationSucceeded rfl rfl rfl hno') le_rfl
    | error error =>
      dsimp only
      cases hv : s.state.handleAuthError error with
      | none =>
        obtain ⟨hg', hs', ha'⟩ := mutationFailed_release s.state kind error
        exact hput _ (h.release _ hg' hs' ha' hno') hg'.ge
      | some v =>
        refine hput _ (h.handleAuthError ⟨rfl, rfl, rfl, rfl⟩ hv) ?_
        rw [RouterState.handleAuthError, Option.ite_none_right_eq_some] at hv
        cases hv.2
        exact Nat.le_succ _

theorem Inv.onboardingLoaded (h : Inv s) (hid : id < s.next) (version : ℕ) {generation : ℕ}
    (hle : generation ≤ s.state.generation) (authVersion : ℕ)
    (answer : Except Failure OnboardingStatus) :
    Inv (s.onboardingLoaded id version generation authVersion answer) := by
  cases answer with
  | ok onboarding =>
    refine .ite (h.onboardingDone _ _) ?_
    have htame := tame_onboarded s.state onboarding
    have hset := h.tame _ htame
    have hrefresh := refresh_tame (s.set (s.state.onboarded onboarding))
    refine .ite (hset.refresh.put (hid.trans_le hrefresh.2) rfl ?_) (hset.onboardingRefreshed _ _ _)
    exact hle.trans (hrefresh.1.generation.trans htame.generation).ge
  | error error =>
    refine .ite (h.onboardingDone _ _) ?_
    cases hv : s.state.handleAuthError error with
    | some v => exact h.handleAuthError ⟨rfl, rfl, rfl, rfl⟩ hv
    | none =>
      have hfailed := h.tame (s.state.actionFailed (RouterState.message error)) ⟨rfl, rfl, rfl, rfl⟩
      exact hfailed.onboardingDone _ _

theorem Inv.authInitialized (h : Inv s) (hid : id < s.next) (authVersion : ℕ) {generation : ℕ}
    (hle : generation ≤ s.state.generation) (answer : Except Failure AuthStatus) :
    Inv (s.authInitialized id authVersion generation answer) := by
  refine .ite h ?_
  cases answer with
  | ok auth =>
    have hset := h.tame (s.state.initialized auth) ⟨rfl, rfl, rfl, rfl⟩
    have hload := loadOnboarding_tame (s.set (s.state.initialized auth))
    refine .ite (hset.loadOnboarding.put (hid.trans_le hload.2) rfl ?_) (hset.authDone _ _)
    exact hle.trans hload.1.generation.ge
  | error error =>
    exact (h.tame (s.state.initializeFailed error) ⟨rfl, rfl, rfl, rfl⟩).authDone _ _

theorem Inv.signedIn (h : Inv s) (setup : Bool) (authVersion generation : ℕ)
    (answer : Except Failure AuthStatus) : Inv (s.signedIn setup authVersion generation answer) := by
  refine .ite h ?_
  cases answer with
  | ok auth =>
    have hset := h.tame (s.state.signedIn auth) ⟨rfl, rfl, rfl, rfl⟩
    exact .ite hset.loadOnboarding hset
  | error error =>
    have htame : Tame s.state (s.state.signInFailed setup error) := ⟨rfl, rfl, rfl, rfl⟩
    exact h.authFailed htame error

theorem Inv.loggedOut (h : Inv s) (authVersion generation : ℕ) (answer : Except Failure AuthStatus) :
    Inv (s.loggedOut authVersion generation answer) := by
  refine .ite h ?_
  cases answer with
  | ok auth => exact (h.tame (s.state.applyAuth auth) ⟨rfl, rfl, rfl, rfl⟩).authDone _ _
  | error error =>
    have htame : Tame s.state (s.state.authFailed (RouterState.message error)) := ⟨rfl, rfl, rfl, rfl⟩
    exact (h.authFailed htame error).authDone _ _

theorem Inv.lanDevicesLoaded (h : Inv s) (authVersion generation : ℕ)
    (answer : Except Failure LanDevices) :
    Inv (s.lanDevicesLoaded authVersion generation answer) := by
  refine .ite (h.inventoryDone _) ?_
  cases answer with
  | ok inventory =>
    exact (h.tame (s.state.inventoryLoaded inventory) ⟨rfl, rfl, rfl, rfl⟩).inventoryDone _
  | error error =>
    dsimp only
    cases hv : s.state.handleAuthError error with
    | some v => exact h.handleAuthError ⟨rfl, rfl, rfl, rfl⟩ hv
    | none =>
      exact (h.tame (s.state.inventoryFailed error) ⟨rfl, rfl, rfl, rfl⟩).inventoryDone _

theorem Inv.passwordChanged (h : Inv s) {authVersion generation : ℕ}
    (hno : ¬ s.superseded authVersion generation →
      ∀ other task, s.tasks other = some task → ¬ task.holds s.state)
    (answer : Except Failure AuthStatus) :
    Inv (s.passwordChanged authVersion generation answer) := by
  unfold Store.passwordChanged
  split_ifs with hsuper
  · exact h
  · have hno' := hno hsuper
    have hsigned : ∀ (error : Failure) (text : String) (v : RouterState),
        s.state.handleAuthError error = some v → Inv (s.set (v.authFailed text)) := by
      intro error text v hv
      have hset := h.handleAuthError ⟨rfl, rfl, rfl, rfl⟩ hv
      exact hset.tame (v.authFailed text) ⟨rfl, rfl, rfl, rfl⟩
    have hshown : ∀ shown, Inv (s.set (s.state.passwordFailed shown)) :=
      fun shown => h.release (s.state.passwordFailed shown) rfl rfl rfl hno'
    cases answer with
    | ok auth =>
      refine .ite (h.release (s.state.passwordChanged auth) rfl rfl rfl hno') ?_
      dsimp only
      split
      · rename_i v hv
        exact hsigned _ _ v hv
      · exact hshown _
    | error error =>
      dsimp only
      split
      · rename_i v hv
        exact hsigned _ _ v hv
      · exact hshown _

/-- The task gives up what it held: nobody holds `mutation` after it has gone. -/
theorem Inv.alone_dropped (h : Inv s) (ht : s.tasks id = some task) (hh : task.holds s.state) :
    ∀ other task', (s.drop id).tasks other = some task' → ¬ task'.holds s.state := by
  intro other task' ht' hh'
  by_cases he : other = id
  · have hnone : (s.drop id).tasks id = none := Function.update_self _ _ _
    rw [he, hnone] at ht'
    cases ht'
  · have hold : s.tasks other = some task' := (Function.update_of_ne he _ _).symm.trans ht'
    exact he (h.alone other task' id task hold ht hh' hh)

theorem Inv.answer (h : Inv s) (ht : s.tasks id = some task) {response : Except Failure Value}
    {s' : Store} (ha : (s.drop id).answer id task response = some s') : Inv s' := by
  have hdrop := h.drop id
  have hid : id < (s.drop id).next := h.lt_next ht
  have hle : task.generation ≤ s.state.generation := h.le id task ht
  cases task with
  | refresh version authVersion generation =>
    match response with
    | .ok (.status status) => cases ha; exact hdrop.refreshed _ _ _ _
    | .error error => cases ha; exact hdrop.refreshed _ _ _ _
    | .ok (.auth _) | .ok (.onboarding _) | .ok (.lanDevices _) | .ok .other => cases ha
  | mutation kind generation after =>
    cases ha
    have hended : Inv ((s.drop id).note (.ended id generation)) := h.ended ht
    exact hended.mutationEnded hid hle (fun he => h.alone_dropped ht he) response
  | onboarding version generation authVersion =>
    match response with
    | .ok (.onboarding onboarding) => cases ha; exact hdrop.onboardingLoaded hid _ hle _ _
    | .error error => cases ha; exact hdrop.onboardingLoaded hid _ hle _ _
    | .ok (.status _) | .ok (.auth _) | .ok (.lanDevices _) | .ok .other => cases ha
  | authStatus authVersion generation =>
    match response with
    | .ok (.auth auth) => cases ha; exact hdrop.authInitialized hid _ hle _
    | .error error => cases ha; exact hdrop.authInitialized hid _ hle _
    | .ok (.status _) | .ok (.onboarding _) | .ok (.lanDevices _) | .ok .other => cases ha
  | signIn setup authVersion generation =>
    match response with
    | .ok (.auth auth) => cases ha; exact hdrop.signedIn _ _ _ _
    | .error error => cases ha; exact hdrop.signedIn _ _ _ _
    | .ok (.status _) | .ok (.onboarding _) | .ok (.lanDevices _) | .ok .other => cases ha
  | logout authVersion generation =>
    match response with
    | .ok (.auth auth) => cases ha; exact hdrop.loggedOut _ _ _
    | .error error => cases ha; exact hdrop.loggedOut _ _ _
    | .ok (.status _) | .ok (.onboarding _) | .ok (.lanDevices _) | .ok .other => cases ha
  | changePassword authVersion generation =>
    have hno : ¬ (s.drop id).superseded authVersion generation →
        ∀ other task, (s.drop id).tasks other = some task → ¬ task.holds s.state := by
      intro hsuper
      obtain ⟨hg, hv⟩ := not_or.mp hsuper
      exact h.alone_dropped ht ⟨not_not.mp hg, not_not.mp hv⟩
    match response with
    | .ok (.auth auth) => cases ha; exact hdrop.passwordChanged hno _
    | .error error => cases ha; exact hdrop.passwordChanged hno _
    | .ok (.status _) | .ok (.onboarding _) | .ok (.lanDevices _) | .ok .other => cases ha
  | lanDevices authVersion generation =>
    match response with
    | .ok (.lanDevices inventory) => cases ha; exact hdrop.lanDevicesLoaded _ _ _
    | .error error => cases ha; exact hdrop.lanDevicesLoaded _ _ _
    | .ok (.status _) | .ok (.auth _) | .ok (.onboarding _) | .ok .other => cases ha
  | testRouting authVersion generation =>
    match response with
    | .ok .other => cases ha; exact hdrop
    | .error error => cases ha; exact .ite hdrop (hdrop.authFailed ⟨rfl, rfl, rfl, rfl⟩ error)
    | .ok (.status _) | .ok (.auth _) | .ok (.onboarding _) | .ok (.lanDevices _) => cases ha
  | mutated value generation after => cases ha
  | onboardingRefreshed child complete version generation => cases ha
  | onboarded child authVersion generation => cases ha

theorem Inv.resume (h : Inv s) {s' : Store} (hr : s.resume task = some s') : Inv s' := by
  cases task with
  | mutated value generation after =>
    cases hr
    exact h.mutated _ _ _
  | onboardingRefreshed child complete version generation =>
    rw [Store.resume, Option.ite_none_right_eq_some] at hr
    cases hr.2
    exact h.onboardingRefreshed _ _ _
  | onboarded child authVersion generation =>
    rw [Store.resume, Option.ite_none_right_eq_some] at hr
    cases hr.2
    exact h.authDone _ _
  | _ => cases hr

theorem Inv.stop (h : Inv s) (hg : v.generation = s.state.generation + 1)
    (hs : v.statusVersion = s.state.statusVersion) (ha : v.authVersion = s.state.authVersion + 1) :
    Inv (s.set v) :=
  h.reset (hg ▸ Nat.lt_succ_self _) hs.ge (ha ▸ Nat.le_succ _)

theorem Inv.fail (h : Inv s) (actionError : String) : Inv (s.fail actionError) :=
  h.tame (s.state.actionFailed actionError) ⟨rfl, rfl, rfl, rfl⟩

theorem Inv.requireFreshStatus (h : Inv s) : Inv s.requireFreshStatus.1 := by
  unfold Store.requireFreshStatus
  split_ifs
  · exact h
  · exact h.fail _

theorem Inv.setDeviceExcluded [Schemas] (h : Inv s) (mac : String) (excluded : Bool) :
    Inv (s.setDeviceExcluded mac excluded) := by
  refine .ite h ?_
  cases s.state.currentStatus with
  | none => exact h.fail _
  | some status =>
    refine .ite (h.fail _) ?_
    cases Schemas.deviceExclusionInput mac excluded with
    | error issue => exact h.fail _
    | ok input => exact .ite (h.fail _) (h.mutateResult _ _)

theorem Inv.call [Schemas] (h : Inv s) (method : Method) : Inv (s.call method) := by
  cases method with
  | refresh => exact h.refresh
  | startPolling => exact h.startPolling
  | stopPolling => exact h.tame s.state.stopPolling ⟨rfl, rfl, rfl, rfl⟩
  | stop => exact h.stop rfl rfl rfl
  | clearActionError => exact h.tame s.state.clearActionError ⟨rfl, rfl, rfl, rfl⟩
  | loadOnboarding => exact h.loadOnboarding
  | initializeAuth => exact (h.stop (v := s.state.initializing) rfl rfl rfl).spawn rfl le_rfl
  | setupAuth => exact (h.stop (v := s.state.signingIn) rfl rfl rfl).spawn rfl le_rfl
  | loginAuth => exact (h.stop (v := s.state.signingIn) rfl rfl rfl).spawn rfl le_rfl
  | logoutAuth => exact (h.stop (v := s.state.loggingOut) rfl rfl rfl).spawn rfl le_rfl
  | changePassword => exact h.changePassword
  | setMode vpnEnabled =>
    refine .ite h ?_
    have hfresh := h.requireFreshStatus
    split
    · rename_i heq
      rwa [heq] at hfresh
    · rename_i heq
      rw [heq] at hfresh
      exact .ite hfresh (hfresh.mutateResult _ _)
  | selectServer key =>
    refine .ite h ?_
    have hfresh := h.requireFreshStatus
    split
    · rename_i heq
      rwa [heq] at hfresh
    · rename_i heq
      rw [heq] at hfresh
      exact .ite hfresh (hfresh.mutateResult _ _)
  | setDeviceExcluded mac excluded => exact h.setDeviceExcluded mac excluded
  | refreshLanDevices =>
    exact .ite h ((h.tame s.state.inventoryStarted ⟨rfl, rfl, rfl, rfl⟩).spawn rfl le_rfl)
  | testRouting => exact h.spawn rfl le_rfl
  | _ => exact h.mutateResult _ _

theorem Inv.step [Schemas] (h : Inv s) (event : Event) : Inv (step s event) := by
  cases event with
  | call method => exact h.call method
  | timer => exact .ite h.refresh h
  | respond id response =>
    simp only [Web.step]
    split
    · rename_i task ht
      cases ha : (s.drop id).answer id task response with
      | none => exact h
      | some s' => exact h.answer ht ha
    · exact h
  | resume id =>
    simp only [Web.step]
    split
    · rename_i task ht
      cases hr : (s.drop id).resume task with
      | none => exact h
      | some s' => exact (h.drop id).resume hr
    · exact h

theorem Inv.initial : Inv .initial where
  fresh _ _ := rfl
  logged _ h := nomatch h
  le _ _ h := nomatch h
  version _ _ _ _ h := nomatch h
  auth _ _ _ h := nomatch h
  busy _ _ h := nomatch h
  alone _ _ _ _ h := nomatch h
  during _ _ _ _ _ _ h := nomatch h
  stale _ _ _ _ h := nomatch h

theorem Inv.run [Schemas] (h : Inv s) (events : List Event) : Inv (events.foldl Web.step s) := by
  induction events generalizing s with
  | nil => exact h
  | cons event events ih => exact ih (h.step event)

/-! ## Stale polls -/

theorem pollDone_shows (s : Store) (generation : ℕ) :
    (s.pollDone generation).state.statusUncertain = s.state.statusUncertain ∧
      (s.pollDone generation).state.currentStatus = s.state.currentStatus := by
  unfold Store.pollDone
  split_ifs
  · exact ⟨rfl, rfl⟩
  · exact ⟨rfl, rfl⟩

/-- A poll from before the end of a mutation has an old version or an old generation. -/
theorem Inv.outdated (h : Inv s) {version authVersion generation : ℕ}
    (ht : s.tasks id = some (.refresh version authVersion generation))
    (hout : Outdated s id generation) :
    ¬ (generation = s.state.generation ∧ version = s.state.statusVersion) := by
  rintro ⟨rfl, rfl⟩
  rcases hout with hsince | ⟨other, kind, after, hm⟩
  · rcases h.stale id _ _ _ ht hsince with hlt | hlt
    · exact absurd hlt (Nat.lt_irrefl _)
    · exact absurd hlt (Nat.lt_irrefl _)
  · exact absurd (h.during other kind after id _ _ hm ht) (Nat.lt_irrefl _)

theorem refreshed_outdated {version authVersion generation : ℕ}
    (hout : ¬ (generation = s.state.generation ∧ version = s.state.statusVersion))
    (answer : Except Failure Status) :
    ((s.refreshed version authVersion generation answer).state.statusUncertain =
        s.state.statusUncertain ∧
      (s.refreshed version authVersion generation answer).state.currentStatus =
        s.state.currentStatus) ∨
    ∃ error, answer = .error error ∧ RouterState.unauthorized error = true ∧
      (s.refreshed version authVersion generation answer).state = s.state.signOut := by
  cases answer with
  | ok status =>
    rw [Store.refreshed, if_neg hout]
    exact .inl (pollDone_shows s generation)
  | error error =>
    unfold Store.refreshed
    split_ifs with hold hcurrent
    · exact .inl (pollDone_shows s generation)
    · dsimp only
      cases hv : s.state.handleAuthError error with
      | some v =>
        rw [RouterState.handleAuthError, Option.ite_none_right_eq_some] at hv
        exact .inr ⟨error, rfl, hv.1, (Option.some.inj hv.2).symm⟩
      | none =>
        exact absurd ⟨not_not.mp (not_or.mp hold).1, hcurrent⟩ hout
    · dsimp only
      cases hv : s.state.handleAuthError error with
      | some v =>
        rw [RouterState.handleAuthError, Option.ite_none_right_eq_some] at hv
        exact .inr ⟨error, rfl, hv.1, (Option.some.inj hv.2).symm⟩
      | none => exact .inl (pollDone_shows s generation)

/-- **In every run, a task of an older generation changes nothing, and the answer to a poll that was
sent before a mutation of its generation ended leaves the status and its uncertainty as they are,
unless it says that the session has expired, which is a reset.** -/
theorem stale_ignored [Schemas] (events : List Event) (id : ℕ) (response : Except Failure Value) :
    let s := events.foldl step .initial
    let s' := step s (.respond id response)
    (∀ task, s.tasks id = some task → task.generation ≠ s.state.generation →
      s'.state = s.state ∧ (step s (.resume id)).state = s.state) ∧
    ∀ version authVersion generation,
      s.tasks id = some (.refresh version authVersion generation) → Outdated s id generation →
      (s'.state.statusUncertain = s.state.statusUncertain ∧
        s'.state.currentStatus = s.state.currentStatus) ∨
      ∃ error, response = .error error ∧ RouterState.unauthorized error = true ∧
        s'.state = s.state.signOut := by
  intro s s'
  refine ⟨fun task ht hg => older_generation ht hg response, ?_⟩
  intro version authVersion generation ht hout
  have hinv : Inv s := Inv.initial.run events
  have hold := hinv.outdated ht hout
  have hs' : s' = ((s.drop id).answer id (.refresh version authVersion generation) response).getD s := by
    simp only [s', step, ht]
  match response with
  | .ok (.status status) =>
    have hr := @refreshed_outdated (s.drop id) version authVersion generation hold (.ok status)
    rw [hs']
    rcases hr with hr | ⟨error, he, -⟩
    · exact .inl hr
    · cases he
  | .error error =>
    have hr := @refreshed_outdated (s.drop id) version authVersion generation hold (.error error)
    rw [hs']
    rcases hr with hr | ⟨error', he, hunauthorized, hstate⟩
    · exact .inl hr
    · cases he
      exact .inr ⟨error, rfl, hunauthorized, hstate⟩
  | .ok (.auth _) | .ok (.onboarding _) | .ok (.lanDevices _) | .ok .other =>
    rw [hs']
    exact .inl ⟨rfl, rfl⟩

/-- A poll, a mutation that begins and ends, then the answer to the poll. -/
theorem stale_ignored_sample :
    letI : Schemas := ⟨fun mac excluded => .ok (mac, excluded), fun _ => true⟩
    let status : Status := ⟨false, false, none, none, []⟩
    let s := [Event.call .refresh, .call .setAutoUpdate, .respond 1 (.ok (.status status)),
      .resume 1].foldl step .initial
    s.state.currentStatus = some status ∧
      (step s (.respond 0 (.ok (.status { status with vpn_enabled := true })))).state.currentStatus =
        some status := by
  let : Schemas := ⟨fun mac excluded => .ok (mac, excluded), fun _ => true⟩
  let status : Status := ⟨false, false, none, none, []⟩
  let events : List Event := [.call .refresh, .call .setAutoUpdate,
    .respond 1 (.ok (.status status)), .resume 1]
  have hstatus : (events.foldl step .initial).state.currentStatus = some status := rfl
  have hout : Outdated (events.foldl step .initial) 0 0 :=
    .inl ⟨[.ended 1 0], [], 1, rfl, List.mem_cons_self⟩
  have hstale := (stale_ignored events 0 (.ok (.status { status with vpn_enabled := true }))).2
    0 0 0 rfl hout
  refine ⟨hstatus, ?_⟩
  rcases hstale with ⟨-, hsame⟩ | ⟨error, he, -⟩
  · exact hsame.trans hstatus
  · cases he

/-- A mutation, a reset while it is in flight, a poll, and then the end of the mutation and the answer
to the poll: the answer ends the uncertainty, though the poll was sent before the mutation ended. -/
theorem abandoned_mutation :
    ¬ ∀ [Schemas] (events : List Event) (id : ℕ) (response : Except Failure Value) (task generation : ℕ)
        (newer older : List Entry),
      (events.foldl step .initial).log = newer ++ .polled id :: older → .ended task generation ∈ newer →
      (events.foldl step .initial).state.statusUncertain = true →
      (step (events.foldl step .initial) (.respond id response)).state.statusUncertain = true := by
  intro h
  let status : Status := ⟨false, false, none, none, []⟩
  let events : List Event :=
    [.call .setAutoUpdate, .call .stop, .call .refresh, .respond 0 (.ok (.status status))]
  have hclear := @h ⟨fun mac excluded => .ok (mac, excluded), fun _ => true⟩ events 1
    (.ok (.status status)) 0 0 [.ended 0 0] [] rfl List.mem_cons_self rfl
  exact Bool.noConfusion hclear

end Gofro.Web
