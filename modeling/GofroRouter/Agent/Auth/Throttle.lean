import GofroRouter.Agent.Auth.Sessions

/-!
# Throttled guesses

A wrong password is recorded with its time, and no password is verified for a second after that. The
job of `change_password` records it itself. For `login` the handler does, after its job: when the
client disconnects before that, the job gives the permit back and nothing is recorded.

* `Spaced`: no verification starts within a second of one that found the password wrong.
* `Event.Heeded`: nobody disconnects from a `login` with a wrong password.
* **`guesses_throttled`**: runs of such events are throttled; `guess_unthrottled`: others are not.
-/

namespace Gofro.Agent.Auth

open Fallible

/-- Verifications start a second or more after each earlier one that failed. -/
def Spaced (log : List Entry) : Prop :=
  ∀ request time older, Entry.started request time :: older <:+ log →
    ∀ other version time', .verified other false version time' ∈ older → time' + SECOND ≤ time

/-- An entry that says nothing about guesses. -/
def Entry.mild : Entry → Bool
  | .started _ _ => false
  | .verified _ valid _ _ => valid
  | _ => true

/-- The job has passed the check of the throttle. -/
def Job.passed : Job → Bool
  | .login _ => true
  | .login_verifying .. => true
  | .change_verifying .. => true
  | .change_writing .. => true
  | .change_written .. => true
  | _ => false

/-- The handler is about to record a wrong password. -/
def Job.pending : Job → Bool
  | .finished (.login (some false)) => true
  | _ => false

variable {log log' : List Entry} {entry : Entry} {request : ℕ}

theorem spaced_cons (h : Spaced log) (he : ∀ request time, entry = .started request time →
    ∀ other version time', .verified other false version time' ∈ log → time' + SECOND ≤ time) :
    Spaced (entry :: log) := by
  intro request time older hsuffix
  rcases List.suffix_cons_iff.mp hsuffix with heq | hsuffix
  · cases heq
    exact he request time rfl
  · exact h request time older hsuffix

theorem not_passed_of_not_holds {job : Job} (h : job.holds = false) : job.passed = false := by
  cases job <;> simp_all [Job.holds, Job.passed]

theorem not_pending_of_not_holds {job : Job} (h : job.holds = false) : job.pending = false := by
  cases job with
  | finished result =>
    cases result with
    | change response => rfl
    | _ => cases h
  | _ => rfl

/-- Every wrong guess of the log was at least a second ago. -/
def Waited (s : Server) : Prop :=
  ∀ request version time, .verified request false version time ∈ s.log → time + SECOND ≤ s.now

section

variable (pbkdf2_hmac : List UInt8 → List UInt8 → ℕ → (len : ℕ) → Except String (Vector UInt8 len))

/-- The password that a `login` in flight has brought is wrong. -/
def Job.wrong (file : Option Credential) : Job → Bool
  | .login password => !login_valid pbkdf2_hmac (read_record file) password
  | .login_verifying password record _ => !login_valid pbkdf2_hmac record password
  | .finished (.login (some false)) => true
  | _ => false

/-- The client of a `login` with a wrong password stays until it is answered. -/
def Event.Heeded (s : Server) : Event → Prop
  | .disconnect request => ∀ task, s.tasks request = some task →
      task.job.wrong pbkdf2_hmac s.password = false
  | _ => True

/-- Wrong guesses are a second old, or recorded, or about to be. -/
structure Slow (s : Server) : Prop where
  spaced : Spaced s.log
  past : ∀ request version time, .verified request false version time ∈ s.log → time ≤ s.now
  waiting : ∀ request task, s.tasks request = some task →
    task.job.wrong pbkdf2_hmac s.password = true → task.waiting = true
  passed : ∀ request task, s.tasks request = some task → task.job.passed = true → Waited s
  recorded : ∀ request version time, .verified request false version time ∈ s.log →
    time + SECOND ≤ s.now ∨ (∃ failed, s.inner.failed = some failed ∧ time ≤ failed) ∨
      ∃ other task, s.tasks other = some task ∧ task.job.pending = true

end

variable {pbkdf2_hmac : List UInt8 → List UInt8 → ℕ → (len : ℕ) → Except String (Vector UInt8 len)}
  {s s' : Server} {task : Task} {panel : Panel} {luck : Luck} {first : Option Credential}

theorem wrong_of_not_holds {file : Option Credential} {job : Job} (h : job.holds = false) :
    job.wrong pbkdf2_hmac file = false := by
  cases job with
  | finished result =>
    cases result with
    | change response => rfl
    | _ => cases h
  | _ => cases h

/-- With the permit at a request that has nothing to record, every wrong guess is old or recorded. -/
theorem Slow.settled (h : Slow pbkdf2_hmac s) (ha : Alone s request)
    (ht : ∀ task, s.tasks request = some task → task.job.pending = false) :
    ∀ other version time, .verified other false version time ∈ s.log →
      time + SECOND ≤ s.now ∨ ∃ failed, s.inner.failed = some failed ∧ time ≤ failed := by
  intro other version time hmem
  rcases h.recorded other version time hmem with hold | hrecorded | ⟨third, task, hthird, hpending⟩
  · exact .inl hold
  · exact .inr hrecorded
  · have hno : task.job.pending = false := by
      by_cases he : third = request
      · exact ht task (he ▸ hthird)
      · exact not_pending_of_not_holds (ha third task he hthird)
    rw [hno] at hpending
    cases hpending

theorem Slow.waited (h : Slow pbkdf2_hmac s) (ha : Alone s request)
    (ht : ∀ task, s.tasks request = some task → task.job.pending = false)
    (hthrottled : s.throttled = false) : Waited s := by
  intro other version time hmem
  rcases h.settled ha ht other version time hmem with hold | ⟨failed, hf, hle⟩
  · exact hold
  · simp only [Server.throttled, hf, Option.any_some, decide_eq_false_iff_not, not_lt] at hthrottled
    have hpos : 0 < SECOND := by decide
    omega

theorem Slow.update (ha : Alone s request) {task' : Option Task}
    (htasks : s'.tasks = Function.update s.tasks request task') (hspaced : Spaced s'.log)
    (hpast : ∀ other version time, .verified other false version time ∈ s'.log → time ≤ s'.now)
    (hwaiting : ∀ task, task' = some task → task.job.wrong pbkdf2_hmac s'.password = true →
      task.waiting = true)
    (hpassed : ∀ task, task' = some task → task.job.passed = true → Waited s')
    (hrecorded : ∀ other version time, .verified other false version time ∈ s'.log →
      time + SECOND ≤ s'.now ∨ (∃ failed, s'.inner.failed = some failed ∧ time ≤ failed) ∨
        ∃ task, task' = some task ∧ task.job.pending = true) : Slow pbkdf2_hmac s' where
  spaced := hspaced
  past := hpast
  waiting other task ht hw := by
    rw [htasks] at ht
    by_cases he : other = request
    · subst he
      rw [Function.update_self] at ht
      exact hwaiting task ht hw
    · rw [Function.update_of_ne he] at ht
      rw [wrong_of_not_holds (ha other task he ht)] at hw
      cases hw
  passed other task ht hp := by
    rw [htasks] at ht
    by_cases he : other = request
    · subst he
      rw [Function.update_self] at ht
      exact hpassed task ht hp
    · rw [Function.update_of_ne he] at ht
      rw [not_passed_of_not_holds (ha other task he ht)] at hp
      cases hp
  recorded other version time hmem := by
    rcases hrecorded other version time hmem with hold | hr | ⟨task, ht, hp⟩
    · exact .inl hold
    · exact .inr (.inl hr)
    · refine .inr (.inr ⟨request, task, ?_, hp⟩)
      rw [htasks, Function.update_self, ht]

/-- Nothing new about guesses. -/
structure Mild (s s' : Server) : Prop where
  now : s'.now = s.now
  failed : s'.inner.failed = s.inner.failed
  log : ∃ new : List Entry, s'.log = new ++ s.log ∧ ∀ entry ∈ new, entry.mild = true

theorem Mild.refl : Mild s s := ⟨rfl, rfl, [], rfl, fun _ h => nomatch h⟩

theorem Mild.note {s s' : Server} (h : Mild s s') (he : entry.mild = true) :
    Mild s (s'.note entry) := by
  obtain ⟨hnow, hfailed, new, hlog, hnew⟩ := h
  refine ⟨hnow, hfailed, entry :: new, congrArg (entry :: ·) hlog, fun e he' => ?_⟩
  rcases List.mem_cons.mp he' with rfl | hmem
  · exact he
  · exact hnew e hmem

theorem Mild.mem (h : Mild s s') {version time : ℕ}
    (hmem : .verified request false version time ∈ s'.log) :
    .verified request false version time ∈ s.log := by
  obtain ⟨-, -, new, hlog, hnew⟩ := h
  rw [hlog] at hmem
  rcases List.mem_append.mp hmem with hm | hm
  · cases hnew _ hm
  · exact hm

theorem Mild.spaced (h : Mild s s') (hs : Spaced s.log) : Spaced s'.log := by
  obtain ⟨-, -, new, hlog, hnew⟩ := h
  rw [hlog]
  clear hlog
  induction new with
  | nil => exact hs
  | cons e new ih =>
    refine spaced_cons (ih fun e' he' => hnew e' (List.mem_cons_of_mem _ he')) ?_
    rintro request time rfl
    cases hnew _ List.mem_cons_self

theorem Mild.waited (h : Mild s s') (hs : Waited s) : Waited s' := by
  intro request version time hmem
  rw [h.now]
  exact hs request version time (h.mem hmem)

theorem Slow.mild (h : Slow pbkdf2_hmac s) (ha : Alone s request)
    (ht : ∀ task, s.tasks request = some task → task.job.pending = false) {task' : Option Task}
    (htasks : s'.tasks = Function.update s.tasks request task') (hm : Mild s s')
    (hwaiting : ∀ task, task' = some task → task.job.wrong pbkdf2_hmac s'.password = true →
      task.waiting = true)
    (hpassed : ∀ task, task' = some task → task.job.passed = true → Waited s) :
    Slow pbkdf2_hmac s' := by
  refine Slow.update ha htasks (hm.spaced h.spaced) ?_ hwaiting
    (fun task htask hp => hm.waited (hpassed task htask hp)) ?_
  · intro other version time hmem
    rw [hm.now]
    exact h.past other version time (hm.mem hmem)
  · intro other version time hmem
    rw [hm.now, hm.failed]
    exact (h.settled ha ht other version time (hm.mem hmem)).imp_right .inl

theorem Slow.same (h : Slow pbkdf2_hmac s) (hm : Mild s s') (hpassword : s'.password = s.password)
    (htasks : ∀ other task, s'.tasks other = some task → s.tasks other = some task)
    (hpending : ∀ other task, s.tasks other = some task → task.job.pending = true →
      s'.tasks other = some task) : Slow pbkdf2_hmac s' where
  spaced := hm.spaced h.spaced
  past request version time hmem := by
    rw [hm.now]
    exact h.past request version time (hm.mem hmem)
  waiting request task ht hw := h.waiting request task (htasks request task ht) (hpassword ▸ hw)
  passed request task ht hp := hm.waited (h.passed request task (htasks request task ht) hp)
  recorded request version time hmem := by
    rw [hm.now, hm.failed]
    rcases h.recorded request version time (hm.mem hmem) with hold | hr | ⟨other, task, ht, hp⟩
    · exact .inl hold
    · exact .inr (.inl hr)
    · exact .inr (.inr ⟨other, task, hpending other task ht hp, hp⟩)

/-! ## Jobs -/

theorem finish_tasks (s : Server) (request : ℕ) (task : Task) (result : Result) :
    ∃ task', (finish s request task result).tasks = Function.update s.tasks request task' ∧
      ∀ t, task' = some t → t = ⟨true, .finished result⟩ := by
  unfold finish
  split_ifs
  · refine ⟨_, rfl, ?_⟩
    rintro _ ⟨⟩
    rfl
  · exact ⟨_, rfl, fun _ h => nomatch h⟩

theorem finish_change_tasks (s : Server) (request : ℕ) (task : Task) (response : Response) :
    ∃ task', (finish_change s request task response).tasks = Function.update s.tasks request task' ∧
      ∀ t, task' = some t → t = ⟨true, .finished (.change response)⟩ := by
  unfold finish_change
  dsimp only
  split_ifs
  · refine ⟨_, rfl, ?_⟩
    rintro _ ⟨⟩
    rfl
  · exact ⟨_, rfl, fun _ h => nomatch h⟩

theorem Mild.finish {s s₁ : Server} {result : Result} (h : Mild s s₁) :
    Mild s (finish s₁ request task result) := by
  unfold Auth.finish
  split_ifs
  · exact ⟨h.now, h.failed, h.log⟩
  · exact ⟨h.now, h.failed, h.log⟩

theorem finish_change_now (s : Server) (request : ℕ) (task : Task) (response : Response) :
    (finish_change s request task response).now = s.now := by
  unfold finish_change
  dsimp only
  split_ifs
  · rfl
  · rfl

theorem Mild.finish_change {s s₁ : Server} {response : Response} (h : Mild s s₁) :
    Mild s (finish_change s₁ request task response) := by
  obtain ⟨hinner, -, hlog⟩ := finish_change_same s₁ request task response
  refine ⟨(finish_change_now _ _ _ _).trans h.now, (congrArg Inner.failed hinner).trans h.failed, ?_⟩
  rw [hlog]
  exact h.log

theorem Slow.finish (h : Slow pbkdf2_hmac s) (ha : Alone s request)
    (ht : s.tasks request = some task) (hp : task.job.pending = false) {s₁ : Server} {result : Result}
    (htasks : s₁.tasks = s.tasks) (hm : Mild s s₁) :
    Slow pbkdf2_hmac (Auth.finish s₁ request task result) := by
  obtain ⟨task', htask', hsome⟩ := finish_tasks s₁ request task result
  rw [htasks] at htask'
  refine h.mild ha ?_ htask' hm.finish ?_ ?_
  · intro t ht'
    rw [ht] at ht'
    cases ht'
    exact hp
  · intro t ht' _
    rw [hsome t ht']
  · intro t ht' hno
    rw [hsome t ht'] at hno
    cases hno

theorem Slow.finish_change (h : Slow pbkdf2_hmac s) (ha : Alone s request)
    (ht : s.tasks request = some task) (hp : task.job.pending = false) {s₁ : Server}
    {response : Response} (htasks : s₁.tasks = s.tasks) (hm : Mild s s₁) :
    Slow pbkdf2_hmac (Auth.finish_change s₁ request task response) := by
  obtain ⟨task', htask', hsome⟩ := finish_change_tasks s₁ request task response
  rw [htasks] at htask'
  refine h.mild ha ?_ htask' hm.finish_change ?_ ?_
  · intro t ht'
    rw [ht] at ht'
    cases ht'
    exact hp
  · intro t ht' _
    rw [hsome t ht']
  · intro t ht' hno
    rw [hsome t ht'] at hno
    cases hno

theorem Slow.put (h : Slow pbkdf2_hmac s) (ha : Alone s request)
    (ht : s.tasks request = some task) (hp : task.job.passed = true) {s₁ : Server} {job : Job}
    (htasks : s₁.tasks = s.tasks) (hm : Mild s s₁)
    (hwrong : job.wrong pbkdf2_hmac s₁.password = false) :
    Slow pbkdf2_hmac (s₁.put request (some ⟨task.waiting, job⟩)) := by
  have htasks' : (s₁.put request (some ⟨task.waiting, job⟩)).tasks =
      Function.update s.tasks request (some ⟨task.waiting, job⟩) := by
    rw [← htasks]
    rfl
  refine h.mild ha ?_ htasks' ⟨hm.now, hm.failed, hm.log⟩ ?_ fun _ _ _ => h.passed request task ht hp
  · intro t ht'
    rw [ht] at ht'
    cases ht'
    cases hjob : task.job <;> simp_all [Job.passed, Job.pending]
  · rintro _ ⟨⟩ hw
    exact absurd (hwrong.symm.trans hw) (by decide)

theorem Waited.spaced (hw : Waited s) (hs : Spaced s.log) :
    Spaced (.started request s.now :: s.log) := by
  refine spaced_cons hs ?_
  rintro _ _ ⟨⟩
  exact hw

theorem mem_started {other version time now : ℕ}
    (h : Entry.verified other false version time ∈ Entry.started request now :: log) :
    .verified other false version time ∈ log :=
  (List.mem_cons.mp h).resolve_left fun hno => nomatch hno

theorem Slow.login (h : Slow pbkdf2_hmac s) (ha : Alone s request) {waiting : Bool}
    {password : String} (ht : s.tasks request = some ⟨waiting, .login password⟩) :
    Slow pbkdf2_hmac (work pbkdf2_hmac s request ⟨waiting, .login password⟩ luck) := by
  have hw : Waited s := h.passed request _ ht rfl
  have hw' : ∀ other version time, .verified other false version time ∈
      Entry.started request s.now :: s.log → time + SECOND ≤ s.now :=
    fun other version time hmem => hw other version time (mem_started hmem)
  refine Slow.update ha rfl (hw.spaced h.spaced) ?_ ?_ ?_ ?_
  · exact fun other version time hmem => h.past other version time (mem_started hmem)
  · rintro _ ⟨⟩ hwrong
    exact h.waiting request ⟨waiting, .login password⟩ ht hwrong
  · rintro _ ⟨⟩ _
    exact hw'
  · exact fun other version time hmem => .inl (hw' other version time hmem)

theorem Slow.login_verifying (h : Slow pbkdf2_hmac s) (ha : Alone s request) {waiting : Bool}
    {password : String} {record : Option Record} {version : ℕ}
    (ht : s.tasks request = some ⟨waiting, .login_verifying password record version⟩) :
    Slow pbkdf2_hmac
      (work pbkdf2_hmac s request ⟨waiting, .login_verifying password record version⟩ luck) := by
  have hw : Waited s := h.passed request _ ht rfl
  unfold work
  dsimp only
  cases hvalid : login_valid pbkdf2_hmac record password with
  | true =>
    obtain ⟨marker, setup_code, hsame⟩ := complete_admin_same
      (s.note (.verified request true version s.now)) luck
    rw [if_pos rfl, hsame]
    exact h.finish ha ht rfl rfl ⟨rfl, rfl, [.verified request true version s.now], rfl, by simp [Entry.mild]⟩
  | false =>
    have hwaiting : waiting = true := by
      refine h.waiting request _ ht ?_
      simp only [Job.wrong, hvalid, Bool.not_false]
    subst hwaiting
    refine Slow.update ha rfl ?_ ?_ ?_ ?_ ?_
    · exact spaced_cons h.spaced fun _ _ hno => nomatch hno
    · intro other v time hmem
      rcases List.mem_cons.mp hmem with he | hmem
      · cases he
        exact le_rfl
      · exact h.past other v time hmem
    · rintro _ ⟨⟩ _
      rfl
    · rintro _ ⟨⟩ hno
      cases hno
    · intro other v time hmem
      rcases List.mem_cons.mp hmem with he | hmem
      · exact .inr (.inr ⟨_, rfl, rfl⟩)
      · exact .inl (hw other v time hmem)

theorem Slow.change (h : Slow pbkdf2_hmac s) (ha : Alone s request) {waiting : Bool}
    {headers : Headers} {input : PasswordChangeInput}
    (ht : s.tasks request = some ⟨waiting, .change headers input⟩) :
    Slow pbkdf2_hmac (work pbkdf2_hmac s request ⟨waiting, .change headers input⟩ luck) := by
  unfold work
  dsimp only
  split_ifs
  · exact h
  · split
    · exact h.finish_change ha ht rfl rfl .refl
    · rename_i hchecks
      split
      · exact h.finish_change ha ht rfl rfl .refl
      · have hthrottled : s.throttled = false := by
          simp only [change_checks] at hchecks
          split at hchecks
          · simp only [except_bind_eq_ok, ensure_eq_ok, Bool.not_eq_true'] at hchecks
            obtain ⟨-, -, -, -, hthrottled⟩ := hchecks
            exact hthrottled
          · cases hchecks
        have hw : Waited s := h.waited ha (fun t ht' => by
          rw [ht] at ht'
          cases ht'
          rfl) hthrottled
        have hw' : ∀ other version time, .verified other false version time ∈
            Entry.started request s.now :: s.log → time + SECOND ≤ s.now :=
          fun other version time hmem => hw other version time (mem_started hmem)
        refine Slow.update ha rfl (hw.spaced h.spaced) ?_ ?_ ?_ ?_
        · exact fun other version time hmem => h.past other version time (mem_started hmem)
        · rintro _ ⟨⟩ hno
          cases hno
        · rintro _ ⟨⟩ _
          exact hw'
        · exact fun other version time hmem => .inl (hw' other version time hmem)

/-- The job of `change_password` ends with every wrong guess old or recorded. -/
theorem Slow.finished (ha : Alone s request) {s₁ : Server} {response : Response}
    (htasks : s₁.tasks = s.tasks) (hspaced : Spaced s₁.log)
    (hpast : ∀ other version time, .verified other false version time ∈ s₁.log → time ≤ s₁.now)
    (hrecorded : ∀ other version time, .verified other false version time ∈ s₁.log →
      time + SECOND ≤ s₁.now ∨ ∃ failed, s₁.inner.failed = some failed ∧ time ≤ failed) :
    Slow pbkdf2_hmac (Auth.finish_change s₁ request task response) := by
  obtain ⟨task', htask', hsome⟩ := finish_change_tasks s₁ request task response
  obtain ⟨hinner, -, hlog⟩ := finish_change_same s₁ request task response
  have hnow := finish_change_now s₁ request task response
  rw [htasks] at htask'
  refine Slow.update ha htask' (by rwa [hlog]) ?_ ?_ ?_ ?_
  · rw [hlog, hnow]
    exact hpast
  · intro t ht' _
    rw [hsome t ht']
  · intro t ht' hno
    rw [hsome t ht'] at hno
    cases hno
  · rw [hlog, hnow, hinner]
    exact fun other version time hmem => (hrecorded other version time hmem).imp_right .inl

theorem Slow.change_verifying (h : Slow pbkdf2_hmac s) (ha : Alone s request) {waiting : Bool}
    {input : PasswordChangeInput} {record : Record} {version : ℕ}
    (ht : s.tasks request = some ⟨waiting, .change_verifying input record version⟩) :
    Slow pbkdf2_hmac
      (work pbkdf2_hmac s request ⟨waiting, .change_verifying input record version⟩ luck) := by
  have hnote : Mild s (s.note (.verified request true version s.now)) := Mild.refl.note rfl
  unfold work
  dsimp only
  split
  · exact h.finish_change ha ht rfl rfl .refl
  · have hpast : ∀ other v time, .verified other false v time ∈
        Entry.verified request false version s.now :: s.log → time ≤ s.now := by
      intro other v time hmem
      rcases List.mem_cons.mp hmem with he | hmem
      · cases he
        exact le_rfl
      · exact h.past other v time hmem
    exact Slow.finished ha rfl (spaced_cons h.spaced fun _ _ hno => nomatch hno) hpast
      fun other v time hmem => .inr ⟨s.now, rfl, hpast other v time hmem⟩
  · split
    · exact h.finish_change ha ht rfl rfl hnote
    · exact h.put ha ht rfl rfl hnote rfl

theorem Slow.work (h : Slow pbkdf2_hmac s) (hi : Inv first s) (ht : s.tasks request = some task) :
    Slow pbkdf2_hmac (work pbkdf2_hmac s request task luck) := by
  have ha : task.job.holds = true → Alone s request := fun hh => hi.control.alone ht hh
  obtain ⟨waiting, job⟩ := task
  cases job with
  | setup password =>
    unfold Auth.work
    dsimp only
    rcases write_record_cases s request true password luck with hw | ⟨credential, write, hne, hw⟩
    · rw [hw]
      exact h.finish (ha rfl) ht rfl rfl .refl
    · rw [hw]
      have hmild : Mild s ({ s with password := some credential }.note (.installed request true)) :=
        ⟨rfl, rfl, [.installed request true], rfl, by simp [Entry.mild]⟩
      cases write with
      | failed => exact absurd rfl hne
      | published => exact h.finish (ha rfl) ht rfl rfl hmild
      | done =>
        obtain ⟨marker, setup_code, hsame⟩ := complete_admin_same
          ({ s with password := some credential }.note (.installed request true)) luck
        dsimp only
        rw [hsame]
        exact h.finish (ha rfl) ht rfl rfl ⟨hmild.now, hmild.failed, hmild.log⟩
  | login password => exact h.login (ha rfl) ht
  | login_verifying password record version => exact h.login_verifying (ha rfl) ht
  | change headers input => exact h.change (ha rfl) ht
  | change_verifying input record version => exact h.change_verifying (ha rfl) ht
  | change_writing password token csrf =>
    unfold Auth.work
    dsimp only
    rcases write_record_cases s request false password luck with hw | ⟨credential, write, hne, hw⟩
    · rw [hw]
      exact h.finish_change (ha rfl) ht rfl rfl .refl
    · rw [hw]
      have hmild : Mild s ({ s with password := some credential }.note (.installed request false)) :=
        ⟨rfl, rfl, [.installed request false], rfl, by simp [Entry.mild]⟩
      cases write with
      | failed => exact absurd rfl hne
      | published => exact h.put (ha rfl) ht rfl rfl hmild rfl
      | done => exact h.put (ha rfl) ht rfl rfl hmild rfl
  | change_written write token csrf =>
    have hw : Waited s := h.passed request _ ht rfl
    unfold Auth.work
    dsimp only
    cases write with
    | failed => exact h.finish_change (ha rfl) ht rfl rfl ⟨rfl, rfl, [], rfl, by simp⟩
    | published => exact h.finish_change (ha rfl) ht rfl rfl ⟨rfl, rfl, [], rfl, by simp⟩
    | done =>
      have hold : ∀ other v time, .verified other false v time ∈
          Entry.issued request token (version s.log) :: s.log → time + SECOND ≤ s.now :=
        fun other v time hmem =>
          hw other v time ((List.mem_cons.mp hmem).resolve_left fun hno => nomatch hno)
      exact Slow.finished (ha rfl) rfl (spaced_cons h.spaced fun _ _ hno => nomatch hno)
        (fun other v time hmem => (Nat.le_add_right _ _).trans (hold other v time hmem))
        fun other v time hmem => .inl (hold other v time hmem)
  | finished result => exact h

/-! ## Handlers and arrivals -/

theorem issue_mild (s : Server) (request : ℕ) (tokens : Option (String × String)) :
    Mild s (s.issue request tokens).1 := by
  cases tokens with
  | none => exact ⟨rfl, rfl, [], rfl, fun _ h => nomatch h⟩
  | some tokens => exact ⟨rfl, rfl, [.issued request tokens.1 (version s.log)], rfl, by simp [Entry.mild]⟩

theorem Slow.gone (h : Slow pbkdf2_hmac s) (ha : Alone s request)
    (ht : s.tasks request = some task) (hp : task.job.pending = false)
    (htasks : s'.tasks = Function.update s.tasks request none) (hm : Mild s s') :
    Slow pbkdf2_hmac s' := by
  refine h.mild ha (fun t ht' => ?_) htasks hm (fun _ hno => nomatch hno) fun _ hno => nomatch hno
  rw [ht] at ht'
  cases ht'
  exact hp

theorem Slow.leave (h : Slow pbkdf2_hmac s) (ht : s.tasks request = some task)
    (hh : task.job.holds = false) (htasks : s'.tasks = Function.update s.tasks request none)
    (hpassword : s'.password = s.password) (hm : Mild s s') : Slow pbkdf2_hmac s' := by
  refine h.same hm hpassword (fun other t ht' => ?_) fun other t ht' hp => ?_
  · rw [htasks] at ht'
    by_cases he : other = request
    · rw [he, Function.update_self] at ht'
      cases ht'
    · rwa [Function.update_of_ne he] at ht'
  · rw [htasks, Function.update_of_ne, ht']
    rintro rfl
    rw [ht] at ht'
    cases ht'
    rw [not_pending_of_not_holds hh] at hp
    cases hp

theorem Slow.authenticate (h : Slow pbkdf2_hmac s) (ha : Alone s request)
    (ht : s.tasks request = some task) (hp : task.job.pending = false)
    (tokens : Option (String × String)) : Slow pbkdf2_hmac
      (({ s.put request none with permit := none }).authenticate request tokens) := by
  obtain ⟨response, he⟩ := authenticate_eq { s.put request none with permit := none } request tokens
  have hframed := issue_framed { s.put request none with permit := none } request tokens
  have hmild := issue_mild { s.put request none with permit := none } request tokens
  rw [he]
  exact h.gone ha ht hp hframed.tasks
    (Mild.note ⟨hmild.now, hmild.failed, hmild.log⟩ rfl)

theorem Slow.resume (h : Slow pbkdf2_hmac s) (hi : Inv first s) {result : Result}
    (ht : s.tasks request = some ⟨true, .finished result⟩) :
    Slow pbkdf2_hmac (resume s request result luck) := by
  have ha : (Job.finished result).holds = true → Alone s request := fun hh => hi.control.alone ht hh
  have hanswer : ∀ response, Mild s ({ s.put request none with permit := none }.answer request response) :=
    fun response => ⟨rfl, rfl, [.answered request response], rfl, by simp [Entry.mild]⟩
  unfold Auth.resume
  match result with
  | .setup false => exact h.gone (ha rfl) ht rfl rfl (hanswer _)
  | .setup true =>
    dsimp only
    split_ifs
    · exact h
    · exact h.authenticate (ha rfl) ht rfl _
  | .login none => exact h.gone (ha rfl) ht rfl rfl (hanswer _)
  | .login (some true) =>
    dsimp only
    split_ifs
    · exact h
    · exact h.authenticate (ha rfl) ht rfl _
  | .login (some false) =>
    dsimp only
    split_ifs
    · exact h
    · have hmem : ∀ {other v time}, Entry.verified other false v time ∈
          Entry.answered request (.error 401 "invalid_password") :: s.log →
          .verified other false v time ∈ s.log :=
        fun hm => (List.mem_cons.mp hm).resolve_left fun hno => nomatch hno
      refine Slow.update (ha rfl) rfl (spaced_cons h.spaced fun _ _ hno => nomatch hno)
        (fun other v time hm => h.past other v time (hmem hm)) (fun _ hno => nomatch hno)
        (fun _ hno => nomatch hno) fun other v time hm => ?_
      exact .inr (.inl ⟨s.now, rfl, h.past other v time (hmem hm)⟩)
  | .change response =>
    exact h.leave ht rfl rfl rfl ⟨rfl, rfl, [.answered request response], rfl, by simp [Entry.mild]⟩

theorem Slow.disconnect (h : Slow pbkdf2_hmac s) (hi : Inv first s) {job : Job}
    (ht : s.tasks request = some ⟨true, job⟩)
    (hheeded : job.wrong pbkdf2_hmac s.password = false) :
    Slow pbkdf2_hmac (disconnect s request ⟨true, job⟩) := by
  have ha : job.holds = true → Alone s request := fun hh => hi.control.alone ht hh
  have hmild : ∀ task', Mild s (s.put request task') := fun _ =>
    ⟨rfl, rfl, [], rfl, fun _ hno => nomatch hno⟩
  have hdropped : job.holds = true → job.pending = false →
      Slow pbkdf2_hmac (s.put request (some ⟨false, job⟩)) := by
    intro hh hp
    refine h.mild (ha hh) (fun t ht' => ?_) rfl (hmild _) ?_ ?_
    · rw [ht] at ht'
      cases ht'
      exact hp
    · rintro _ ⟨⟩ hw
      exact absurd (hheeded.symm.trans hw) (by decide)
    · rintro _ ⟨⟩ hpassed
      exact h.passed request _ ht hpassed
  cases job with
  | finished result =>
    match result with
    | .setup ok => exact h.gone (ha rfl) ht rfl rfl ⟨rfl, rfl, [], rfl, fun _ hno => nomatch hno⟩
    | .login none => exact h.gone (ha rfl) ht rfl rfl ⟨rfl, rfl, [], rfl, fun _ hno => nomatch hno⟩
    | .login (some true) =>
      exact h.gone (ha rfl) ht rfl rfl ⟨rfl, rfl, [], rfl, fun _ hno => nomatch hno⟩
    | .login (some false) => cases hheeded
    | .change response => exact h.leave ht rfl rfl rfl (hmild none)
  | _ => exact hdropped rfl rfl

theorem Slow.spawn (h : Slow pbkdf2_hmac s) (hi : Inv first s) {result : Except Response Job}
    (hok : ∀ job, result = .ok job → s.permit = none ∧ (job.passed = true → s.throttled = false)) :
    Slow pbkdf2_hmac (spawn s result) := by
  cases result with
  | error response =>
    have hm : Mild s (Auth.spawn s (.error response)) :=
      ⟨rfl, rfl, [.answered s.next response], rfl, by simp [Entry.mild]⟩
    exact h.same hm rfl (fun _ _ ht => ht) fun _ _ ht _ => ht
  | ok job =>
    obtain ⟨hpermit, hthrottled⟩ := hok job rfl
    have ha : Alone s s.next := hi.control.alone_of_free hpermit
    have hfree : ∀ task, s.tasks s.next = some task → task.job.pending = false := fun task ht => by
      rw [hi.control.fresh s.next le_rfl] at ht
      cases ht
    refine h.mild ha hfree rfl ⟨rfl, rfl, [], rfl, fun _ hno => nomatch hno⟩ ?_ ?_
    · rintro _ ⟨⟩ _
      rfl
    · rintro _ ⟨⟩ hp
      exact h.waited ha hfree (hthrottled hp)

theorem look_up_mild (s : Server) (headers : Headers) : Mild s (s.look_up headers) := by
  rcases look_up_cases s headers with h | h
  · rw [h]
    exact .refl
  · rw [h]
    exact ⟨rfl, rfl, [], rfl, fun _ hno => nomatch hno⟩

theorem Slow.arrive (h : Slow pbkdf2_hmac s) (hi : Inv first s) (request : Request) (window : ℕ) :
    Slow pbkdf2_hmac (arrive panel s request window luck) := by
  unfold Auth.arrive
  cases request with
  | setup head input =>
    refine h.spawn hi fun job hjob => ?_
    obtain ⟨rfl, hpermit, -⟩ := setup_eq_ok hjob
    exact ⟨hpermit, fun hno => nomatch hno⟩
  | login head input =>
    dsimp only
    split_ifs
    · exact h
    · refine h.spawn hi fun job hjob => ?_
      obtain ⟨rfl, hpermit, hthrottled⟩ := login_eq_ok hjob
      exact ⟨hpermit, fun _ => hthrottled⟩
  | change_password headers input =>
    refine h.spawn hi fun job hjob => ?_
    obtain ⟨rfl, hpermit⟩ := change_password_eq_ok hjob
    exact ⟨hpermit, fun hno => nomatch hno⟩
  | logout headers =>
    dsimp only
    split_ifs
    · exact h
    · obtain ⟨sessions, response, -, he⟩ := logout_eq s s.next headers luck.tokens
      have hm := look_up_mild s headers
      have hf := framed_look_up s headers
      have hc := calm_look_up s headers
      have hm' : Mild s (((s.look_up headers).set_sessions sessions).answer s.next response) :=
        Mild.note ⟨hm.now, hm.failed, hm.log⟩ rfl
      rw [he]
      refine h.same ⟨hm'.now, hm'.failed, hm'.log⟩ hc.password ?_ ?_
      · exact fun _ _ ht => hf.tasks ▸ ht
      · exact fun _ _ ht _ => hf.tasks.symm ▸ ht

theorem Slow.tick (h : Slow pbkdf2_hmac s) (duration : ℕ) :
    Slow pbkdf2_hmac { s with now := s.now + duration } where
  spaced := h.spaced
  past request version time hmem := (h.past request version time hmem).trans (Nat.le_add_right _ _)
  waiting := h.waiting
  passed request task ht hp other version time hmem :=
    (h.passed request task ht hp other version time hmem).trans (Nat.le_add_right _ _)
  recorded request version time hmem :=
    (h.recorded request version time hmem).imp_left fun hold => hold.trans (Nat.le_add_right _ _)

theorem Slow.step (h : Slow pbkdf2_hmac s) (hi : Inv first s) {event : Event}
    (hheeded : event.Heeded pbkdf2_hmac s) : Slow pbkdf2_hmac (step panel pbkdf2_hmac s event) := by
  cases event with
  | tick duration => exact h.tick duration
  | arrive request window luck => exact h.arrive hi request window
  | work request luck =>
    unfold Auth.step
    dsimp only
    split
    · rename_i task ht
      exact h.work hi ht
    · exact h
  | resume request luck =>
    unfold Auth.step
    dsimp only
    split
    · rename_i result ht
      exact h.resume hi ht
    · exact h
  | disconnect request =>
    unfold Auth.step
    dsimp only
    split
    · rename_i job ht
      exact h.disconnect hi ht (hheeded _ ht)
    · exact h
  | look_up headers =>
    unfold Auth.step
    dsimp only
    split_ifs
    · exact h
    · have hf := framed_look_up s headers
      refine h.same (look_up_mild s headers) (calm_look_up s headers).password ?_ ?_
      · exact fun _ _ ht => hf.tasks ▸ ht
      · exact fun _ _ ht _ => hf.tasks.symm ▸ ht

theorem slow_opened (now : ℕ) (first : Option Credential) (setup_code marker : Option String) :
    Slow pbkdf2_hmac (opened now first setup_code marker) where
  spaced _ _ _ h := nomatch List.suffix_nil.mp h
  past _ _ _ h := nomatch h
  waiting _ _ h := nomatch h
  passed _ _ h := nomatch h
  recorded _ _ _ h := nomatch h

/-- **Password guesses are throttled** in every run in which no client disconnects from a `login`
with a wrong password before it is answered: no verification starts within a second of one that
found the password wrong. -/
theorem guesses_throttled (panel : Panel)
    (pbkdf2_hmac : List UInt8 → List UInt8 → ℕ → (len : ℕ) → Except String (Vector UInt8 len))
    (now : ℕ) (first : Option Credential) (setup_code marker : Option String)
    (events : List Event)
    (h : Along (step panel pbkdf2_hmac) (Event.Heeded pbkdf2_hmac)
      (opened now first setup_code marker) events) :
    Spaced (run (step panel pbkdf2_hmac) (opened now first setup_code marker) events).log := by
  have hstep : ∀ s event, Event.Heeded pbkdf2_hmac s event → Inv first s ∧ Slow pbkdf2_hmac s →
      Inv first (step panel pbkdf2_hmac s event) ∧
        Slow pbkdf2_hmac (step panel pbkdf2_hmac s event) :=
    fun s event hheeded hs => ⟨hs.1.step event, hs.2.step hs.1 hheeded⟩
  exact (Along.invariant hstep h ⟨inv_opened now first setup_code marker,
    slow_opened now first setup_code marker⟩).2.spaced

def sample_panel : Panel := ⟨Ipv4.addr 192 168 1 1, 8443⟩

def sample_head : Head := ⟨none, [("host", some AP_DOMAIN), ("origin", some ("https://" ++ AP_DOMAIN)),
  ("cookie", some (CSRF ++ "=c")), ("x-csrf-token", some "c")]⟩

def sample_luck : Luck := ⟨[], none, .done, .done, true, true, true⟩

/-- A record whose salt is zero and whose key repeats one digit. -/
def sample_record (digit : Char) : Credential :=
  ⟨0o600, "gofro-scrypt-v1$16384$8$1$" ++ String.ofList (List.replicate 64 '0') ++ "$" ++
    String.ofList (List.replicate 64 digit)⟩

def sample_guess : Event := .arrive (.login sample_head ⟨none, "guess"⟩) 0 sample_luck

/-- Two guesses at once: the client of the first disconnects while its password is verified. -/
def impatient : List Event :=
  [sample_guess, .work 0 sample_luck, .disconnect 0, .work 0 sample_luck] ++
    [sample_guess, .work 1 sample_luck]

/-- Whatever PBKDF2 computes, one of two records is not throttled. -/
theorem guess_unthrottled :
    ¬ ∃ pbkdf2_hmac : List UInt8 → List UInt8 → ℕ → (len : ℕ) → Except String (Vector UInt8 len),
      ∀ digit ∈ ['0', 'f'], Spaced (run (step sample_panel pbkdf2_hmac)
        (opened 0 (some (sample_record digit)) none none) impatient).log := by
  rintro ⟨pbkdf2_hmac, hspaced⟩
  have hlogin : ∀ digit s, s.password = some (sample_record digit) → s.permit = none →
      s.inner.failed = none → login sample_panel s sample_head ⟨none, "guess"⟩ = .ok (.login "guess") := by
    intro digit s hp hpermit hfailed
    have hpre : preauth sample_panel sample_head = true := by decide +kernel
    have hlong : password_too_long "guess" = false := by decide +kernel
    simp only [login, hpre, hlong, hp, hpermit, Server.throttled, hfailed, ensure]
    rfl
  have hrun : ∀ digit, login_valid pbkdf2_hmac (read_record (some (sample_record digit))) "guess" = false →
      ¬ Spaced (run (step sample_panel pbkdf2_hmac)
        (opened 0 (some (sample_record digit)) none none) impatient).log := by
    intro digit hvalid hlog
    let left : Server := ⟨0, some (sample_record digit), none, none, ⟨[], none⟩, none, none, 1,
      fun _ => none, [.verified 0 false 0 0, .started 0 0]⟩
    have hleft : run (step sample_panel pbkdf2_hmac)
        (opened 0 (some (sample_record digit)) none none)
        [sample_guess, .work 0 sample_luck, .disconnect 0, .work 0 sample_luck] = left := by
      have hfirst := hlogin digit (opened 0 (some (sample_record digit)) none none) rfl rfl rfl
      simp only [run, sample_guess, List.foldl_cons, List.foldl_nil, step, arrive, hfirst, spawn]
      simp [opened, Server.put, work, disconnect, Server.note, hvalid, finish, version, left]
    have hleft_log : (run (step sample_panel pbkdf2_hmac) left [sample_guess, .work 1 sample_luck]).log =
        [.started 1 0, .verified 0 false 0 0, .started 0 0] := by
      simp only [run, sample_guess, List.foldl_cons, List.foldl_nil, step, arrive,
        hlogin digit left rfl rfl rfl, spawn]
      simp [left, Server.put, work, Server.note]
    rw [impatient, run_append, hleft, hleft_log] at hlog
    have hone := hlog 1 0 _ List.suffix_rfl 0 0 0 List.mem_cons_self
    exact absurd hone (by decide)
  have hread : read_record (some (sample_record '0')) =
      some ⟨List.replicate 32 0, List.replicate 32 0⟩ := by decide +kernel
  have hread' : read_record (some (sample_record 'f')) =
      some ⟨List.replicate 32 0, List.replicate 32 255⟩ := by decide +kernel
  by_cases hzero : login_valid pbkdf2_hmac (read_record (some (sample_record '0'))) "guess" = false
  · exact hrun '0' hzero (hspaced '0' (by simp))
  · refine hrun 'f' ?_ (hspaced 'f' (by simp))
    have hvalid := Bool.eq_true_of_not_eq_false hzero
    rw [hread, login_valid, verify] at hvalid
    rw [hread', login_valid, verify]
    dsimp only at hvalid ⊢
    cases hkey : derive pbkdf2_hmac "guess" (List.replicate 32 0) with
    | error e => rfl
    | ok key =>
      rw [hkey] at hvalid
      have he : key = List.replicate 32 0 := of_decide_eq_true hvalid
      rw [he]
      decide

/-- Two guesses a second apart, both of clients that wait for their answer. -/
theorem guesses_throttled_sample :
    let pbkdf2_hmac : List UInt8 → List UInt8 → ℕ → (len : ℕ) → Except String (Vector UInt8 len) :=
      fun _ _ _ len => .ok (Vector.replicate len 7)
    Spaced (run (step sample_panel pbkdf2_hmac) (opened 0 (some (sample_record '0')) none none)
      [sample_guess, .work 0 sample_luck, .work 0 sample_luck, .resume 0 sample_luck, .tick SECOND,
        sample_guess, .work 1 sample_luck]).log :=
  guesses_throttled sample_panel _ 0 (some (sample_record '0')) none none _
    ⟨trivial, trivial, trivial, trivial, trivial, trivial, trivial, trivial⟩

end Gofro.Agent.Auth
