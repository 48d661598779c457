import GofroRouter.Agent.Auth.Steps

/-!
# Sessions follow the password

At most one request holds the hashing permit, and whoever verifies or installs a record holds it
until its session is issued; so the record that a session was issued for is still the current one.

* `Control`: the permit and the lock belong to the request whose job says so.
* `Backed`: what the log knows about a job that has got so far.
* `Inv`: the invariant of every run; **`sessions_current`** follows from it.
-/

namespace Gofro.Agent.Auth

open Fallible

/-! ## The log -/

/-- An installation by `setup`. -/
def Entry.set_up : Entry → Bool
  | .installed _ setup => setup
  | _ => false

/-- An entry about sessions or records. -/
def Entry.weighty : Entry → Bool
  | .installed _ _ => true
  | .issued _ _ _ => true
  | _ => false

/-- The request has verified, or is the one that installed, the record that is current. -/
def Justified (log : List Entry) (request : ℕ) : Prop :=
  (∃ time, .verified request true (version log) time ∈ log) ∨
    ∃ setup, log.find? Entry.install = some (.installed request setup)

/-- Every session was issued to a request that was justified at that moment. -/
def Sound (log : List Entry) : Prop :=
  ∀ request token version' older, Entry.issued request token version' :: older <:+ log →
    version' = version older ∧ Justified older request

/-- The later log has recorded nothing more about sessions or records. -/
def Quiet (log log' : List Entry) : Prop :=
  ∃ new : List Entry, log' = new ++ log ∧ ∀ entry ∈ new, entry.weighty = false

variable {log log' log'' : List Entry} {entry : Entry} {request : ℕ}

theorem Quiet.refl : Quiet log log := ⟨[], rfl, fun _ h => nomatch h⟩

theorem Quiet.cons (h : Quiet log log') (he : entry.weighty = false) : Quiet log (entry :: log') := by
  obtain ⟨new, rfl, hnew⟩ := h
  refine ⟨entry :: new, rfl, fun e he' => ?_⟩
  rcases List.mem_cons.mp he' with rfl | hmem
  · exact he
  · exact hnew e hmem

theorem Quiet.induct {P : List Entry → Prop} (h : Quiet log log') (h₀ : P log)
    (hstep : ∀ e l, e.weighty = false → P l → P (e :: l)) : P log' := by
  obtain ⟨new, rfl, hnew⟩ := h
  induction new with
  | nil => exact h₀
  | cons e new ih =>
    exact hstep e _ (hnew e List.mem_cons_self)
      (ih fun e' he' => hnew e' (List.mem_cons_of_mem _ he'))

theorem install_of_not_weighty (he : entry.weighty = false) : entry.install = false := by
  cases entry <;> simp_all [Entry.weighty, Entry.install]

theorem version_cons (he : entry.install = false) : version (entry :: log) = version log := by
  rw [version, List.countP_cons_of_neg (by simp [he])]
  rfl

theorem Quiet.version (h : Quiet log log') : version log' = version log :=
  h.induct (P := fun l => Auth.version l = Auth.version log) rfl
    fun _ _ he ih => (version_cons (install_of_not_weighty he)).trans ih

theorem Quiet.mem (h : Quiet log log') (he : entry ∈ log) : entry ∈ log' :=
  h.induct he fun _ _ _ ih => List.mem_cons_of_mem _ ih

theorem Quiet.set_up (h : Quiet log log') : log'.countP Entry.set_up = log.countP Entry.set_up := by
  refine h.induct (P := fun l => l.countP Entry.set_up = log.countP Entry.set_up) rfl
    fun e l he ih => ?_
  rw [List.countP_cons_of_neg, ih]
  cases e <;> simp_all [Entry.weighty, Entry.set_up]

theorem sound_cons (h : Sound log)
    (he : ∀ request token v, entry = .issued request token v →
      v = version log ∧ Justified log request) : Sound (entry :: log) := by
  intro request token v older hsuffix
  rcases List.suffix_cons_iff.mp hsuffix with heq | hsuffix
  · cases heq
    exact he request token v rfl
  · exact h request token v older hsuffix

theorem Quiet.sound (h : Quiet log log') (hs : Sound log) : Sound log' := by
  refine h.induct hs fun e l he ih => sound_cons ih ?_
  rintro request token v rfl
  cases he

/-! ## Permit and lock -/

/-- The job still has the hashing permit. -/
def Job.holds : Job → Bool
  | .finished (.change _) => false
  | _ => true

/-- The job has the sessions locked. -/
def Job.locks : Job → Bool
  | .change_verifying .. => true
  | .change_writing .. => true
  | .change_written .. => true
  | _ => false

theorem Job.holds_of_locks {job : Job} (h : job.locks = true) : job.holds = true := by
  cases job <;> simp_all [Job.locks, Job.holds]

/-- The permit and the lock are with the requests whose jobs say so. -/
structure Control (s : Server) : Prop where
  fresh : ∀ request, s.next ≤ request → s.tasks request = none
  permit : ∀ request task, s.tasks request = some task → task.job.holds = true →
    s.permit = some request
  locks : ∀ request task, s.tasks request = some task → task.job.locks = true →
    s.lock = some request
  lock : ∀ request, s.lock = some request →
    ∃ task, s.tasks request = some task ∧ task.job.locks = true

/-- Nobody but one request holds the permit. -/
def Alone (s : Server) (request : ℕ) : Prop :=
  ∀ other task, other ≠ request → s.tasks other = some task → task.job.holds = false

variable {s s' : Server} {task : Task}

theorem Control.alone (h : Control s) (ht : s.tasks request = some task)
    (hh : task.job.holds = true) : Alone s request := by
  intro other task' hne ht'
  by_contra hholds
  have hother := h.permit other task' ht' (Bool.eq_true_of_not_eq_false hholds)
  rw [h.permit request task ht hh] at hother
  exact hne (Option.some.inj hother).symm

theorem Control.alone_of_free (h : Control s) (hp : s.permit = none) : Alone s request := by
  intro other task _ ht
  by_contra hholds
  have hother := h.permit other task ht (Bool.eq_true_of_not_eq_false hholds)
  rw [hp] at hother
  cases hother

theorem Control.unlocked (h : Control s) (ha : Alone s request)
    (ht : ∀ task, s.tasks request = some task → task.job.locks = false) : s.lock = none := by
  cases hl : s.lock with
  | none => rfl
  | some other =>
    obtain ⟨task, hother, hlocks⟩ := h.lock other hl
    by_cases he : other = request
    · rw [ht task (he ▸ hother)] at hlocks
      cases hlocks
    · have hholds := Job.holds_of_locks hlocks
      rw [ha other task he hother] at hholds
      cases hholds

theorem Control.update (h : Control s) (ha : Alone s request) {task' : Option Task}
    (htasks : s'.tasks = Function.update s.tasks request task')
    (hnext : s.next ≤ s'.next) (hrequest : request < s'.next)
    (hpermit : ∀ task, task' = some task → task.job.holds = true → s'.permit = some request)
    (hlocks : ∀ task, task' = some task → task.job.locks = true → s'.lock = some request)
    (hlock : ∀ other, s'.lock = some other →
      other = request ∧ ∃ task, task' = some task ∧ task.job.locks = true) : Control s' where
  fresh other hle := by
    rw [htasks, Function.update_of_ne (by omega)]
    exact h.fresh other (hnext.trans hle)
  permit other task ht hh := by
    rw [htasks] at ht
    by_cases he : other = request
    · subst he
      rw [Function.update_self] at ht
      exact hpermit task ht hh
    · rw [Function.update_of_ne he] at ht
      rw [ha other task he ht] at hh
      cases hh
  locks other task ht hl := by
    rw [htasks] at ht
    by_cases he : other = request
    · subst he
      rw [Function.update_self] at ht
      exact hlocks task ht hl
    · rw [Function.update_of_ne he] at ht
      have := Job.holds_of_locks hl
      rw [ha other task he ht] at this
      cases this
  lock other hl := by
    obtain ⟨rfl, task, ht, hjob⟩ := hlock other hl
    refine ⟨task, ?_, hjob⟩
    rw [htasks, Function.update_self, ht]

theorem Control.same (h : Control s) (htasks : s'.tasks = s.tasks) (hnext : s.next ≤ s'.next)
    (hpermit : s'.permit = s.permit) (hlock : s'.lock = s.lock) : Control s' where
  fresh other hle := by rw [htasks]; exact h.fresh other (hnext.trans hle)
  permit other task ht hh := by
    rw [hpermit]
    exact h.permit other task (htasks ▸ ht) hh
  locks other task ht hl := by
    rw [hlock]
    exact h.locks other task (htasks ▸ ht) hl
  lock other hl := by
    rw [htasks]
    exact h.lock other (hlock ▸ hl)

theorem Control.leave (h : Control s) (ht : s.tasks request = some task)
    (hh : task.job.holds = false) (htasks : s'.tasks = Function.update s.tasks request none)
    (hnext : s'.next = s.next) (hpermit : s'.permit = s.permit) (hlock : s'.lock = s.lock) :
    Control s' where
  fresh other hle := by
    rw [htasks]
    by_cases he : other = request
    · rw [he, Function.update_self]
    · rw [Function.update_of_ne he]
      exact h.fresh other (hnext ▸ hle)
  permit other task' ht' hh' := by
    rw [htasks] at ht'
    by_cases he : other = request
    · rw [he, Function.update_self] at ht'
      cases ht'
    · rw [Function.update_of_ne he] at ht'
      rw [hpermit]
      exact h.permit other task' ht' hh'
  locks other task' ht' hl := by
    rw [htasks] at ht'
    by_cases he : other = request
    · rw [he, Function.update_self] at ht'
      cases ht'
    · rw [Function.update_of_ne he] at ht'
      rw [hlock]
      exact h.locks other task' ht' hl
  lock other hl := by
    obtain ⟨task', ht', hl'⟩ := h.lock other (hlock ▸ hl)
    refine ⟨task', ?_, hl'⟩
    rw [htasks, Function.update_of_ne, ht']
    rintro rfl
    rw [ht] at ht'
    cases ht'
    rw [Job.holds_of_locks hl'] at hh
    cases hh

/-! ## What the log knows -/

/-- A changed record is in place, and the old sessions are not yet cleared. -/
def Job.written : Job → Bool
  | .change_written .. => true
  | _ => false

/-- What the log knows about a job that has got so far. -/
def Backed (password : Option Credential) (log : List Entry) (request : ℕ) : Job → Prop
  | .setup _ => password = none
  | .login_verifying _ record v => record = read_record password ∧ v = version log
  | .change_verifying _ _ v => v = version log
  | .change_writing .. => ∃ time, .verified request true (version log) time ∈ log
  | .change_written .. => log.find? Entry.install = some (.installed request false)
  | .finished (.setup true) => log.find? Entry.install = some (.installed request true)
  | .finished (.login (some true)) =>
    password ≠ none ∧ ∃ time, .verified request true (version log) time ∈ log
  | _ => True

/-- Every session was issued since the last record was installed. -/
def Current (s : Server) : Prop :=
  ∀ session ∈ s.inner.sessions, ∃ request, .issued request session.token (version s.log) ∈ s.log

/-- Sessions and records, whatever the requests in flight do; `first` is the record that was there at
the start. -/
structure Content (first : Option Credential) (s : Server) : Prop where
  sound : Sound s.log
  size : s.inner.sessions.length ≤ MAX_SESSIONS
  empty : s.password = none → first = none ∧ version s.log = 0 ∧ s.inner.sessions = []
  set_up : s.log.countP Entry.set_up ≤ if first.isSome then 0 else 1

structure Inv (first : Option Credential) (s : Server) : Prop where
  control : Control s
  content : Content first s
  backed : ∀ request task, s.tasks request = some task →
    Backed s.password s.log request task.job
  current : (∀ request task, s.tasks request = some task → task.job.written = false) → Current s

/-- Nothing new about sessions or records, except that sessions may be gone. -/
structure Calm (s s' : Server) : Prop where
  password : s'.password = s.password
  log : Quiet s.log s'.log
  sessions : s'.inner.sessions.Sublist s.inner.sessions

variable {first : Option Credential}

theorem Calm.content (hc : Calm s s') (h : Content first s) : Content first s' where
  sound := hc.log.sound h.sound
  size := hc.sessions.length_le.trans h.size
  empty hp := by
    obtain ⟨hfirst, hversion, hnil⟩ := h.empty (hc.password ▸ hp)
    refine ⟨hfirst, hc.log.version.trans hversion, List.sublist_nil.mp ?_⟩
    rw [← hnil]
    exact hc.sessions
  set_up := by
    rw [hc.log.set_up]
    exact h.set_up

theorem Calm.current (hc : Calm s s') (h : Current s) : Current s' := by
  intro session hs
  obtain ⟨request, hi⟩ := h session (hc.sessions.subset hs)
  refine ⟨request, ?_⟩
  rw [hc.log.version]
  exact hc.log.mem hi

theorem Quiet.find_install (h : Quiet log log') :
    log'.find? Entry.install = log.find? Entry.install := by
  refine h.induct (P := fun l => l.find? Entry.install = log.find? Entry.install) rfl
    fun e l he ih => ?_
  rw [List.find?_cons_of_neg (by simp [install_of_not_weighty he]), ih]

theorem Quiet.backed (h : Quiet log log') {password : Option Credential} {job : Job}
    (hb : Backed password log request job) : Backed password log' request job := by
  have hverified : ∀ {v}, (∃ time, .verified request true v time ∈ log) →
      ∃ time, .verified request true v time ∈ log' := fun ⟨time, ht⟩ => ⟨time, h.mem ht⟩
  cases job with
  | finished result =>
    rcases result with (_ | _) | (_ | _ | _) | _ <;>
      simp only [Backed, h.version, h.find_install] at hb ⊢
    · exact hb
    · exact ⟨hb.1, hverified hb.2⟩
  | change_writing _ _ _ =>
    simp only [Backed, h.version] at hb ⊢
    exact hverified hb
  | login_verifying _ _ _ => exact ⟨hb.1, hb.2.trans h.version.symm⟩
  | change_verifying _ _ _ => exact hb.trans h.version.symm
  | change_written _ _ _ => exact h.find_install.trans hb
  | _ => exact hb

theorem backed_of_not_holds {password : Option Credential} {job : Job} (h : job.holds = false) :
    Backed password log request job := by
  cases job with
  | finished result =>
    cases result with
    | change response => trivial
    | _ => cases h
  | _ => cases h

theorem written_of_not_holds {job : Job} (h : job.holds = false) : job.written = false := by
  cases job <;> simp_all [Job.holds, Job.written]

/-- A step of the request that alone may hold the permit keeps the invariant. -/
theorem Inv.update (ha : Alone s request) (hcontrol : Control s')
    (hcontent : Content first s') {task' : Option Task}
    (htasks : s'.tasks = Function.update s.tasks request task')
    (hbacked : ∀ task, task' = some task → Backed s'.password s'.log request task.job)
    (hcurrent : (∀ task, task' = some task → task.job.written = false) → Current s') :
    Inv first s' where
  control := hcontrol
  content := hcontent
  backed other task ht := by
    rw [htasks] at ht
    by_cases he : other = request
    · subst he
      rw [Function.update_self] at ht
      exact hbacked task ht
    · rw [Function.update_of_ne he] at ht
      exact backed_of_not_holds (ha other task he ht)
  current hw := by
    refine hcurrent fun task ht => hw request task ?_
    rw [htasks, Function.update_self, ht]

theorem Inv.same (h : Inv first s) (hcontrol : Control s') (hc : Calm s s')
    (htasks : s'.tasks = s.tasks) : Inv first s' where
  control := hcontrol
  content := hc.content h.content
  backed other task ht := by
    rw [hc.password]
    exact hc.log.backed (h.backed other task (htasks ▸ ht))
  current hw := hc.current (h.current (htasks ▸ hw))

/-! ## Jobs -/

/-- Requests, permit and lock are as they were. -/
structure Framed (s s' : Server) : Prop where
  tasks : s'.tasks = s.tasks
  permit : s'.permit = s.permit
  lock : s'.lock = s.lock
  next : s'.next = s.next

theorem Framed.refl : Framed s s := ⟨rfl, rfl, rfl, rfl⟩

theorem Calm.refl : Calm s s := ⟨rfl, Quiet.refl, List.Sublist.refl _⟩

theorem Inv.lt_next (h : Inv first s) (ht : s.tasks request = some task) : request < s.next := by
  by_contra hle
  rw [h.control.fresh request (Nat.le_of_not_lt hle)] at ht
  cases ht

/-- Sessions are current unless the one job with the permit has just written a record. -/
theorem Inv.current_of_alone (h : Inv first s) (ha : Alone s request)
    (ht : ∀ task, s.tasks request = some task → task.job.written = false) : Current s := by
  refine h.current fun other task hother => ?_
  by_cases he : other = request
  · exact ht task (he ▸ hother)
  · exact written_of_not_holds (ha other task he hother)

section

variable {s₁ : Server} {job : Job} {result : Result} {response : Response}

theorem Inv.put (h : Inv first s) (ht : s.tasks request = some task)
    (hh : task.job.holds = true) (hf : Framed s s₁) (hlocks : job.locks = task.job.locks)
    (hcontent : Content first s₁) (hbacked : Backed s₁.password s₁.log request job)
    (hcurrent : job.written = false → Current s₁) (waiting : Bool) :
    Inv first (s₁.put request (some ⟨waiting, job⟩)) := by
  have ha := h.control.alone ht hh
  have hpermit := h.control.permit request task ht hh
  have htasks : (s₁.put request (some ⟨waiting, job⟩)).tasks =
      Function.update s.tasks request (some ⟨waiting, job⟩) := by
    rw [← hf.tasks]
    rfl
  refine Inv.update ha (h.control.update ha htasks hf.next.ge
    ((h.lt_next ht).trans_eq hf.next.symm) ?_ ?_ ?_) ⟨hcontent.sound, hcontent.size, hcontent.empty,
    hcontent.set_up⟩ htasks ?_ fun hw => hcurrent (hw _ rfl)
  · rintro _ ⟨⟩ _
    exact hf.permit.trans hpermit
  · rintro _ ⟨⟩ hl
    exact hf.lock.trans (h.control.locks request task ht (hlocks ▸ hl))
  · intro other hl
    obtain ⟨task', ht', hl'⟩ := h.control.lock other (hf.lock.symm.trans hl)
    have he : other = request := by
      by_contra hne
      have hno := ha other task' hne ht'
      rw [Job.holds_of_locks hl'] at hno
      cases hno
    subst he
    rw [ht] at ht'
    cases ht'
    exact ⟨rfl, _, rfl, hlocks.trans hl'⟩
  · rintro _ ⟨⟩
    exact hbacked

theorem Inv.gone (h : Inv first s) (ht : s.tasks request = some task)
    (hh : task.job.holds = true) (htasks : s₁.tasks = Function.update s.tasks request none)
    (hnext : s₁.next = s.next) (hlock : s₁.lock = none) (hcontent : Content first s₁)
    (hcurrent : Current s₁) : Inv first s₁ := by
  have ha := h.control.alone ht hh
  refine Inv.update ha (h.control.update ha htasks hnext.ge ((h.lt_next ht).trans_eq hnext.symm)
    (fun _ hno => nomatch hno) (fun _ hno => nomatch hno) fun other ho => ?_) hcontent htasks
    (fun _ hno => nomatch hno) fun _ => hcurrent
  rw [hlock] at ho
  cases ho

theorem Inv.finish (h : Inv first s) (ht : s.tasks request = some task)
    (hh : task.job.holds = true) (hl : task.job.locks = false) (hf : Framed s s₁)
    (hcontent : Content first s₁) (hbacked : Backed s₁.password s₁.log request (.finished result))
    (hcurrent : Current s₁) : Inv first (finish s₁ request task result) := by
  unfold Auth.finish
  split_ifs
  · have hlocks : (Job.finished result).locks = task.job.locks := hl.symm
    exact h.put ht hh hf hlocks hcontent hbacked (fun _ => hcurrent) true
  · refine h.gone ht hh ?_ hf.next ?_ ⟨hcontent.sound, hcontent.size, hcontent.empty,
      hcontent.set_up⟩ hcurrent
    · rw [← hf.tasks]
      rfl
    · refine hf.lock.trans (h.control.unlocked (h.control.alone ht hh) fun task' ht' => ?_)
      rw [ht] at ht'
      cases ht'
      exact hl

theorem Inv.finish_change (h : Inv first s) (ht : s.tasks request = some task)
    (hh : task.job.holds = true) (hf : Framed s s₁) (hcontent : Content first s₁)
    (hcurrent : Current s₁) : Inv first (finish_change s₁ request task response) := by
  have ha := h.control.alone ht hh
  have hcontent' : ∀ task', Content first ({ s₁ with lock := none, permit := none }.put request task') :=
    fun _ => ⟨hcontent.sound, hcontent.size, hcontent.empty, hcontent.set_up⟩
  have htasks : ∀ task', ({ s₁ with lock := none, permit := none }.put request task').tasks =
      Function.update s.tasks request task' := fun _ => by
    rw [← hf.tasks]
    rfl
  unfold Auth.finish_change
  dsimp only
  split_ifs
  · refine Inv.update ha (h.control.update ha (htasks _) hf.next.ge
      ((h.lt_next ht).trans_eq hf.next.symm) ?_ ?_ fun _ hno => nomatch hno) (hcontent' _)
      (htasks _) ?_ fun _ => hcurrent
    · rintro _ ⟨⟩ hno
      cases hno
    · rintro _ ⟨⟩ hno
      cases hno
    · rintro _ ⟨⟩
      trivial
  · exact h.gone ht hh (htasks none) hf.next rfl (hcontent' none) hcurrent

theorem complete_admin_same (s : Server) (luck : Luck) : ∃ marker setup_code,
    (complete_admin s luck).1 = { s with marker := marker, setup_code := setup_code } := by
  have hremove : ∀ marker, ∃ setup_code,
      (remove_setup_code { s with marker := marker } luck).1 =
        { s with marker := marker, setup_code := setup_code } := by
    intro marker
    unfold remove_setup_code
    split_ifs
    · exact ⟨none, rfl⟩
    · exact ⟨s.setup_code, rfl⟩
  have hsame : ∃ marker setup_code,
      s = { s with marker := marker, setup_code := setup_code } := ⟨_, _, rfl⟩
  unfold complete_admin
  split
  · exact hsame
  · split
    · exact hsame
    · split
      · split
        · exact hsame
        · exact ⟨_, _, rfl⟩
        · exact ⟨_, hremove _⟩
      · split_ifs
        · exact ⟨s.marker, hremove s.marker⟩
        · exact hsame
        · exact hsame

end

/-! ## Steps -/

section

variable {pbkdf2_hmac : List UInt8 → List UInt8 → ℕ → (len : ℕ) → Except String (Vector UInt8 len)}
  {panel : Panel} {luck : Luck}

theorem write_record_cases (s : Server) (request : ℕ) (setup : Bool) (password : String)
    (luck : Luck) : write_record pbkdf2_hmac s request setup password luck = (s, .failed) ∨
      ∃ credential write, write ≠ .failed ∧
        write_record pbkdf2_hmac s request setup password luck =
          ({ s with password := some credential }.note (.installed request setup), write) := by
  unfold write_record
  cases new_record pbkdf2_hmac password luck.salt with
  | error e => exact .inl rfl
  | ok credential =>
    cases hw : luck.write with
    | failed => exact .inl rfl
    | published => exact .inr ⟨credential, .published, nofun, rfl⟩
    | done => exact .inr ⟨credential, .done, nofun, rfl⟩

theorem set_up_le (log : List Entry) : log.countP Entry.set_up ≤ version log := by
  refine List.countP_mono_left fun entry _ h => ?_
  cases entry <;> first | rfl | cases h

theorem Content.configured (h : Content first s)
    (hi : s.log.find? Entry.install = some entry) : s.password ≠ none := by
  intro hnone
  obtain ⟨-, hversion, -⟩ := h.empty hnone
  exact absurd (List.find?_some hi)
    (List.countP_eq_zero.mp hversion _ (List.mem_of_find?_eq_some hi))

theorem Content.install (h : Content first s) {setup : Bool} {credential : Credential}
    (hs : setup = true → s.password = none) :
    Content first ({ s with password := some credential }.note (.installed request setup)) where
  sound := sound_cons h.sound fun _ _ _ hno => nomatch hno
  size := h.size
  empty hno := nomatch hno
  set_up := by
    cases setup with
    | false => exact h.set_up
    | true =>
      obtain ⟨hfirst, hversion, -⟩ := h.empty (hs rfl)
      have hnone : s.log.countP Entry.set_up = 0 :=
        Nat.le_zero.mp ((set_up_le s.log).trans hversion.le)
      have hcons : (Entry.installed request true :: s.log).countP Entry.set_up =
          s.log.countP Entry.set_up + 1 := List.countP_cons_of_pos rfl
      rw [hfirst]
      exact (hcons.trans (congrArg (· + 1) hnone)).le

theorem Content.issue (h : Content first s) (hj : Justified s.log request)
    (hp : s.password ≠ none) (tokens : Option (String × String)) :
    Content first (s.issue request tokens).1 := by
  have hlive : s.live.length ≤ MAX_SESSIONS := (List.length_filter_le _ _).trans h.size
  have hkept : (s.live.drop (s.live.length - (MAX_SESSIONS - 1))).length ≤ MAX_SESSIONS - 1 := by
    rw [List.length_drop]
    omega
  cases tokens with
  | none =>
    exact ⟨h.sound, hkept.trans (Nat.sub_le _ _), fun hno => absurd hno hp, h.set_up⟩
  | some tokens =>
    refine ⟨sound_cons h.sound ?_, ?_, fun hno => absurd hno hp, h.set_up⟩
    · rintro _ _ _ ⟨⟩
      exact ⟨rfl, hj⟩
    · show (_ ++ [_]).length ≤ _
      rw [List.length_append, List.length_singleton]
      exact Nat.add_le_of_le_sub (by decide) hkept

theorem Current.issue (h : Current s) (tokens : Option (String × String)) :
    Current (s.issue request tokens).1 := by
  have hkept : ∀ session ∈ s.live.drop (s.live.length - (MAX_SESSIONS - 1)),
      session ∈ s.inner.sessions := fun session hs => List.mem_of_mem_filter (List.mem_of_mem_drop hs)
  cases tokens with
  | none => exact fun session hs => h session (hkept session hs)
  | some tokens =>
    intro session hs
    rcases List.mem_append.mp hs with hs | hs
    · obtain ⟨other, ho⟩ := h session (hkept session hs)
      exact ⟨other, List.mem_cons_of_mem _ ho⟩
    · rw [List.mem_singleton.mp hs]
      exact ⟨request, List.mem_cons_self⟩

theorem calm_note (s : Server) {entry : Entry} (he : entry.weighty = false) :
    Calm s (s.note entry) := ⟨rfl, Quiet.refl.cons he, List.Sublist.refl _⟩

theorem Inv.calm_put (h : Inv first s) (ht : s.tasks request = some task)
    (hh : task.job.holds = true) (hw : task.job.written = false) {s₁ : Server} {job : Job}
    (hf : Framed s s₁) (hc : Calm s s₁) (hlocks : job.locks = task.job.locks)
    (hbacked : Backed s₁.password s₁.log request job) :
    Inv first (s₁.put request (some ⟨task.waiting, job⟩)) :=
  h.put ht hh hf hlocks (hc.content h.content) hbacked (fun _ => hc.current
    (h.current_of_alone (h.control.alone ht hh) fun task' ht' => by
      rw [ht] at ht'
      cases ht'
      exact hw)) task.waiting

theorem Inv.calm_finish (h : Inv first s) (ht : s.tasks request = some task)
    (hh : task.job.holds = true) (hw : task.job.written = false) (hl : task.job.locks = false)
    {s₁ : Server} {result : Result} (hf : Framed s s₁) (hc : Calm s s₁)
    (hbacked : Backed s₁.password s₁.log request (.finished result)) :
    Inv first (Auth.finish s₁ request task result) :=
  h.finish ht hh hl hf (hc.content h.content) hbacked (hc.current
    (h.current_of_alone (h.control.alone ht hh) fun task' ht' => by
      rw [ht] at ht'
      cases ht'
      exact hw))

theorem Inv.calm_finish_change (h : Inv first s) (ht : s.tasks request = some task)
    (hh : task.job.holds = true) (hw : task.job.written = false) {s₁ : Server} {response : Response}
    (hf : Framed s s₁) (hc : Calm s s₁) : Inv first (Auth.finish_change s₁ request task response) :=
  h.finish_change ht hh hf (hc.content h.content) (hc.current
    (h.current_of_alone (h.control.alone ht hh) fun task' ht' => by
      rw [ht] at ht'
      cases ht'
      exact hw))

theorem Inv.setup (h : Inv first s) {waiting : Bool} {password : String}
    (ht : s.tasks request = some ⟨waiting, .setup password⟩) :
    Inv first (work pbkdf2_hmac s request ⟨waiting, .setup password⟩ luck) := by
  have hnone : s.password = none := h.backed request _ ht
  have hcurrent : Current s := h.current_of_alone (h.control.alone ht rfl) fun task' ht' => by
    rw [ht] at ht'
    cases ht'
    rfl
  have hempty : s.inner.sessions = [] := (h.content.empty hnone).2.2
  unfold work
  dsimp only
  rcases write_record_cases s request true password luck with hw | ⟨credential, write, hne, hw⟩
  · rw [hw]
    exact h.calm_finish ht rfl rfl rfl .refl .refl trivial
  · rw [hw]
    have hcontent : Content first
        ({ s with password := some credential }.note (.installed request true)) :=
      h.content.install fun _ => hnone
    have hnew : Current ({ s with password := some credential }.note (.installed request true)) := by
      intro session (hs : session ∈ s.inner.sessions)
      rw [hempty] at hs
      cases hs
    cases write with
    | failed => exact absurd rfl hne
    | published => exact h.finish ht rfl rfl ⟨rfl, rfl, rfl, rfl⟩ hcontent trivial hnew
    | done =>
      obtain ⟨marker, setup_code, hsame⟩ := complete_admin_same
        ({ s with password := some credential }.note (.installed request true)) luck
      dsimp only
      rw [hsame]
      refine h.finish ht rfl rfl ⟨rfl, rfl, rfl, rfl⟩ ⟨hcontent.sound, hcontent.size,
        hcontent.empty, hcontent.set_up⟩ ?_ hnew
      cases (complete_admin _ luck).2 with
      | false => trivial
      | true => rfl

theorem Inv.login_verifying (h : Inv first s) {waiting : Bool} {password : String}
    {record : Option Record} {version : ℕ}
    (ht : s.tasks request = some ⟨waiting, .login_verifying password record version⟩) :
    Inv first (work pbkdf2_hmac s request ⟨waiting, .login_verifying password record version⟩ luck) := by
  obtain ⟨hrecord, hversion⟩ := h.backed request _ ht
  unfold work
  dsimp only
  cases hvalid : login_valid pbkdf2_hmac record password with
  | false =>
    exact h.calm_finish ht rfl rfl rfl ⟨rfl, rfl, rfl, rfl⟩ (calm_note s rfl) trivial
  | true =>
    have hpassword : s.password ≠ none := by
      intro hnone
      rw [hnone] at hrecord
      rw [hrecord] at hvalid
      cases hvalid
    obtain ⟨marker, setup_code, hsame⟩ := complete_admin_same
      (s.note (.verified request true version s.now)) luck
    rw [if_pos rfl, hsame]
    refine h.calm_finish ht rfl rfl rfl ⟨rfl, rfl, rfl, rfl⟩
      ⟨rfl, Quiet.refl.cons rfl, List.Sublist.refl _⟩ ?_
    cases (complete_admin _ luck).2 with
    | false => trivial
    | true =>
      refine ⟨hpassword, s.now, ?_⟩
      subst hversion
      exact List.mem_cons_self

theorem Inv.change (h : Inv first s) {waiting : Bool} {headers : Headers}
    {input : PasswordChangeInput} (ht : s.tasks request = some ⟨waiting, .change headers input⟩) :
    Inv first (work pbkdf2_hmac s request ⟨waiting, .change headers input⟩ luck) := by
  unfold work
  dsimp only
  split_ifs
  · exact h
  · split
    · exact h.calm_finish_change ht rfl rfl .refl .refl
    · split
      · exact h.calm_finish_change ht rfl rfl .refl .refl
      · rename_i record hrecord
        have ha := h.control.alone ht rfl
        have hlt := h.lt_next ht
        have hlog : Quiet s.log (.started request s.now :: s.log) := Quiet.refl.cons rfl
        have hcurrent : Current s := h.current_of_alone ha fun task' ht' => by
          rw [ht] at ht'
          cases ht'
          rfl
        refine Inv.update ha (h.control.update ha rfl le_rfl hlt ?_ ?_ ?_)
          (@Calm.content s _ first ⟨rfl, hlog, List.Sublist.refl _⟩ h.content) rfl ?_
          fun _ => @Calm.current s _ ⟨rfl, hlog, List.Sublist.refl _⟩ hcurrent
        · rintro _ ⟨⟩ _
          exact h.control.permit request _ ht rfl
        · rintro _ ⟨⟩ _
          rfl
        · rintro _ ⟨⟩
          exact ⟨rfl, _, rfl, rfl⟩
        · rintro _ ⟨⟩
          exact hlog.version.symm

theorem Inv.change_verifying (h : Inv first s) {waiting : Bool} {input : PasswordChangeInput}
    {record : Record} {version : ℕ}
    (ht : s.tasks request = some ⟨waiting, .change_verifying input record version⟩) :
    Inv first
      (work pbkdf2_hmac s request ⟨waiting, .change_verifying input record version⟩ luck) := by
  have hversion : version = Auth.version s.log := h.backed request _ ht
  unfold work
  dsimp only
  split
  · exact h.calm_finish_change ht rfl rfl .refl .refl
  · exact h.calm_finish_change ht rfl rfl ⟨rfl, rfl, rfl, rfl⟩
      ⟨rfl, Quiet.refl.cons rfl, List.Sublist.refl _⟩
  · split
    · exact h.calm_finish_change ht rfl rfl ⟨rfl, rfl, rfl, rfl⟩ (calm_note s rfl)
    · refine h.calm_put ht rfl rfl ⟨rfl, rfl, rfl, rfl⟩ (calm_note s rfl) rfl ⟨s.now, ?_⟩
      subst hversion
      exact List.mem_cons_self

theorem Inv.change_writing (h : Inv first s) {waiting : Bool} {password token csrf : String}
    (ht : s.tasks request = some ⟨waiting, .change_writing password token csrf⟩) :
    Inv first (work pbkdf2_hmac s request ⟨waiting, .change_writing password token csrf⟩ luck) := by
  unfold work
  dsimp only
  rcases write_record_cases s request false password luck with hw | ⟨credential, write, hne, hw⟩
  · rw [hw]
    exact h.calm_finish_change ht rfl rfl .refl .refl
  · rw [hw]
    have hcontent : Content first
        ({ s with password := some credential }.note (.installed request false)) :=
      h.content.install fun hno => nomatch hno
    have hframed : Framed s ({ s with password := some credential }.note (.installed request false)) :=
      ⟨rfl, rfl, rfl, rfl⟩
    have hput : Inv first (({ s with password := some credential }.note
        (.installed request false)).put request (some ⟨waiting, .change_written write token csrf⟩)) := by
      refine h.put ht rfl hframed ?_ hcontent ?_ ?_ waiting
      · rfl
      · rfl
      · exact fun hno => nomatch hno
    cases write with
    | failed => exact absurd rfl hne
    | published => exact hput
    | done => exact hput

theorem Inv.change_written (h : Inv first s) {waiting : Bool} {write : Write} {token csrf : String}
    (ht : s.tasks request = some ⟨waiting, .change_written write token csrf⟩) :
    Inv first (work pbkdf2_hmac s request ⟨waiting, .change_written write token csrf⟩ luck) := by
  have hinstalled : s.log.find? Entry.install = some (.installed request false) :=
    h.backed request _ ht
  have hpassword : s.password ≠ none := h.content.configured hinstalled
  have hcleared : ∀ response, Inv first (Auth.finish_change (s.set_sessions []) request
      ⟨waiting, .change_written write token csrf⟩ response) := fun response =>
    h.finish_change ht rfl ⟨rfl, rfl, rfl, rfl⟩ ⟨h.content.sound, Nat.zero_le _,
      fun hno => absurd hno hpassword, h.content.set_up⟩ fun _ hno => nomatch hno
  unfold work
  dsimp only
  cases write with
  | failed => exact hcleared _
  | published => exact hcleared _
  | done =>
    refine h.finish_change ht rfl ⟨rfl, rfl, rfl, rfl⟩ ⟨sound_cons h.content.sound ?_, ?_,
      fun hno => absurd hno hpassword, h.content.set_up⟩ ?_
    · rintro _ _ _ ⟨⟩
      exact ⟨rfl, .inr ⟨false, hinstalled⟩⟩
    · exact Nat.one_le_iff_ne_zero.mpr (by decide)
    · intro session hs
      rw [List.mem_singleton.mp hs]
      exact ⟨request, List.mem_cons_self⟩

theorem Inv.work (h : Inv first s) (ht : s.tasks request = some task) :
    Inv first (work pbkdf2_hmac s request task luck) := by
  obtain ⟨waiting, job⟩ := task
  cases job with
  | setup password => exact h.setup ht
  | login password =>
    exact h.calm_put ht rfl rfl ⟨rfl, rfl, rfl, rfl⟩ (calm_note s rfl) rfl ⟨rfl, rfl⟩
  | login_verifying password record version => exact h.login_verifying ht
  | change headers input => exact h.change ht
  | change_verifying input record version => exact h.change_verifying ht
  | change_writing password token csrf => exact h.change_writing ht
  | change_written write token csrf => exact h.change_written ht
  | finished result => exact h

theorem Inv.leave (h : Inv first s) (ht : s.tasks request = some task)
    (hh : task.job.holds = false) {s' : Server}
    (htasks : s'.tasks = Function.update s.tasks request none) (hnext : s'.next = s.next)
    (hpermit : s'.permit = s.permit) (hlock : s'.lock = s.lock) (hc : Calm s s') : Inv first s' where
  control := h.control.leave ht hh htasks hnext hpermit hlock
  content := hc.content h.content
  backed other task' ht' := by
    rw [htasks] at ht'
    by_cases he : other = request
    · rw [he, Function.update_self] at ht'
      cases ht'
    · rw [Function.update_of_ne he] at ht'
      rw [hc.password]
      exact hc.log.backed (h.backed other task' ht')
  current hw := by
    refine hc.current (h.current fun other task' ht' => ?_)
    by_cases he : other = request
    · rw [he, ht] at ht'
      cases ht'
      exact written_of_not_holds hh
    · refine hw other task' ?_
      rw [htasks, Function.update_of_ne he, ht']

theorem authenticate_eq (s : Server) (request : ℕ) (tokens : Option (String × String)) :
    ∃ response, s.authenticate request tokens = (s.issue request tokens).1.answer request response := by
  cases tokens with
  | none => exact ⟨_, rfl⟩
  | some tokens => exact ⟨_, rfl⟩

theorem issue_framed (s : Server) (request : ℕ) (tokens : Option (String × String)) :
    Framed s (s.issue request tokens).1 := by
  cases tokens with
  | none => exact ⟨rfl, rfl, rfl, rfl⟩
  | some tokens => exact ⟨rfl, rfl, rfl, rfl⟩

theorem Inv.authenticate (h : Inv first s) (ht : s.tasks request = some task)
    (hh : task.job.holds = true) (hw : task.job.written = false) (hlock : s.lock = none)
    (hj : Justified s.log request) (hp : s.password ≠ none) (tokens : Option (String × String)) :
    Inv first (({ s.put request none with permit := none }).authenticate request tokens) := by
  have hcurrent : Current s := h.current_of_alone (h.control.alone ht hh) fun task' ht' => by
    rw [ht] at ht'
    cases ht'
    exact hw
  obtain ⟨response, he⟩ := authenticate_eq { s.put request none with permit := none } request tokens
  rw [he]
  have hleft : Content first { s.put request none with permit := none } :=
    ⟨h.content.sound, h.content.size, h.content.empty, h.content.set_up⟩
  have hleft' : Current { s.put request none with permit := none } := hcurrent
  have hframed := issue_framed { s.put request none with permit := none } request tokens
  exact h.gone ht hh hframed.tasks hframed.next (hframed.lock.trans hlock)
    ((calm_note _ rfl).content (hleft.issue hj hp tokens))
    ((calm_note _ rfl).current (hleft'.issue tokens))

theorem Inv.resume (h : Inv first s) {result : Result}
    (ht : s.tasks request = some ⟨true, .finished result⟩) :
    Inv first (resume s request result luck) := by
  have hlock : (Job.finished result).holds = true → s.lock = none := fun hh =>
    h.control.unlocked (h.control.alone ht hh) fun task' ht' => by
      rw [ht] at ht'
      cases ht'
      rfl
  have hgone : (Job.finished result).holds = true → ∀ s', s'.tasks = Function.update s.tasks request none →
      s'.next = s.next → s'.lock = s.lock → Calm s s' → Inv first s' := by
    intro hh s' htasks hnext hl hc
    refine h.gone ht hh htasks hnext (hl.trans (hlock hh)) (hc.content h.content) (hc.current ?_)
    refine h.current_of_alone (h.control.alone ht hh) fun task' ht' => ?_
    rw [ht] at ht'
    cases ht'
    rfl
  cases result with
  | setup ok =>
    cases ok with
    | false =>
      exact hgone rfl _ rfl rfl rfl ⟨rfl, Quiet.refl.cons rfl, List.Sublist.refl _⟩
    | true =>
      have hinstalled : s.log.find? Entry.install = some (.installed request true) :=
        h.backed request _ ht
      unfold Auth.resume
      dsimp only
      split_ifs
      · exact h
      · exact h.authenticate ht rfl rfl (hlock rfl) (.inr ⟨true, hinstalled⟩)
          (h.content.configured hinstalled) _
  | login valid =>
    match valid with
    | none => exact hgone rfl _ rfl rfl rfl ⟨rfl, Quiet.refl.cons rfl, List.Sublist.refl _⟩
    | some false =>
      unfold Auth.resume
      dsimp only
      split_ifs
      · exact h
      · exact hgone rfl _ rfl rfl rfl ⟨rfl, Quiet.refl.cons rfl, List.Sublist.refl _⟩
    | some true =>
      obtain ⟨hpassword, hverified⟩ := h.backed request _ ht
      unfold Auth.resume
      dsimp only
      split_ifs
      · exact h
      · exact h.authenticate ht rfl rfl (hlock rfl) (.inl hverified) hpassword _
  | change response =>
    exact h.leave ht rfl rfl rfl rfl rfl ⟨rfl, Quiet.refl.cons rfl, List.Sublist.refl _⟩

theorem Inv.disconnect (h : Inv first s) {job : Job} (ht : s.tasks request = some ⟨true, job⟩) :
    Inv first (disconnect s request ⟨true, job⟩) := by
  have hcurrent : job.holds = true → job.written = false → Current s := fun hh hw =>
    h.current_of_alone (h.control.alone ht hh) fun task' ht' => by
      rw [ht] at ht'
      cases ht'
      exact hw
  have hdropped : job.holds = true → Inv first (s.put request (some ⟨false, job⟩)) := fun hh =>
    h.put ht hh .refl rfl h.content (h.backed request _ ht) (hcurrent hh) false
  have hgone : job.holds = true → job.locks = false → job.written = false →
      Inv first { s.put request none with permit := none } := by
    intro hh hl hw
    refine h.gone ht hh rfl rfl (h.control.unlocked (h.control.alone ht hh) fun task' ht' => ?_)
      ⟨h.content.sound, h.content.size, h.content.empty, h.content.set_up⟩ (hcurrent hh hw)
    rw [ht] at ht'
    cases ht'
    exact hl
  cases job with
  | finished result =>
    cases result with
    | change response => exact h.leave ht rfl rfl rfl rfl rfl ⟨rfl, .refl, List.Sublist.refl _⟩
    | _ => exact hgone rfl rfl rfl
  | _ => exact hdropped rfl

theorem ensure_eq_ok {ok : Bool} {status : ℕ} {code : String} {u : Unit} :
    ensure ok status code = .ok u ↔ ok = true := by
  cases ok <;> simp [ensure]

theorem except_bind_eq_ok {α β : Type} {x : Except Response α} {f : α → Except Response β} {b : β} :
    x >>= f = .ok b ↔ ∃ a, x = .ok a ∧ f a = .ok b := by
  cases x with
  | error e => simp [bind, Except.bind]
  | ok a => simp [bind, Except.bind]

theorem setup_eq_ok {head : Head} {input : PasswordInput} {window : ℕ} {job : Job}
    (h : setup panel s head input window = .ok job) :
    job = .setup input.password ∧ s.permit = none ∧ s.password = none := by
  simp only [setup, except_bind_eq_ok, ensure_eq_ok, Option.isNone_iff_eq_none] at h
  obtain ⟨-, -, -, -, -, hpermit, -, hpassword, -, -, h⟩ := h
  refine ⟨?_, hpermit, hpassword⟩
  split at h
  · simp only [except_bind_eq_ok, ensure_eq_ok] at h
    obtain ⟨-, -, h⟩ := h
    exact (Except.ok.inj h).symm
  · cases h

theorem login_eq_ok {head : Head} {input : PasswordInput} {job : Job}
    (h : login panel s head input = .ok job) :
    job = .login input.password ∧ s.permit = none ∧ s.throttled = false := by
  simp only [login, except_bind_eq_ok, ensure_eq_ok, Option.isNone_iff_eq_none,
    Bool.not_eq_true'] at h
  obtain ⟨-, -, -, -, -, -, -, hpermit, -, hthrottled, h⟩ := h
  exact ⟨(Except.ok.inj h).symm, hpermit, hthrottled⟩

theorem change_password_eq_ok {headers : Headers} {input : PasswordChangeInput} {job : Job}
    (h : change_password s headers input = .ok job) :
    job = .change headers input ∧ s.permit = none := by
  simp only [change_password, except_bind_eq_ok, ensure_eq_ok, Option.isNone_iff_eq_none] at h
  obtain ⟨-, hpermit, h⟩ := h
  exact ⟨(Except.ok.inj h).symm, hpermit⟩

theorem live_sublist (s : Server) : s.live.Sublist s.inner.sessions := List.filter_sublist

theorem Inv.spawn (h : Inv first s) {result : Except Response Job}
    (hok : ∀ job, result = .ok job → s.permit = none ∧ job.locks = false ∧ job.written = false ∧
      Backed s.password s.log s.next job) : Inv first (spawn s result) := by
  cases result with
  | error response =>
    exact h.same (h.control.same rfl (Nat.le_succ _) rfl rfl)
      ⟨rfl, Quiet.refl.cons rfl, List.Sublist.refl _⟩ rfl
  | ok job =>
    obtain ⟨hpermit, hlocks, hwritten, hbacked⟩ := hok job rfl
    have ha : Alone s s.next := h.control.alone_of_free hpermit
    have hfree : ∀ task, s.tasks s.next ≠ some task := fun task ht => by
      rw [h.control.fresh s.next le_rfl] at ht
      cases ht
    have hlock : s.lock = none := h.control.unlocked ha fun task ht => absurd ht (hfree task)
    refine Inv.update ha (h.control.update ha rfl (Nat.le_succ _) (Nat.lt_succ_self _) ?_ ?_ ?_)
      ⟨h.content.sound, h.content.size, h.content.empty, h.content.set_up⟩ rfl ?_ fun _ =>
      h.current_of_alone ha fun task ht => absurd ht (hfree task)
    · rintro _ ⟨⟩ _
      rfl
    · rintro _ ⟨⟩ hl
      exact absurd (hlocks.symm.trans hl) (by decide)
    · intro other (ho : s.lock = some other)
      rw [hlock] at ho
      cases ho
    · rintro _ ⟨⟩
      exact hbacked

theorem look_up_cases (s : Server) (headers : Headers) :
    s.look_up headers = s ∨ s.look_up headers = s.set_sessions s.live := by
  unfold Server.look_up
  split_ifs
  · exact .inr rfl
  · exact .inl rfl

theorem calm_look_up (s : Server) (headers : Headers) : Calm s (s.look_up headers) := by
  rcases look_up_cases s headers with h | h
  · rw [h]
    exact .refl
  · rw [h]
    exact ⟨rfl, .refl, live_sublist s⟩

theorem framed_look_up (s : Server) (headers : Headers) : Framed s (s.look_up headers) := by
  rcases look_up_cases s headers with h | h
  · rw [h]
    exact .refl
  · rw [h]
    exact ⟨rfl, rfl, rfl, rfl⟩

theorem logout_eq (s : Server) (request : ℕ) (headers : Headers) (tokens : Option (String × String)) :
    ∃ sessions response, sessions.Sublist (s.look_up headers).inner.sessions ∧
      logout s request headers tokens =
        ((s.look_up headers).set_sessions sessions).answer request response := by
  unfold logout
  dsimp only
  split
  · exact ⟨_, _, List.Sublist.refl _, rfl⟩
  · split_ifs
    · exact ⟨_, _, List.filter_sublist, rfl⟩
    · exact ⟨_, _, List.Sublist.refl _, rfl⟩

theorem Inv.arrive (h : Inv first s) (request : Request) (window : ℕ) :
    Inv first (arrive panel s request window luck) := by
  unfold Auth.arrive
  cases request with
  | setup head input =>
    refine h.spawn fun job hjob => ?_
    obtain ⟨rfl, hpermit, hpassword⟩ := setup_eq_ok hjob
    exact ⟨hpermit, rfl, rfl, hpassword⟩
  | login head input =>
    dsimp only
    split_ifs
    · exact h
    · refine h.spawn fun job hjob => ?_
      obtain ⟨rfl, hpermit, -⟩ := login_eq_ok hjob
      exact ⟨hpermit, rfl, rfl, trivial⟩
  | change_password headers input =>
    refine h.spawn fun job hjob => ?_
    obtain ⟨rfl, hpermit⟩ := change_password_eq_ok hjob
    exact ⟨hpermit, rfl, rfl, trivial⟩
  | logout headers =>
    dsimp only
    split_ifs
    · exact h
    · obtain ⟨sessions, response, hsub, he⟩ := logout_eq s s.next headers luck.tokens
      have hf := framed_look_up s headers
      have hc := calm_look_up s headers
      rw [he]
      exact h.same (h.control.same hf.tasks (Nat.le_succ _) hf.permit hf.lock)
        ⟨hc.password, hc.log.cons rfl, hsub.trans hc.sessions⟩ hf.tasks

/-- **Every step keeps the invariant.** -/
theorem Inv.step (h : Inv first s) (event : Event) : Inv first (step panel pbkdf2_hmac s event) := by
  cases event with
  | tick duration =>
    exact h.same (h.control.same rfl le_rfl rfl rfl) ⟨rfl, .refl, List.Sublist.refl _⟩ rfl
  | arrive request window luck => exact h.arrive request window
  | work request luck =>
    unfold Auth.step
    dsimp only
    split
    · rename_i task ht
      exact h.work ht
    · exact h
  | resume request luck =>
    unfold Auth.step
    dsimp only
    split
    · rename_i result ht
      exact h.resume ht
    · exact h
  | disconnect request =>
    unfold Auth.step
    dsimp only
    split
    · rename_i job ht
      exact h.disconnect ht
    · exact h
  | look_up headers =>
    unfold Auth.step
    dsimp only
    split_ifs
    · exact h
    · exact h.same ((h.control.same (framed_look_up s headers).tasks
        (framed_look_up s headers).next.ge (framed_look_up s headers).permit
        (framed_look_up s headers).lock)) (calm_look_up s headers) (framed_look_up s headers).tasks

theorem inv_opened (now : ℕ) (first : Option Credential) (setup_code marker : Option String) :
    Inv first (opened now first setup_code marker) where
  control := ⟨fun _ _ => rfl, (fun _ _ h => nomatch h), (fun _ _ h => nomatch h),
    (fun _ h => nomatch h)⟩
  content := ⟨(fun _ _ _ _ h => nomatch List.suffix_nil.mp h), Nat.zero_le _,
    (fun h => ⟨h, rfl, rfl⟩), Nat.zero_le _⟩
  backed _ _ h := nomatch h
  current _ _ h := nomatch h

theorem run_inv (h : Inv first s) (events : List Event) :
    Inv first (run (Auth.step panel pbkdf2_hmac) s events) := by
  induction events generalizing s with
  | nil => exact h
  | cons event events ih => exact ih (h.step event)

/-! ## Password changes that come to nothing -/

/-- The request changes the password. -/
def Job.changes : Job → Bool
  | .change .. => true
  | .change_verifying .. => true
  | .change_writing .. => true
  | .change_written .. => true
  | .finished (.change _) => true
  | _ => false

/-- The step is one of that request's. -/
def Event.of (request : ℕ) : Event → Bool
  | .work other _ => other = request
  | .resume other _ => other = request
  | .disconnect other => other = request
  | _ => false

/-- Sessions and record are as they were. -/
def Untouched (s s' : Server) : Prop :=
  s'.inner.sessions = s.inner.sessions ∧ s'.password = s.password

theorem finish_change_same (s : Server) (request : ℕ) (task : Task) (response : Response) :
    (finish_change s request task response).inner = s.inner ∧
      (finish_change s request task response).password = s.password ∧
      (finish_change s request task response).log = s.log := by
  unfold finish_change
  dsimp only
  split_ifs
  · exact ⟨rfl, rfl, rfl⟩
  · exact ⟨rfl, rfl, rfl⟩

theorem untouched_finish_change {s s₁ : Server} {response : Response} (h : Untouched s s₁) :
    Untouched s (finish_change s₁ request task response) := by
  obtain ⟨hinner, hpassword, -⟩ := finish_change_same s₁ request task response
  exact ⟨(congrArg Inner.sessions hinner).trans h.1, hpassword.trans h.2⟩

theorem untouched_work (h : Inv first s) (ht : s.tasks request = some task)
    (hc : task.job.changes = true)
    (hno : ∀ setup, .installed request setup ∉ (work pbkdf2_hmac s request task luck).log) :
    Untouched s (work pbkdf2_hmac s request task luck) := by
  have hsame : Untouched s s := ⟨rfl, rfl⟩
  obtain ⟨waiting, job⟩ := task
  cases job with
  | change headers input =>
    unfold work
    dsimp only
    split_ifs
    · exact hsame
    · split
      · exact untouched_finish_change hsame
      · split
        · exact untouched_finish_change hsame
        · exact ⟨rfl, rfl⟩
  | change_verifying input record version =>
    unfold work
    dsimp only
    split
    · exact untouched_finish_change hsame
    · exact untouched_finish_change ⟨rfl, rfl⟩
    · split
      · exact untouched_finish_change ⟨rfl, rfl⟩
      · exact ⟨rfl, rfl⟩
  | change_writing password token csrf =>
    unfold work at hno ⊢
    dsimp only at hno ⊢
    rcases write_record_cases s request false password luck with hw | ⟨credential, write, hne, hw⟩
    · rw [hw]
      exact untouched_finish_change hsame
    · rw [hw] at hno
      cases write with
      | failed => exact absurd rfl hne
      | published => exact absurd List.mem_cons_self (hno false)
      | done => exact absurd List.mem_cons_self (hno false)
  | change_written write token csrf =>
    have hinstalled : .installed request false ∈ s.log :=
      List.mem_of_find?_eq_some (h.backed request _ ht)
    refine absurd ?_ (hno false)
    unfold work
    dsimp only
    cases write with
    | done =>
      rw [(finish_change_same _ _ _ _).2.2]
      exact List.mem_cons_of_mem _ hinstalled
    | _ =>
      rw [(finish_change_same _ _ _ _).2.2]
      exact hinstalled
  | finished result => exact hsame
  | _ => cases hc

theorem untouched_step (h : Inv first s) {event : Event} (hof : event.of request = true)
    (hc : ∀ task, s.tasks request = some task → task.job.changes = true)
    (hno : ∀ setup, .installed request setup ∉ (step panel pbkdf2_hmac s event).log) :
    Untouched s (step panel pbkdf2_hmac s event) := by
  cases event with
  | work other luck =>
    cases of_decide_eq_true hof
    unfold step at hno ⊢
    dsimp only at hno ⊢
    split
    · rename_i task ht
      rw [ht] at hno
      exact untouched_work h ht (hc task ht) hno
    · exact ⟨rfl, rfl⟩
  | resume other luck =>
    cases of_decide_eq_true hof
    unfold step
    dsimp only
    split
    · rename_i result ht
      cases result with
      | change response => exact ⟨rfl, rfl⟩
      | _ => cases hc _ ht
    · exact ⟨rfl, rfl⟩
  | disconnect other =>
    cases of_decide_eq_true hof
    unfold step
    dsimp only
    split
    · rename_i job ht
      cases job with
      | finished result => cases result <;> exact ⟨rfl, rfl⟩
      | _ => exact ⟨rfl, rfl⟩
    · exact ⟨rfl, rfl⟩
  | _ => cases hof

end

/-- **Panel sessions reflect the current password.** In every run of `setup`, `login`,
`change_password` and `logout`, with jobs that go on when their handler is dropped: every session
was issued after its own request had verified or installed the record that was current; every
session that is accepted was issued since the last record was installed; a change that has not
installed its record has left sessions and record alone; `setup` installs at most one record, and
none where there was one; there are at most 32 sessions. -/
theorem sessions_current (panel : Panel)
    (pbkdf2_hmac : List UInt8 → List UInt8 → ℕ → (len : ℕ) → Except String (Vector UInt8 len))
    (now : ℕ) (first : Option Credential) (setup_code marker : Option String)
    (events : List Event) :
    let s := run (step panel pbkdf2_hmac) (opened now first setup_code marker) events
    (∀ request token version' older, .issued request token version' :: older <:+ s.log →
      version' = version older ∧ Justified older request) ∧
    (∀ headers token csrf, s.session headers = some (token, csrf) →
      ∃ request, .issued request token (version s.log) ∈ s.log) ∧
    (∀ request event, event.of request = true →
      (∀ task, s.tasks request = some task → task.job.changes = true) →
      (∀ setup, .installed request setup ∉ (step panel pbkdf2_hmac s event).log) →
      (step panel pbkdf2_hmac s event).inner.sessions = s.inner.sessions ∧
        (step panel pbkdf2_hmac s event).password = s.password) ∧
    s.log.countP Entry.set_up ≤ (if first.isSome then 0 else 1) ∧
    s.inner.sessions.length ≤ 32 := by
  intro s
  have h : Inv first s := run_inv (inv_opened now first setup_code marker) events
  refine ⟨h.content.sound, ?_, fun request event hof hc hno => untouched_step h hof hc hno,
    h.content.set_up, h.content.size⟩
  intro headers token csrf hs
  unfold Server.session at hs
  split_ifs at hs with hlock
  have hcurrent : Current s := by
    refine h.current fun request task ht => ?_
    by_contra hw
    have hlocks : task.job.locks = true := by
      cases hjob : task.job <;> simp_all [Job.written, Job.locks]
    exact hlock (by rw [h.control.locks request task ht hlocks]; rfl)
  obtain ⟨value, -, hs⟩ := Option.bind_eq_some_iff.mp hs
  obtain ⟨item, hitem, hs⟩ := Option.map_eq_some_iff.mp hs
  cases hs
  exact hcurrent item (List.mem_of_mem_filter (List.mem_of_find?_eq_some hitem))

end Gofro.Agent.Auth
