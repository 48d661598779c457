import GofroRouter.Agent.Pins.Steps

/-!
# What every run of pin calls keeps

A file is a draft while its publisher writes and syncs it; only the temporary name leads to it. A file
that the pin has ever been bound to is sealed: synced, a complete key, and nobody's draft.

* `Draft`, `Sealed`, `Sole`: the three kinds of file; `Task.Ok`: what a task knows.
* `Inv`: the invariant, with one lemma for each change of the directory or of a task.
* `Inv.put`, `Inv.rebind`, `Inv.modify`, `Inv.create`, `Inv.powerLoss`: the changes that keep it.
-/

namespace Gofro.Agent.Pins

open Text Directory

/-! ## Names -/

theorem digits_isDigit (n : ℕ) : (Nat.toDigits 10 n).all Char.isDigit = true :=
  List.all_eq_true.mpr fun _ hc => Nat.isDigit_of_mem_toDigits (by decide) (by decide) hc

theorem dot_notMem_digits (n : ℕ) : '.' ∉ Nat.toDigits 10 n := fun hmem =>
  absurd (List.all_eq_true.mp (digits_isDigit n) '.' hmem) (by decide)

theorem digits_injective {n m : ℕ} (h : Nat.toDigits 10 n = Nat.toDigits 10 m) : n = m := by
  have hn := parse_unsigned_toDigits (le_max_left n m)
  rw [h, parse_unsigned_toDigits (le_max_right n m)] at hn
  exact (Option.some.inj hn).symm

theorem split_digits (n : ℕ) (cs : List Char) :
    split_once '.' (Nat.toDigits 10 n ++ '.' :: cs) = some (Nat.toDigits 10 n, cs) := by
  have hall : ∀ c ∈ Nat.toDigits 10 n, (c != '.') = true := by
    intro c hc
    exact bne_iff_ne.mpr fun he => dot_notMem_digits n (he ▸ hc)
  rw [split_once, if_pos (List.mem_append_right _ List.mem_cons_self),
    List.takeWhile_append_of_pos hall, List.dropWhile_append_of_pos hall]
  simp

theorem owned_temporary (pid counter : ℕ) : owned_name (temporary_path pid counter) = true := by
  have hsplit : (strip_start (temporary_path pid counter).toList ".host-pin.".toList).bind
      (split_once '.') = some (Nat.toDigits 10 pid, Nat.toDigits 10 counter) := by
    unfold temporary_path
    rw [String.toList_ofList, List.append_assoc, strip_start_append]
    exact split_digits pid _
  unfold owned_name
  rw [hsplit]
  simp [digits_isDigit]

theorem temporary_injective {pid n m : ℕ} (h : temporary_path pid n = temporary_path pid m) : n = m := by
  have hlist := String.ofList_injective h
  have htail := List.append_cancel_left hlist
  exact digits_injective (List.cons.inj htail).2

theorem not_owned_path (target : Target) : owned_name target.path = false := by
  have hdot : ".host-pin.".toList = '.' :: "host-pin.".toList := by decide
  have hhost : "host-".toList = 'h' :: "ost-".toList := by decide
  have hstrip : strip_start target.path.toList ".host-pin.".toList = none := by
    unfold Target.path
    rw [String.toList_ofList, strip_start, if_neg]
    rintro ⟨cs, hcs⟩
    rw [hdot, hhost] at hcs
    exact absurd (List.cons.inj hcs).1 (by decide)
  unfold owned_name
  rw [hstrip]
  rfl

theorem owned_ne_path {target : Target} {name : String} (h : owned_name name = true) :
    name ≠ target.path := by
  rintro rfl
  rw [not_owned_path] at h
  cases h

theorem len_le_of_safe {metadata : Metadata} (h : safe_pin_metadata metadata = true) :
    metadata.len ≤ 128 := by
  simp only [safe_pin_metadata, Bool.and_eq_true] at h
  exact of_decide_eq_true h.1.2

/-! ## Files and tasks -/

/-- The file that a publisher still writes or syncs. -/
def Task.draft : Task → Option ℕ
  | .write _ _ f | .sync _ _ f | .publish _ _ f => some f
  | _ => none

/-- The name that a publisher has taken. -/
def Task.temporary : Task → Option String
  | .create _ t | .write _ t _ | .sync _ t _ | .publish _ t _ | .cleanup _ t _ _ => some t
  | _ => none

/-- A call with a key has been given a valid one. -/
def Call.valid : Call → Prop
  | .pin key => parse_host_key key = true
  | .reset => True

/-- A file that calls have made and only the temporary name can lead to. -/
structure Draft (base : ℕ) (s : State) (temporary : String) (file : ℕ) : Prop where
  base_le : base ≤ file
  lt_next : file < s.dir.next
  only : ∀ name, s.dir.MayBe name file → name = temporary
  now : ∀ f, s.dir.now temporary = some f → f = file

/-- A file with a complete key that no call will write to. -/
structure Sealed (base : ℕ) (s : State) (file : ℕ) : Prop where
  base_le : base ≤ file
  lt_next : file < s.dir.next
  synced : (s.dir.inode file).synced = true
  key : parse_host_key (s.dir.inode file).content = true
  undrafted : ∀ id task, s.tasks id = some task → task.draft ≠ some file

/-- The pin is the only name of the file. -/
def Sole (target : Target) (s : State) (file : ℕ) : Prop :=
  s.dir.now target.path = some file ∧ ∀ name, s.dir.now name = some file → name = target.path

/-- The name is that of a counter that the process has used. -/
def Taken (s : State) (temporary : String) : Prop :=
  ∃ n < s.counter, temporary = temporary_path s.pid n

variable (target : Target) (base : ℕ)

/-- What a pin call knows of the file whose key it has read. -/
def Read (s : State) (key : String) (metadata : Metadata) (file : ℕ) : Prop :=
  Sealed base s file ∧ take_utf8 129 (s.dir.inode file).content.toList = some key.toList ∧
    (s.dir.inode file).number = metadata.ino

/-- What a pin call knows after its last check. -/
def Confirmed (s : State) (key : String) (file removals : ℕ) : Prop :=
  Sealed base s file ∧ (s.dir.inode file).content = key ∧ removals ≤ s.removals ∧
    (removals = s.removals → Sole target s file)

/-- What a task knows of the files that it has to do with. -/
def Task.Ok (s : State) : Task → Prop
  | .manage call | .inspect call | .open call _ => call.valid
  | .look key => parse_host_key key = true
  | .create key temporary => parse_host_key key = true ∧ Taken s temporary
  | .write key temporary file =>
    parse_host_key key = true ∧ Taken s temporary ∧ Draft base s temporary file
  | .sync key temporary file => parse_host_key key = true ∧ Taken s temporary ∧
    Draft base s temporary file ∧ (s.dir.inode file).content = key
  | .publish key temporary file => parse_host_key key = true ∧ Taken s temporary ∧
    Draft base s temporary file ∧ (s.dir.inode file).content = key ∧ (s.dir.inode file).synced = true
  | .cleanup key temporary _ _ => parse_host_key key = true ∧ Taken s temporary
  | .read call metadata file =>
    call.valid ∧ Sealed base s file ∧ (s.dir.inode file).number = metadata.ino
  | .list key metadata file | .recover key metadata file _ | .confirm key metadata file =>
    Read base s key metadata file
  | .remove key metadata file entry _ => Read base s key metadata file ∧ owned_name entry = true
  | .syncFile key file removals | .syncDirectory key file removals =>
    Confirmed target base s key file removals
  | .check _ _ | .unlink _ | .syncRemoval _ | .done _ _ => True

/-- The file has a name or is open. -/
def Live (s : State) (file : ℕ) : Prop :=
  (∃ name, s.dir.now name = some file) ∨ ∃ id task, s.tasks id = some task ∧ task.file = some file

/-- What every run keeps; `base` is the number of files that were there before it. -/
structure Inv (s : State) : Prop where
  base_le : base ≤ s.dir.next
  links : ∀ name file, s.dir.MayBe name file → base ≤ file → name = target.path ∨ owned_name name = true
  pinned : ∀ file, s.dir.MayBe target.path file → Sealed base s file
  made : ∀ file, base ≤ file → file < s.dir.next →
    (s.dir.inode file).outside = 0 ∧ (s.dir.inode file).attributes = CREATED
  numbers : ∀ f g, Live s f → Live s g → (s.dir.inode f).number = (s.dir.inode g).number → f = g
  opened : ∀ id task file, s.tasks id = some task → task.file = some file → file < s.dir.next
  fresh : ∀ id, s.next ≤ id → s.tasks id = none
  tasks : ∀ id task, s.tasks id = some task → task.Ok target base s
  temporaries : ∀ id id' task task' t, s.tasks id = some task → s.tasks id' = some task' →
    task.temporary = some t → task'.temporary = some t → id = id'
  drafts : ∀ id id' task task' f, s.tasks id = some task → s.tasks id' = some task' →
    task.draft = some f → task'.draft = some f → id = id'

variable {target : Target} {base : ℕ} {s s' : State} {id file : ℕ} {task task' : Task}
  {name key temporary : String}

theorem Taken.owned (h : Taken s temporary) : owned_name temporary = true := by
  obtain ⟨n, -, rfl⟩ := h
  exact owned_temporary s.pid n

theorem mem_live (h : Inv target base s) : file ∈ s.live ↔ Live s file := by
  rw [State.live, List.mem_append, List.mem_filterMap, List.mem_filterMap]
  constructor
  · rintro (⟨name, -, hname⟩ | ⟨id, -, hid⟩)
    · exact .inl ⟨name, hname⟩
    · obtain ⟨task, ht, hf⟩ := Option.bind_eq_some_iff.mp hid
      exact .inr ⟨id, task, ht, hf⟩
  · rintro (⟨name, hname⟩ | ⟨id, task, ht, hf⟩)
    · exact .inl ⟨name, (mayBe_now hname).mem_names, hname⟩
    · refine .inr ⟨id, List.mem_range.mpr ?_, Option.bind_eq_some_iff.mpr ⟨task, ht, hf⟩⟩
      by_contra hle
      rw [h.fresh id (Nat.le_of_not_lt hle)] at ht
      cases ht

/-- What a task knows stays true if the files it is about stay as they are. -/
theorem Task.Ok.mono (h : task.Ok target base s) (hpid : s'.pid = s.pid)
    (hcounter : s.counter ≤ s'.counter) (hremovals : s.removals ≤ s'.removals)
    (hdraft : ∀ t f, task.temporary = some t → task.draft = some f → Draft base s t f →
      Draft base s' t f)
    (hwritten : ∀ key t f, task = .sync key t f ∨ task = .publish key t f →
      (s'.dir.inode f).content = (s.dir.inode f).content ∧
      ((s.dir.inode f).synced = true → (s'.dir.inode f).synced = true))
    (hsealed : ∀ f, Sealed base s f → Sealed base s' f ∧
      (s'.dir.inode f).content = (s.dir.inode f).content ∧
      (s'.dir.inode f).number = (s.dir.inode f).number)
    (hsole : ∀ f, s'.removals = s.removals → Sole target s f → Sole target s' f) :
    task.Ok target base s' := by
  have htaken : ∀ {t}, Taken s t → Taken s' t := by
    rintro t ⟨n, hn, rfl⟩
    exact ⟨n, hn.trans_le hcounter, by rw [hpid]⟩
  have hread : ∀ {key metadata f}, Read base s key metadata f → Read base s' key metadata f := by
    rintro key metadata f ⟨hs, hkey, hnumber⟩
    obtain ⟨hs', hcontent, hnumber'⟩ := hsealed f hs
    exact ⟨hs', by rw [hcontent, hkey], by rw [hnumber', hnumber]⟩
  have hconfirmed : ∀ {key f removals}, Confirmed target base s key f removals →
      Confirmed target base s' key f removals := by
    rintro key f removals ⟨hs, hkey, hle, hso⟩
    obtain ⟨hs', hcontent, -⟩ := hsealed f hs
    refine ⟨hs', hcontent.trans hkey, hle.trans hremovals, fun he => ?_⟩
    have hsame : s'.removals = s.removals := by omega
    exact hsole f hsame (hso (he.trans hsame))
  cases task with
  | manage call | inspect call | «open» call metadata => exact h
  | look key => exact h
  | create key t => exact ⟨h.1, htaken h.2⟩
  | write key t f =>
    obtain ⟨hkey, ht, hd⟩ := h
    exact ⟨hkey, htaken ht, hdraft t f rfl rfl hd⟩
  | sync key t f =>
    obtain ⟨hkey, ht, hd, hcontent⟩ := h
    have hsame := hwritten key t f (.inl rfl)
    exact ⟨hkey, htaken ht, hdraft t f rfl rfl hd, hsame.1.trans hcontent⟩
  | publish key t f =>
    obtain ⟨hkey, ht, hd, hcontent, hsynced⟩ := h
    have hsame := hwritten key t f (.inr rfl)
    exact ⟨hkey, htaken ht, hdraft t f rfl rfl hd, hsame.1.trans hcontent, hsame.2 hsynced⟩
  | cleanup key t f published => exact ⟨h.1, htaken h.2⟩
  | read call metadata f =>
    obtain ⟨hcall, hs, hnumber⟩ := h
    obtain ⟨hs', -, hnumber'⟩ := hsealed f hs
    exact ⟨hcall, hs', hnumber'.trans hnumber⟩
  | list key metadata f => exact hread h
  | recover key metadata f entries => exact hread h
  | remove key metadata f entry entries => exact ⟨hread h.1, h.2⟩
  | confirm key metadata f => exact hread h
  | syncFile key f removals => exact hconfirmed h
  | syncDirectory key f removals => exact hconfirmed h
  | check metadata f | «unlink» f | syncRemoval f | done call result => trivial

/-! ## Changes of a task -/

theorem Task.Ok.valid_draft (h : task.Ok target base s) {t : String} {f : ℕ}
    (ht : task.temporary = some t) (hf : task.draft = some f) : Draft base s t f := by
  cases task <;> cases ht <;> cases hf
  · exact h.2.2
  · exact h.2.2.1
  · exact h.2.2.1

theorem Task.temporary_of_draft {f : ℕ} (hf : task.draft = some f) : ∃ t, task.temporary = some t := by
  cases task <;> cases hf <;> exact ⟨_, rfl⟩

theorem live_of_put {f : ℕ} (hfile : ∀ f, task.file = some f → Live s f)
    (hlive : Live (s.put id task) f) : Live s f := by
  rcases hlive with hname | ⟨other, task', ht, hf⟩
  · exact .inl hname
  · by_cases he : other = id
    · rw [he, show (s.put id task).tasks id = some task from Function.update_self _ _ _] at ht
      cases ht
      exact hfile f hf
    · rw [show (s.put id task).tasks other = s.tasks other from Function.update_of_ne he _ _] at ht
      exact .inr ⟨other, task', ht, hf⟩

theorem tasks_put {other : ℕ} (ht : (s.put id task).tasks other = some task') :
    other = id ∧ task' = task ∨ other ≠ id ∧ s.tasks other = some task' := by
  by_cases he : other = id
  · rw [he, show (s.put id task).tasks id = some task from Function.update_self _ _ _] at ht
    exact .inl ⟨he, (Option.some.inj ht).symm⟩
  · rw [show (s.put id task).tasks other = s.tasks other from Function.update_of_ne he _ _] at ht
    exact .inr ⟨he, ht⟩

theorem Sealed.put {f : ℕ} (h : Sealed base s f) (hdraft : task.draft ≠ some f) :
    Sealed base (s.put id task) f where
  base_le := h.base_le
  lt_next := h.lt_next
  synced := h.synced
  key := h.key
  undrafted other task' ht := by
    rcases tasks_put ht with ⟨-, rfl⟩ | ⟨-, ht⟩
    · exact hdraft
    · exact h.undrafted other task' ht

theorem Inv.live_lt (h : Inv target base s) {f : ℕ} (hlive : Live s f) : f < s.dir.next := by
  rcases hlive with ⟨name, hname⟩ | ⟨id, task, ht, hf⟩
  · exact (mayBe_now hname).lt_next
  · exact h.opened id task f ht hf

theorem Inv.put (h : Inv target base s) (hid : id < s.next) (hok : task.Ok target base s)
    (htemporary : ∀ t, task.temporary = some t → ∀ other task', other ≠ id →
      s.tasks other = some task' → task'.temporary ≠ some t)
    (hdraft : ∀ f, task.draft = some f → ¬ Sealed base s f ∧ ∀ other task', other ≠ id →
      s.tasks other = some task' → task'.draft ≠ some f)
    (hfile : ∀ f, task.file = some f → Live s f) : Inv target base (s.put id task) := by
  have hsealed : ∀ f, Sealed base s f → Sealed base (s.put id task) f :=
    fun f hs => hs.put fun hf => (hdraft f hf).1 hs
  have hmono : ∀ task' : Task, task'.Ok target base s → task'.Ok target base (s.put id task) :=
    fun task' hok' => hok'.mono rfl le_rfl le_rfl (fun _ _ _ _ hd => ⟨hd.1, hd.2, hd.3, hd.4⟩)
      (fun _ _ _ _ => ⟨rfl, fun hsync => hsync⟩) (fun f hs => ⟨hsealed f hs, rfl, rfl⟩)
      fun _ _ hsole => hsole
  exact {
    base_le := h.base_le
    links := h.links
    pinned := fun f hf => hsealed f (h.pinned f hf)
    made := h.made
    numbers := fun f g hf hg => h.numbers f g (live_of_put hfile hf) (live_of_put hfile hg)
    opened := fun other task' f ht hf => by
      rcases tasks_put ht with ⟨-, rfl⟩ | ⟨-, ht⟩
      · exact h.live_lt (hfile f hf)
      · exact h.opened other task' f ht hf
    fresh := fun other hle => by
      have hne : other ≠ id := by
        have hle' : s.next ≤ other := hle
        omega
      exact (Function.update_of_ne hne _ _).trans (h.fresh other hle)
    tasks := fun other task' ht => by
      rcases tasks_put ht with ⟨-, rfl⟩ | ⟨-, ht⟩
      · exact hmono _ hok
      · exact hmono _ (h.tasks other task' ht)
    temporaries := fun a b x y t ha hb hx hy => by
      rcases tasks_put ha with ⟨hia, rfl⟩ | ⟨hna, ha'⟩
      · rcases tasks_put hb with ⟨hib, rfl⟩ | ⟨hnb, hb'⟩
        · exact hia.trans hib.symm
        · exact absurd hy (htemporary t hx b y hnb hb')
      · rcases tasks_put hb with ⟨hib, rfl⟩ | ⟨hnb, hb'⟩
        · exact absurd hx (htemporary t hy a x hna ha')
        · exact h.temporaries a b x y t ha' hb' hx hy
    drafts := fun a b x y f ha hb hx hy => by
      rcases tasks_put ha with ⟨hia, rfl⟩ | ⟨hna, ha'⟩
      · rcases tasks_put hb with ⟨hib, rfl⟩ | ⟨hnb, hb'⟩
        · exact hia.trans hib.symm
        · exact absurd hy ((hdraft f hx).2 b y hnb hb')
      · rcases tasks_put hb with ⟨hib, rfl⟩ | ⟨hnb, hb'⟩
        · exact absurd hx ((hdraft f hy).2 a x hna ha')
        · exact h.drafts a b x y f ha' hb' hx hy }

theorem Inv.id_lt (h : Inv target base s) (ht : s.tasks id = some task) : id < s.next := by
  by_contra hle
  rw [h.fresh id (Nat.le_of_not_lt hle)] at ht
  cases ht

theorem Inv.keep (h : Inv target base s) (ht : s.tasks id = some task) (task' : Task)
    (hok : task'.Ok target base s)
    (htemporary : ∀ t, task'.temporary = some t → task.temporary = some t)
    (hdraft : ∀ f, task'.draft = some f → task.draft = some f)
    (hfile : ∀ f, task'.file = some f → Live s f) : Inv target base (s.put id task') := by
  refine h.put (h.id_lt ht) hok ?_ ?_ hfile
  · intro t hx other task'' hne hother hy
    exact hne (h.temporaries other id _ _ t hother ht hy (htemporary t hx))
  · intro f hx
    refine ⟨fun hs => hs.undrafted id task ht (hdraft f hx), ?_⟩
    intro other task'' hne hother hy
    exact hne (h.drafts other id _ _ f hother ht hy (hdraft f hx))

theorem Inv.plain (h : Inv target base s) (ht : s.tasks id = some task) (task' : Task)
    (hok : task'.Ok target base s) (htemporary : task'.temporary = none) (hdraft : task'.draft = none)
    (hfile : ∀ f, task'.file = some f → Live s f) : Inv target base (s.put id task') := by
  refine h.keep ht task' hok ?_ ?_ hfile
  · rw [htemporary]
    exact fun _ hno => by cases hno
  · rw [hdraft]
    exact fun _ hno => by cases hno

theorem Inv.fail (h : Inv target base s) (ht : s.tasks id = some task) (call : Call) (error : PinError) :
    Inv target base (s.fail id call error) :=
  h.plain ht (.done call (.error error)) trivial rfl rfl fun _ hno => nomatch hno

theorem live_file (ht : s.tasks id = some task) {f : ℕ} (hf : task.file = some f) : Live s f :=
  .inr ⟨id, task, ht, hf⟩

/-! ## Changes of the directory -/

/-- The state with another directory and count of removals. -/
def State.withDir (s : State) (d : Directory Attributes) (removals : ℕ) : State :=
  { s with dir := d, removals := removals }

theorem Sealed.withDir {f removals : ℕ} {d : Directory Attributes} (h : Sealed base s f)
    (hnext : s.dir.next ≤ d.next) (hinode : d.inode f = s.dir.inode f) :
    Sealed base (s.withDir d removals) f where
  base_le := h.base_le
  lt_next := h.lt_next.trans_le hnext
  synced := by
    rw [show (s.withDir d removals).dir.inode f = s.dir.inode f from hinode]
    exact h.synced
  key := by
    rw [show (s.withDir d removals).dir.inode f = s.dir.inode f from hinode]
    exact h.key
  undrafted := h.undrafted

/-- Other bindings of the same files: what is new is the pin, bound to a sealed file. -/
theorem Inv.rebind (h : Inv target base s) (d : Directory Attributes) (removals : ℕ)
    (hinode : d.inode = s.dir.inode) (hnext : d.next = s.dir.next) (hremovals : s.removals ≤ removals)
    (hmay : ∀ name f, d.MayBe name f → s.dir.MayBe name f ∨ name = target.path ∧ Sealed base s f)
    (hnow : ∀ name f, d.now name = some f → name ≠ target.path → s.dir.now name = some f)
    (hlive : ∀ name f, d.now name = some f → Live s f)
    (hsole : ∀ f, removals = s.removals → Sole target s f → Sole target (s.withDir d removals) f) :
    Inv target base (s.withDir d removals) := by
  have hsealed : ∀ f, Sealed base s f → Sealed base (s.withDir d removals) f :=
    fun f hs => hs.withDir hnext.ge (congrFun hinode f)
  have hlive' : ∀ f, Live (s.withDir d removals) f → Live s f := by
    rintro f (⟨name, hname⟩ | hopen)
    · exact hlive name f hname
    · exact .inr hopen
  have hdraft : ∀ t f, owned_name t = true → (∀ other task, s.tasks other = some task →
      task.draft = some f → Draft base s t f → Draft base (s.withDir d removals) t f) := by
    intro t f howned other task ht hf hd
    refine ⟨hd.base_le, hd.lt_next.trans_le hnext.ge, fun name hname => ?_, fun g hg => ?_⟩
    · rcases hmay name f hname with hold | ⟨-, hs⟩
      · exact hd.only name hold
      · exact absurd hf (hs.undrafted other task ht)
    · exact hd.now g (hnow t g hg (owned_ne_path howned))
  exact {
    base_le := h.base_le.trans hnext.ge
    links := fun name f hname hf => by
      rcases hmay name f hname with hold | ⟨hpath, -⟩
      · exact h.links name f hold hf
      · exact .inl hpath
    pinned := fun f hf => by
      rcases hmay target.path f hf with hold | ⟨-, hs⟩
      · exact hsealed f (h.pinned f hold)
      · exact hsealed f hs
    made := fun f hle hlt => by
      rw [show (s.withDir d removals).dir.inode f = s.dir.inode f from congrFun hinode f]
      exact h.made f hle (hlt.trans_le hnext.le)
    numbers := fun f g hf hg he => by
      refine h.numbers f g (hlive' f hf) (hlive' g hg) ?_
      rwa [show (s.withDir d removals).dir.inode = s.dir.inode from hinode] at he
    opened := fun other task f ht hf => (h.opened other task f ht hf).trans_le hnext.ge
    fresh := h.fresh
    tasks := fun other task ht => by
      have hok := h.tasks other task ht
      refine hok.mono rfl le_rfl hremovals ?_ ?_ ?_ fun f he hs => hsole f he hs
      · intro t f htemp hf hd
        have howned : owned_name t = true := by
          cases task <;> cases htemp <;> cases hf
          · exact hok.2.1.owned
          · exact hok.2.1.owned
          · exact hok.2.1.owned
        exact hdraft t f howned other task ht hf hd
      · intro key t f _
        rw [show (s.withDir d removals).dir.inode = s.dir.inode from hinode]
        exact ⟨rfl, fun hsync => hsync⟩
      · intro f hs
        rw [show (s.withDir d removals).dir.inode = s.dir.inode from hinode]
        exact ⟨hsealed f hs, rfl, rfl⟩
    temporaries := h.temporaries
    drafts := h.drafts }

theorem Inv.sync (h : Inv target base s) : Inv target base (s.setDir s.dir.sync) :=
  h.rebind s.dir.sync s.removals rfl rfl le_rfl (fun _ _ hmay => .inl (mayBe_of_sync hmay))
    (fun _ _ hnow _ => hnow) (fun name _ hnow => .inl ⟨name, hnow⟩) fun _ _ hsole => hsole

theorem Inv.unlink (h : Inv target base s) (hname : owned_name name = true) :
    Inv target base (s.setDir (s.dir.unlink name)) := by
  refine h.rebind (s.dir.unlink name) s.removals rfl rfl le_rfl
    (fun _ _ hmay => .inl (mayBe_unlink hmay)) (fun _ _ hnow _ => now_of_unlink hnow)
    (fun other _ hnow => .inl ⟨other, now_of_unlink hnow⟩) ?_
  intro f _ hsole
  refine ⟨?_, fun other hother => hsole.2 other (now_of_unlink hother)⟩
  exact (now_unlink_of_ne (owned_ne_path hname).symm).trans hsole.1

theorem Inv.unlinkPin (h : Inv target base s) :
    Inv target base (s.withDir (s.dir.unlink target.path) (s.removals + 1)) := by
  refine h.rebind (s.dir.unlink target.path) (s.removals + 1) rfl rfl (Nat.le_succ _)
    (fun _ _ hmay => .inl (mayBe_unlink hmay)) (fun _ _ hnow _ => now_of_unlink hnow)
    (fun other _ hnow => .inl ⟨other, now_of_unlink hnow⟩) ?_
  intro f he
  omega

theorem Inv.link (h : Inv target base s) {f : ℕ} (hnow : s.dir.now temporary = some f)
    (hs : Sealed base s f) (hfree : s.dir.now target.path = none) :
    Inv target base (s.setDir (s.dir.link temporary target.path)) := by
  have hlink : ∀ name g, (s.dir.link temporary target.path).now name = some g →
      name = target.path ∧ g = f ∨ name ≠ target.path ∧ s.dir.now name = some g := by
    intro name g hg
    replace hg : Function.update s.dir.now target.path (s.dir.now temporary) name = some g := hg
    by_cases he : name = target.path
    · rw [he, Function.update_self, hnow] at hg
      exact .inl ⟨he, (Option.some.inj hg).symm⟩
    · rw [Function.update_of_ne he] at hg
      exact .inr ⟨he, hg⟩
  refine h.rebind (s.dir.link temporary target.path) s.removals rfl rfl le_rfl ?_ ?_ ?_ ?_
  · intro name g hmay
    rcases mayBe_link hmay with ⟨he, hg⟩ | hold
    · rw [hnow] at hg
      cases hg
      exact .inr ⟨he, hs⟩
    · exact .inl hold
  · intro name g hg hne
    exact ((hlink name g hg).resolve_left fun hno => hne hno.1).2
  · intro name g hg
    rcases hlink name g hg with ⟨-, rfl⟩ | ⟨-, hold⟩
    · exact .inl ⟨temporary, hnow⟩
    · exact .inl ⟨name, hold⟩
  · intro g _ hsole
    rw [Sole, hfree] at hsole
    cases hsole.1

theorem Inv.modify (h : Inv target base s) (f : ℕ) (change : Inode Attributes → Inode Attributes)
    (hchange : ∀ inode, (change inode).number = inode.number ∧ (change inode).outside = inode.outside ∧
      (change inode).attributes = inode.attributes)
    (hkeep : (∃ id key t, s.tasks id = some (.write key t f)) ∨
      ∀ inode, (change inode).content = inode.content ∧ (inode.synced = true → (change inode).synced = true)) :
    Inv target base (s.setDir (s.dir.modify f change)) := by
  have hinode : ∀ g, g = f ∧ (s.dir.modify f change).inode g = change (s.dir.inode f) ∨
      (s.dir.modify f change).inode g = s.dir.inode g := by
    intro g
    by_cases he : g = f
    · exact .inl ⟨he, he ▸ inode_modify_self⟩
    · exact .inr (inode_modify_of_ne he)
  have hsame : ∀ g, ((s.dir.modify f change).inode g).number = (s.dir.inode g).number ∧
      ((s.dir.modify f change).inode g).outside = (s.dir.inode g).outside ∧
      ((s.dir.modify f change).inode g).attributes = (s.dir.inode g).attributes := by
    intro g
    rcases hinode g with ⟨rfl, he⟩ | he
    · rw [he]
      exact hchange _
    · rw [he]
      exact ⟨rfl, rfl, rfl⟩
  -- The contents of a file change only while its publisher writes to it.
  have hcontent : ∀ g, (∀ id key t, s.tasks id ≠ some (.write key t g)) →
      ((s.dir.modify f change).inode g).content = (s.dir.inode g).content ∧
      ((s.dir.inode g).synced = true → ((s.dir.modify f change).inode g).synced = true) := by
    intro g hno
    rcases hinode g with ⟨rfl, he⟩ | he
    · rw [he]
      rcases hkeep with ⟨id, key, t, ht⟩ | hkeep
      · exact absurd ht (hno id key t)
      · exact hkeep _
    · rw [he]
      exact ⟨rfl, fun hsync => hsync⟩
  have hsealed : ∀ g, Sealed base s g → Sealed base (s.setDir (s.dir.modify f change)) g ∧
      ((s.dir.modify f change).inode g).content = (s.dir.inode g).content ∧
      ((s.dir.modify f change).inode g).number = (s.dir.inode g).number := by
    intro g hs
    have hg := hcontent g fun id key t ht => hs.undrafted id _ ht rfl
    refine ⟨⟨hs.base_le, hs.lt_next, hg.2 hs.synced, ?_, hs.undrafted⟩, hg.1, (hsame g).1⟩
    exact (congrArg parse_host_key hg.1).trans hs.key
  exact {
    base_le := h.base_le
    links := h.links
    pinned := fun g hg => (hsealed g (h.pinned g hg)).1
    made := fun g hle hlt => by
      have hg := h.made g hle hlt
      exact ⟨(hsame g).2.1.trans hg.1, (hsame g).2.2.trans hg.2⟩
    numbers := fun a b ha hb he => by
      refine h.numbers a b ha hb ?_
      exact (hsame a).1.symm.trans (he.trans (hsame b).1)
    opened := h.opened
    fresh := h.fresh
    tasks := fun other task ht => by
      refine (h.tasks other task ht).mono rfl le_rfl le_rfl (fun t g _ _ hd => ⟨hd.1, hd.2, hd.3, hd.4⟩) ?_
        (fun g hs => hsealed g hs) fun g _ hsole => hsole
      intro key t g htask
      refine hcontent g fun id key' t' hid => ?_
      have hdraft : task.draft = some g := by rcases htask with rfl | rfl <;> rfl
      have he := h.drafts id other _ task g hid ht rfl hdraft
      rw [he] at hid
      cases Option.some.inj (hid.symm.trans ht)
      rcases htask with hno | hno <;> cases hno
    temporaries := h.temporaries
    drafts := h.drafts }

theorem Inv.write (h : Inv target base s) {f : ℕ} (ht : s.tasks id = some (.write key temporary f))
    (content : String) : Inv target base (s.setDir (s.dir.write f content)) :=
  h.modify f (fun inode => { inode with content := content, synced := false })
    (fun _ => ⟨rfl, rfl, rfl⟩) (.inl ⟨id, key, temporary, ht⟩)

theorem Inv.syncFile (h : Inv target base s) (f : ℕ) : Inv target base (s.setDir (s.dir.syncFile f)) :=
  h.modify f (fun inode => { inode with synced := true })
    (fun _ => ⟨rfl, rfl, rfl⟩) (.inr fun _ => ⟨rfl, fun _ => rfl⟩)

theorem Inv.create (h : Inv target base s) (ht : s.tasks id = some (.create key temporary))
    (hfree : s.dir.now temporary = none) {number : ℕ}
    (hnumber : ∀ f, Live s f → (s.dir.inode f).number ≠ number) :
    Inv target base ((s.setDir (s.dir.create temporary number CREATED)).put id
      (.write key temporary s.dir.next)) := by
  obtain ⟨hkey, htaken⟩ := h.tasks id _ ht
  obtain ⟨d, hd⟩ : ∃ d, d = s.dir.create temporary number CREATED := ⟨_, rfl⟩
  rw [← hd]
  have hnext : d.next = s.dir.next + 1 := hd ▸ rfl
  have hself : d.inode s.dir.next = ⟨number, 0, CREATED, "", false⟩ := hd ▸ inode_create_self
  have hinode : ∀ {f}, f < s.dir.next → d.inode f = s.dir.inode f :=
    fun hf => hd ▸ inode_create_of_ne hf.ne
  have hmay : ∀ {name f}, d.MayBe name f → name = temporary ∧ f = s.dir.next ∨ s.dir.MayBe name f :=
    fun hname => mayBe_create (hd ▸ hname)
  have hbound : d.now temporary = some s.dir.next := hd ▸ Function.update_self _ _ _
  have hold : ∀ {name}, name ≠ temporary → d.now name = s.dir.now name :=
    fun hne => hd ▸ Function.update_of_ne hne _ _
  have hnow : ∀ {name f}, d.now name = some f →
      name = temporary ∧ f = s.dir.next ∨ name ≠ temporary ∧ s.dir.now name = some f := by
    intro name f hf
    by_cases he : name = temporary
    · rw [he, hbound] at hf
      exact .inl ⟨he, (Option.some.inj hf).symm⟩
    · rw [hold he] at hf
      exact .inr ⟨he, hf⟩
  have hlt : ∀ {f}, f < s.dir.next → f < d.next := fun hf => hnext ▸ hf.trans (Nat.lt_succ_self _)
  have hlive : ∀ f, Live (s.setDir d) f →
      f = s.dir.next ∨ Live s f := by
    rintro f (⟨name, hname⟩ | hopen)
    · rcases hnow hname with ⟨-, hf⟩ | ⟨-, hold⟩
      · exact .inl hf
      · exact .inr (.inl ⟨name, hold⟩)
    · exact .inr (.inr hopen)
  have hsealed : ∀ f, Sealed base s f →
      Sealed base (s.setDir d) f := by
    intro f hs
    have hsame := hinode hs.lt_next
    refine ⟨hs.base_le, hlt hs.lt_next, ?_, ?_, hs.undrafted⟩
    · rw [show (s.setDir d).dir.inode f = s.dir.inode f from hsame]
      exact hs.synced
    · rw [show (s.setDir d).dir.inode f = s.dir.inode f from hsame]
      exact hs.key
  have hcreated : Inv target base (s.setDir d) := {
    base_le := h.base_le.trans (hnext ▸ Nat.le_succ _)
    links := fun name f hname hf => by
      rcases hmay hname with ⟨rfl, -⟩ | hold
      · exact .inr htaken.owned
      · exact h.links name f hold hf
    pinned := fun f hf => by
      rcases hmay hf with ⟨he, -⟩ | hold
      · exact absurd he.symm (owned_ne_path htaken.owned)
      · exact hsealed f (h.pinned f hold)
    made := fun f hle hf => by
      rw [show (s.setDir d).dir.next = s.dir.next + 1 from hnext] at hf
      rcases Nat.lt_succ_iff_lt_or_eq.mp hf with hf | rfl
      · rw [show (s.setDir d).dir.inode f = s.dir.inode f from hinode hf]
        exact h.made f hle hf
      · rw [show (s.setDir d).dir.inode s.dir.next = _ from hself]
        exact ⟨rfl, rfl⟩
    numbers := fun f g hf hg he => by
      rcases hlive f hf with rfl | hf
      · rcases hlive g hg with rfl | hg
        · rfl
        · rw [show (s.setDir d).dir.inode s.dir.next = _ from hself,
            show (s.setDir d).dir.inode g = s.dir.inode g from hinode (h.live_lt hg)] at he
          exact absurd he.symm (hnumber g hg)
      · rcases hlive g hg with rfl | hg
        · rw [show (s.setDir d).dir.inode s.dir.next = _ from hself,
            show (s.setDir d).dir.inode f = s.dir.inode f from hinode (h.live_lt hf)] at he
          exact absurd he (hnumber f hf)
        · rw [show (s.setDir d).dir.inode f = s.dir.inode f from hinode (h.live_lt hf),
            show (s.setDir d).dir.inode g = s.dir.inode g from hinode (h.live_lt hg)] at he
          exact h.numbers f g hf hg he
    opened := fun other task f ht hf => hlt (h.opened other task f ht hf)
    fresh := h.fresh
    tasks := fun other task ht' => by
      have hok := h.tasks other task ht'
      refine hok.mono rfl le_rfl le_rfl ?_ ?_ ?_ ?_
      · intro t f htemp hf hdraft
        refine ⟨hdraft.base_le, hlt hdraft.lt_next, fun name hname => ?_, fun g hg => ?_⟩
        · rcases hmay hname with ⟨-, rfl⟩ | hold
          · exact absurd hdraft.lt_next (Nat.lt_irrefl _)
          · exact hdraft.only name hold
        · rcases hnow hg with ⟨rfl, -⟩ | ⟨-, hold⟩
          · have he := h.temporaries other id _ _ t ht' ht htemp rfl
            rw [he] at ht'
            cases Option.some.inj (ht.symm.trans ht')
            cases hf
          · exact hdraft.now g hold
      · intro key' t f htask
        have hdraft : Draft base s t f := by
          rcases htask with rfl | rfl
          · exact hok.2.2.1
          · exact hok.2.2.1
        rw [show (s.setDir d).dir.inode f = s.dir.inode f from hinode hdraft.lt_next]
        exact ⟨rfl, fun hsync => hsync⟩
      · intro f hs
        refine ⟨hsealed f hs, ?_⟩
        rw [show (s.setDir d).dir.inode f = s.dir.inode f from hinode hs.lt_next]
        exact ⟨rfl, rfl⟩
      · intro f _ hsole
        have hne : target.path ≠ temporary := (owned_ne_path htaken.owned).symm
        refine ⟨(hold hne).trans hsole.1, fun name hname => ?_⟩
        rcases hnow hname with ⟨-, rfl⟩ | ⟨-, hold⟩
        · exact absurd (mayBe_now hsole.1).lt_next (Nat.lt_irrefl _)
        · exact hsole.2 name hold
    temporaries := h.temporaries
    drafts := h.drafts }
  refine hcreated.put (h.id_lt ht) ⟨hkey, htaken, h.base_le, hnext ▸ Nat.lt_succ_self _, ?_, ?_⟩ ?_ ?_ ?_
  · intro name hname
    rcases hmay hname with ⟨he, -⟩ | hold
    · exact he
    · exact absurd hold.lt_next (Nat.lt_irrefl _)
  · intro f hf
    exact Option.some.inj (hf.symm.trans hbound)
  · intro t htemp other task' hne hother hy
    exact hne (h.temporaries other id _ _ t hother ht hy htemp)
  · intro f hf
    cases hf
    constructor
    · intro hs
      have hsynced := hs.synced
      rw [show (s.setDir d).dir.inode s.dir.next = _ from hself] at hsynced
      cases hsynced
    · intro other task' hne hother hy
      obtain ⟨t, htemp⟩ := Task.temporary_of_draft hy
      exact absurd ((h.tasks other task' hother).valid_draft htemp hy).lt_next (Nat.lt_irrefl _)
  · rintro f hf
    cases hf
    exact .inl ⟨temporary, hbound⟩

/-! ## Crashes -/

theorem Inv.restart (h : Inv target base s) (pid : ℕ) : Inv target base (s.restart pid) where
  base_le := h.base_le
  links := h.links
  pinned f hf :=
    have hs := h.pinned f hf
    ⟨hs.base_le, hs.lt_next, hs.synced, hs.key, fun _ _ hno => nomatch hno⟩
  made := h.made
  numbers f g hf hg := by
    have hlive : ∀ {f}, Live (s.restart pid) f → Live s f := by
      rintro f (hname | ⟨_, _, hno, -⟩)
      · exact .inl hname
      · cases hno
    exact h.numbers f g (hlive hf) (hlive hg)
  opened _ _ _ hno := nomatch hno
  fresh _ _ := rfl
  tasks _ _ hno := nomatch hno
  temporaries _ _ _ _ _ hno := nomatch hno
  drafts _ _ _ _ _ hno := nomatch hno

theorem Inv.powerLoss (h : Inv target base s) {keep : String → ℕ} {lost : ℕ → String} {pid : ℕ}
    (hdistinct : (s.dir.powerLoss keep lost).distinct = true) :
    Inv target base ((s.setDir (s.dir.powerLoss keep lost)).restart pid) where
  base_le := h.base_le
  links name f hname := h.links name f (mayBe_powerLoss hname)
  pinned f hf := by
    have hs := h.pinned f (mayBe_powerLoss hf)
    have hsame : ((s.setDir (s.dir.powerLoss keep lost)).restart pid).dir.inode f = s.dir.inode f :=
      inode_powerLoss hs.synced
    refine ⟨hs.base_le, hs.lt_next, ?_, ?_, fun _ _ hno => nomatch hno⟩
    · rw [hsame]
      exact hs.synced
    · rw [hsame]
      exact hs.key
  made f hle hlt := by
    have hmade := h.made f hle hlt
    have hsame := @attributes_powerLoss _ s.dir f keep lost
    exact ⟨hsame.1.trans hmade.1, hsame.2.trans hmade.2⟩
  numbers f g hf hg he := by
    rcases hf with ⟨n, hn⟩ | ⟨_, _, hno, -⟩
    · rcases hg with ⟨m, hm⟩ | ⟨_, _, hno, -⟩
      · exact distinct_iff.mp hdistinct n m f g hn hm he
      · cases hno
    · cases hno
  opened _ _ _ hno := nomatch hno
  fresh _ _ := rfl
  tasks _ _ hno := nomatch hno
  temporaries _ _ _ _ _ hno := nomatch hno
  drafts _ _ _ _ _ hno := nomatch hno

end Gofro.Agent.Pins
