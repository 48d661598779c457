import GofroRouter.Agent.Pins.Effects

/-!
# A pin call when there is a pin

* `Refusing`, **`run_refused`**: a call with another key than the pin's changes no file and ends with
  an error.
* `Ready`: where a call is that runs alone; `ready_loop`: it removes the leftovers of the pin's file.
* **`retry_succeeds`**: a call with the pin's key that runs alone and meets no failure succeeds.
-/

namespace Gofro.Agent.Pins

open Text Directory

variable {target : Target} {base : ℕ} {s s' : State} {id f : ℕ} {task : Task} {choice : Choice}
  {key : String} {event : Event} {events : List Event}

/-! ## Another key -/

/-- Where a call with another key can be, given the pin's file. -/
def Refusing (s : State) (key : String) (f : ℕ) : Task → Prop
  | .manage call | .inspect call => call = .pin key
  | .look key' => key' = key
  | .open call _ => call = .pin key ∧ len (s.dir.inode f).content ≤ 128
  | .read call _ g => call = .pin key ∧ g = f ∧ len (s.dir.inode f).content ≤ 128
  | .done call result => call = .pin key ∧ ∃ error, result = .error error
  | _ => False

theorem Refusing.congr (h : Refusing s key f task)
    (hcontent : (s'.dir.inode f).content = (s.dir.inode f).content) : Refusing s' key f task := by
  cases task with
  | «open» call metadata => exact ⟨h.1, hcontent ▸ h.2⟩
  | read call metadata g => exact ⟨h.1, h.2.1, hcontent ▸ h.2.2⟩
  | _ => exact h

/-- A system call that leaves the files and names as they are. -/
structure Refused (s : State) (key : String) (f id : ℕ) (s' : State) : Prop where
  now : s'.dir.now = s.dir.now
  inode : s'.dir.inode = s.dir.inode
  task : ∃ task', s'.tasks id = some task' ∧ Refusing s' key f task'

theorem refused_put {u : State} {task' : Task} (hnow : u.dir.now = s.dir.now)
    (hinode : u.dir.inode = s.dir.inode) (hr : Refusing u key f task') :
    Refused s key f id (u.put id task') :=
  ⟨hnow, hinode, task', Function.update_self _ _ _, hr.congr rfl⟩

theorem refused_fail {error : PinError} : Refused s key f id (s.fail id (.pin key) error) :=
  refused_put rfl rfl ⟨rfl, error, rfl⟩

theorem advance_refused (hpin : s.dir.now target.path = some f)
    (hkey : (s.dir.inode f).content ≠ key) (hr : Refusing s key f task)
    (hs : s.advance target id choice task = some s') : Refused s key f id s' := by
  cases task with
  | manage call =>
    cases hr
    cases choice with
    | done => cases hs; exact refused_put rfl rfl rfl
    | failed progress =>
      cases hs
      refine refused_put ?_ ?_ ⟨rfl, .io, rfl⟩
      · split_ifs <;> rfl
      · split_ifs <;> rfl
    | created number => cases hs
    | listed entries => cases hs
  | look key' =>
    cases hr
    cases choice with
    | done =>
      simp only [State.advance, State.look, hpin] at hs
      cases hs
      exact refused_put rfl rfl rfl
    | failed progress => cases hs; exact refused_fail
    | created number => cases hs
    | listed entries => cases hs
  | inspect call =>
    cases hr
    cases choice with
    | done =>
      simp only [State.advance, State.inspect, hpin] at hs
      split_ifs at hs with hsafe
      · cases hs
        exact refused_put rfl rfl ⟨rfl, len_le_of_safe hsafe⟩
      · cases hs
        exact refused_fail
    | failed progress => cases hs; exact refused_fail
    | created number => cases hs
    | listed entries => cases hs
  | «open» call metadata =>
    obtain ⟨rfl, hlen⟩ := hr
    cases choice with
    | done =>
      simp only [State.advance, State.openPin, hpin] at hs
      split_ifs at hs
      · cases hs
        exact refused_fail
      · cases hs
        exact refused_put rfl rfl ⟨rfl, rfl, hlen⟩
    | failed progress => cases hs; exact refused_fail
    | created number => cases hs
    | listed entries => cases hs
  | read call metadata g =>
    obtain ⟨rfl, rfl, hlen⟩ := hr
    cases choice with
    | done =>
      have htake : take_utf8 129 (s.dir.inode g).content.toList = some (s.dir.inode g).content.toList :=
        take_utf8_of_le (hlen.trans (by decide))
      simp only [State.advance, State.read, htake, String.ofList_toList] at hs
      split_ifs at hs
      · cases hs
        exact refused_fail
      · cases hs
        exact refused_fail
    | failed progress => cases hs; exact refused_fail
    | created number => cases hs
    | listed entries => cases hs
  | done call result => cases hs
  | _ => exact hr.elim

/-- The call has died, or it is where a call with another key can be. -/
structure RefusedAt (target : Target) (base : ℕ) (key : String) (f id : ℕ) (s : State) : Prop where
  inv : Inv target base s
  pin : s.dir.now target.path = some f
  other : (s.dir.inode f).content ≠ key
  called : id < s.next
  task : ∀ task, s.tasks id = some task → Refusing s key f task

theorem RefusedAt.step (h : RefusedAt target base key f id s)
    (hs : Pins.step target s event = some s') (hremovals : s'.removals = s.removals)
    (hpower : event.isPowerLoss = false) : RefusedAt target base key f id s' := by
  have hcontent := step_content (h.inv.pinned f (mayBe_now h.pin)) hs
  refine ⟨h.inv.step hs, step_now h.inv h.pin hs hremovals hpower, hcontent ▸ h.other, ?_, ?_⟩
  · cases event with
    | call call => cases hs; exact h.called.trans (Nat.lt_succ_self _)
    | run other choice =>
      obtain ⟨task, -, hs⟩ := Option.bind_eq_some_iff.mp hs
      exact h.called.trans_le (advance_moved hs).next.ge
    | died pid => cases hs; exact h.called
    | powerLoss pid keep lost => cases hpower
  · intro task ht
    cases event with
    | call call =>
      cases hs
      rcases tasks_put (show (s.put s.next _).tasks id = some task from ht) with ⟨he, -⟩ | ⟨-, ht⟩
      · exact absurd he h.called.ne
      · exact (h.task task ht).congr hcontent
    | run other choice =>
      obtain ⟨task', ht', hs⟩ := Option.bind_eq_some_iff.mp hs
      by_cases he : other = id
      · subst he
        obtain ⟨task'', ht'', hr⟩ := (advance_refused h.pin h.other (h.task task' ht') hs).task
        cases Option.some.inj (ht''.symm.trans ht)
        exact hr
      · obtain ⟨task'', hupdate⟩ := (advance_moved hs).tasks
        rw [hupdate, Function.update_of_ne (Ne.symm he)] at ht
        exact (h.task task ht).congr hcontent
    | died pid => cases hs; cases ht
    | powerLoss pid keep lost => cases hpower

theorem RefusedAt.call (h : Inv target base s) (hpin : s.dir.now target.path = some f)
    (hkey : (s.dir.inode f).content ≠ key) :
    RefusedAt target base key f s.next (s.call target (.pin key)) := by
  refine ⟨h.call (.pin key), hpin, hkey, Nat.lt_succ_self _, fun task ht => ?_⟩
  rcases tasks_put (show (s.put s.next _).tasks s.next = some task from ht) with ⟨-, rfl⟩ | ⟨hne, -⟩
  · dsimp only
    split_ifs
    · exact ⟨rfl, _, rfl⟩
    · exact ⟨rfl, _, rfl⟩
    · rfl
  · exact absurd rfl hne

/-- **A call with another key is refused, whatever else happens but a removal or a loss of power.** -/
theorem run_refused (h : RefusedAt target base key f id s) (hpower : ∀ e ∈ events, e.isPowerLoss = false)
    (hs : events.foldlM (step target) s = some s') (hremovals : s'.removals = s.removals) :
    RefusedAt target base key f id s' := by
  induction events generalizing s with
  | nil => cases hs; exact h
  | cons event events ih =>
    rw [List.foldlM_cons] at hs
    obtain ⟨t, hstep, hrun⟩ := Option.bind_eq_some_iff.mp hs
    have hle := step_removals_le hstep
    have hle' := run_removals_le hrun
    exact ih (h.step hstep (by omega) (hpower event List.mem_cons_self))
      (fun e he => hpower e (List.mem_cons_of_mem _ he)) hrun (by omega)

/-! ## The same key -/

/-- A call makes its next system call, which does not fail; a directory is listed as `entries`. -/
def Proceeds (target : Target) (id : ℕ) (entries : List String) (s s' : State) : Prop :=
  step target s (.run id .done) = some s' ∨ step target s (.run id (.listed entries)) = some s'

/-- A call with the key of the file is at a task, and the names are bound as given. -/
structure Ready (target : Target) (base : ℕ) (key : String) (f number id : ℕ) (task : Task)
    (now : String → Option ℕ) (s : State) : Prop where
  inv : Inv target base s
  task : s.tasks id = some task
  now : s.dir.now = now
  content : (s.dir.inode f).content = key
  number : (s.dir.inode f).number = number

/-- The call ends with success, running alone, and leaves the names as given. -/
def Succeeds (target : Target) (id : ℕ) (entries : List String) (key : String) (f : ℕ)
    (now : String → Option ℕ) (s : State) : Prop :=
  ∃ t, Relation.ReflTransGen (Proceeds target id entries) s t ∧
    t.tasks id = some (.done (.pin key) (.ok ())) ∧ t.dir.now = now ∧ (t.dir.inode f).content = key

variable {now now' last : String → Option ℕ} {entries rest : List String} {found : Metadata} {task' : Task} {number : ℕ}

theorem Succeeds.head (hp : Proceeds target id entries s s')
    (h : Succeeds target id entries key f now s') : Succeeds target id entries key f now s := by
  obtain ⟨t, hrun, ht⟩ := h
  exact ⟨t, .head hp hrun, ht⟩

theorem Ready.move (h : Ready target base key f number id task now s) {u : State} {choice : Choice}
    (hchoice : choice = .done ∨ choice = .listed entries)
    (hs : s.advance target id choice task = some (u.put id task')) (hnow : u.dir.now = now')
    (hinode : (u.dir.inode f).content = (s.dir.inode f).content ∧
      (u.dir.inode f).number = (s.dir.inode f).number)
    (hrest : ∀ t, Ready target base key f number id task' now' t → Succeeds target id entries key f last t) :
    Succeeds target id entries key f last s := by
  have hstep : step target s (.run id choice) = some (u.put id task') := by
    rw [step, h.task]
    exact hs
  have hp : Proceeds target id entries s (u.put id task') := by
    rcases hchoice with rfl | rfl
    · exact .inl hstep
    · exact .inr hstep
  refine (hrest (u.put id task') ⟨h.inv.step hstep, Function.update_self _ _ _, hnow, ?_, ?_⟩).head hp
  · exact hinode.1.trans h.content
  · exact hinode.2.trans h.number

theorem Ready.sealed (h : Ready target base key f number id task now s) (hpin : now target.path = some f) :
    Sealed base s f := h.inv.pinned f (mayBe_now (h.now ▸ hpin))

theorem Ready.safe (h : Ready target base key f number id task now s) (hpin : now target.path = some f)
    (hlen : len key ≤ 128) : safe_pin_metadata (metadata s.dir f) = true ∧
      (metadata s.dir f).attributes = CREATED := by
  have hs := h.sealed hpin
  have hattributes : (s.dir.inode f).attributes = CREATED := (h.inv.made f hs.base_le hs.lt_next).2
  refine ⟨?_, hattributes⟩
  simp [safe_pin_metadata, metadata, hattributes, h.content, CREATED, hlen]

theorem ready_confirm (h : Ready target base key f number id (.confirm key found f) now s)
    (hpin : now target.path = some f) (hlen : len key ≤ 128)
    (honly : ∀ name, now name = some f → name = target.path) :
    Succeeds target id entries key f now s := by
  have hs := h.sealed hpin
  have hpin' : s.dir.now target.path = some f := h.now ▸ hpin
  obtain ⟨-, -, hnumber⟩ := h.inv.tasks id _ h.task
  have hlinks : s.dir.links f = 1 :=
    (links_eq_one hpin').mpr ⟨(h.inv.made f hs.base_le hs.lt_next).1, h.now ▸ honly⟩
  have hsafe : safe_pin_metadata (metadata s.dir f) = true := (h.safe hpin hlen).1
  have hchecked : s.advance target id .done (.confirm key found f) =
      some (s.put id (.syncFile key f s.removals)) := by
    have hino : (metadata s.dir f).ino = found.ino := hnumber
    have hnlink : (metadata s.dir f).nlink = 1 := hlinks
    simp [State.advance, State.confirm, hpin', hsafe, hino, hnlink]
  refine h.move (.inl rfl) hchecked h.now ⟨rfl, rfl⟩ fun t ht => ?_
  refine ht.move (u := t.setDir (t.dir.syncFile f)) (.inl rfl) rfl ht.now ?_ fun v hv => ?_
  · have hcontent : ((t.dir.syncFile f).inode f).content = (t.dir.inode f).content := by
      rw [Directory.syncFile, inode_modify_self]
    have hnumber : ((t.dir.syncFile f).inode f).number = (t.dir.inode f).number := by
      rw [Directory.syncFile, inode_modify_self]
    exact ⟨hcontent, hnumber⟩
  refine hv.move (u := v.setDir v.dir.sync) (.inl rfl) rfl hv.now ⟨rfl, rfl⟩ fun w hw => ?_
  exact ⟨w, .refl, hw.task, hw.now, hw.content⟩

/-- The names without the leftovers of a file. -/
def pruned (now : String → Option ℕ) (f : ℕ) (name : String) : Option ℕ :=
  if owned_name name = true ∧ now name = some f then none else now name

theorem pruned_of_only (h : ∀ name, now name = some f → name = target.path) : pruned now f = now := by
  funext name
  refine if_neg fun hand => ?_
  exact absurd (h name hand.2) (owned_ne_path hand.1)

theorem pruned_update {entry : String} (howned : owned_name entry = true) (hentry : now entry = some f) :
    pruned (Function.update now entry none) f = pruned now f := by
  funext name
  unfold pruned
  by_cases he : name = entry
  · rw [he, Function.update_self, if_neg (by simp), if_pos ⟨howned, hentry⟩]
  · rw [Function.update_of_ne he]

/-- **The recovery loop removes the leftovers of the pin's file and nothing else.** -/
theorem ready_loop (h : Ready target base key f number id (.recover key found f rest) now s)
    (hpin : now target.path = some f) (hlen : len key ≤ 128) (huid : found.attributes.uid = 0)
    (hlinks : ∀ name, now name = some f → name = target.path ∨ owned_name name = true ∧ name ∈ rest) :
    Succeeds target id entries key f (pruned now f) s := by
  induction rest generalizing s now with
  | nil =>
    have honly : ∀ name, now name = some f → name = target.path :=
      fun name hname => (hlinks name hname).resolve_right fun hno => nomatch hno.2
    rw [pruned_of_only honly]
    exact h.move (.inl rfl) rfl h.now ⟨rfl, rfl⟩ fun t ht => ready_confirm ht hpin hlen honly
  | cons entry rest ih =>
    obtain ⟨-, -, hnumber⟩ := h.inv.tasks id _ h.task
    have hnow : s.dir.now = now := h.now
    by_cases hours : owned_name entry = true ∧ now entry = some f
    · -- A leftover: it is removed, and the loop goes on with the other names.
      obtain ⟨howned, hentry⟩ := hours
      have hentry' : s.dir.now entry = some f := hnow ▸ hentry
      obtain ⟨hsafe, hattributes⟩ := h.safe hpin hlen
      have hsame : (s.dir.inode f).attributes.uid = found.attributes.uid :=
        (congrArg Attributes.uid hattributes).trans huid.symm
      have hfound : s.advance target id .done (.recover key found f (entry :: rest)) =
          some (s.put id (.remove key found f entry rest)) := by
        simp [State.advance, State.recover, howned, hentry', hsafe, hsame, hnumber]
      refine h.move (.inl rfl) hfound hnow ⟨rfl, rfl⟩ fun t ht => ?_
      have hremoved : t.advance target id .done (.remove key found f entry rest) =
          some ((t.setDir (t.dir.unlink entry)).put id (.recover key found f rest)) := by
        have hbound : t.dir.now entry = some f := ht.now ▸ hentry
        simp [State.advance, State.remove, hbound]
      have hunlinked : (t.dir.unlink entry).now = Function.update now entry none := by
        rw [← ht.now]
        rfl
      refine ht.move (.inl rfl) hremoved hunlinked ⟨rfl, rfl⟩ fun v hv => ?_
      have hne : target.path ≠ entry := (owned_ne_path howned).symm
      rw [← pruned_update howned hentry]
      refine ih hv ((Function.update_of_ne hne _ _).trans hpin) fun name hname => ?_
      by_cases he : name = entry
      · rw [he, Function.update_self] at hname
        cases hname
      · rw [Function.update_of_ne he] at hname
        refine (hlinks name hname).imp_right fun hand => ⟨hand.1, ?_⟩
        exact (List.mem_cons.mp hand.2).resolve_left he
    · -- Another name: the loop goes on.
      have hskipped : s.advance target id .done (.recover key found f (entry :: rest)) =
          some (s.put id (.recover key found f rest)) := by
        simp only [State.advance, State.recover]
        by_cases howned : owned_name entry = true
        · rw [howned, Bool.not_true, if_neg Bool.false_ne_true]
          cases hentry : s.dir.now entry with
          | none => rfl
          | some g =>
            have hne : (s.dir.inode g).number ≠ found.ino := by
              intro he
              have hg : g = f := h.inv.numbers g f (.inl ⟨entry, hentry⟩) (live_file h.task rfl)
                (he.trans hnumber.symm)
              exact hours ⟨howned, hnow ▸ hg ▸ hentry⟩
            simp [hne]
        · simp [howned]
      refine h.move (.inl rfl) hskipped hnow ⟨rfl, rfl⟩ fun t ht => ih ht hpin fun name hname => ?_
      refine (hlinks name hname).imp_right fun hand => ⟨hand.1, ?_⟩
      refine (List.mem_cons.mp hand.2).resolve_left fun he => ?_
      exact hours ⟨he ▸ hand.1, he ▸ hname⟩

/-- **A call with the pin's key that runs alone succeeds; of the names it removes the leftovers of the
pin's file.** -/
theorem retry_succeeds (h : Inv target base s) (hvalid : target.valid = true)
    (hpin : s.dir.now target.path = some f) (hkey : (s.dir.inode f).content = key)
    (hlen : len key ≤ 128) (hentries : ∀ name, s.dir.now name ≠ none → name ∈ entries) :
    Succeeds target s.next entries key f (pruned s.dir.now f) (s.call target (.pin key)) := by
  have hsealed := h.pinned f (mayBe_now hpin)
  have hparse : parse_host_key key = true := hkey ▸ hsealed.key
  have hcalled : s.call target (.pin key) =
      { s.put s.next (.manage (.pin key)) with next := s.next + 1 } := by
    simp [State.call, hvalid, hparse]
  have hready : Ready target base key f (s.dir.inode f).number s.next (.manage (.pin key)) s.dir.now
      (s.call target (.pin key)) := by
    refine ⟨h.call (.pin key), ?_, rfl, hkey, rfl⟩
    rw [hcalled]
    exact Function.update_self _ _ _
  have hmanaged : ((s.call target (.pin key)).setDir (s.call target (.pin key)).dir.sync).dir.now =
      s.dir.now := rfl
  refine hready.move (.inl rfl) rfl hmanaged ⟨rfl, rfl⟩ fun t ht => ?_
  have hlook : t.advance target s.next .done (.look key) = some (t.put s.next (.inspect (.pin key))) := by
    simp [State.advance, State.look, ht.now, hpin]
  refine ht.move (.inl rfl) hlook ht.now ⟨rfl, rfl⟩ fun u hu => ?_
  obtain ⟨hsafe, hattributes⟩ := hu.safe hpin hlen
  have hinspect : u.advance target s.next .done (.inspect (.pin key)) =
      some (u.put s.next (.open (.pin key) (metadata u.dir f))) := by
    simp [State.advance, State.inspect, hu.now, hpin, hsafe]
  refine hu.move (.inl rfl) hinspect hu.now ⟨rfl, rfl⟩ fun v hv => ?_
  have hopened : v.advance target s.next .done (.open (.pin key) (metadata u.dir f)) =
      some (v.put s.next (.read (.pin key) (metadata u.dir f) f)) := by
    have hnumber : (v.dir.inode f).number = (metadata u.dir f).ino := hv.number.trans hu.number.symm
    simp [State.advance, State.openPin, hv.now, hpin, hnumber]
  refine hv.move (.inl rfl) hopened hv.now ⟨rfl, rfl⟩ fun w hw => ?_
  -- What is left depends on whether the pin's file had another name when it was inspected.
  have htake : take_utf8 129 (w.dir.inode f).content.toList = some key.toList := by
    rw [hw.content]
    exact take_utf8_of_le (hlen.trans (by decide))
  have hlinks : ∀ name, s.dir.now name = some f → name = target.path ∨
      owned_name name = true ∧ name ∈ entries := by
    intro name hname
    refine (h.links name f (mayBe_now hname) hsealed.base_le).imp_right fun howned => ⟨howned, ?_⟩
    exact hentries name (hname ▸ Option.some_ne_none f)
  by_cases hnlink : 1 < (metadata u.dir f).nlink
  · have hread : w.advance target s.next .done (.read (.pin key) (metadata u.dir f) f) =
        some (w.put s.next (.list key (metadata u.dir f) f)) := by
      simp [State.advance, State.read, htake, hparse, hnlink]
    refine hw.move (.inl rfl) hread hw.now ⟨rfl, rfl⟩ fun x hx => ?_
    have hlisted : x.advance target s.next (.listed entries) (.list key (metadata u.dir f) f) =
        some (x.put s.next (.recover key (metadata u.dir f) f entries)) := by
      simp only [State.advance, State.list, hx.now]
      refine if_pos (List.all_eq_true.mpr fun name _ => ?_)
      cases hname : s.dir.now name with
      | none => rfl
      | some g => simp [hentries name (hname ▸ Option.some_ne_none g)]
    refine hx.move (.inr rfl) hlisted hx.now ⟨rfl, rfl⟩ fun y hy => ?_
    exact ready_loop hy hpin hlen (congrArg Attributes.uid hattributes) hlinks
  · have hread : w.advance target s.next .done (.read (.pin key) (metadata u.dir f) f) =
        some (w.put s.next (.confirm key (metadata u.dir f) f)) := by
      simp [State.advance, State.read, htake, hparse, hnlink]
    refine hw.move (.inl rfl) hread hw.now ⟨rfl, rfl⟩ fun x hx => ?_
    have hone : u.dir.links f = 1 := by
      have hpos : 0 < u.dir.links f := links_pos (hu.now ▸ hpin)
      have hle : u.dir.links f ≤ 1 := Nat.not_lt.mp hnlink
      omega
    have honly : ∀ name, s.dir.now name = some f → name = target.path :=
      fun name hname => ((links_eq_one (hu.now ▸ hpin)).mp hone).2 name (hu.now ▸ hname)
    rw [pruned_of_only honly]
    exact ready_confirm hx hpin hlen honly

end Gofro.Agent.Pins
