import GofroRouter.Agent.Pins.Invariant
import GofroRouter.Lib.Sim

/-!
# Every step of a pin call keeps the invariant

* `Inv.publish`, `Inv.confirm`: the two steps that carry the argument, a draft that becomes the pin
  and the last check before a call succeeds.
* **`Inv.step`**: every step of a call, every call and every crash; `Inv.run`: every run.
-/

namespace Gofro.Agent.Pins

open Text Directory

variable {target : Target} {base : ℕ} {s s' : State} {id : ℕ} {task : Task} {key temporary : String}

section

variable {call : Call} {choice : Choice} {metadata : Metadata} {f removals : ℕ}

theorem Inv.syncSome (h : Inv target base s) (p : Prop) [Decidable p] :
    Inv target base (if p then s else s.setDir s.dir.sync) := by
  split_ifs
  · exact h
  · exact h.sync

theorem syncSome_tasks (p : Prop) [Decidable p] :
    (if p then s else s.setDir s.dir.sync).tasks = s.tasks := by
  split_ifs
  · rfl
  · rfl

theorem Inv.manage (h : Inv target base s) (ht : s.tasks id = some (.manage call))
    (hs : s.manage id call choice = some s') : Inv target base s' := by
  have hok : call.valid := h.tasks id _ ht
  cases choice with
  | done =>
    cases call with
    | pin key =>
      cases hs
      exact h.sync.plain ht (.look key) hok rfl rfl fun _ hno => nomatch hno
    | reset =>
      cases hs
      exact h.sync.plain ht (.inspect .reset) trivial rfl rfl fun _ hno => nomatch hno
  | failed progress =>
    cases hs
    exact (h.syncSome (progress = 0)).fail (syncSome_tasks (progress = 0) ▸ ht) call .io
  | created number => cases hs
  | listed entries => cases hs

theorem Inv.look (h : Inv target base s) (ht : s.tasks id = some (.look key))
    (hs : s.look target id key choice = some s') : Inv target base s' := by
  have hok : parse_host_key key = true := h.tasks id _ ht
  cases choice with
  | done =>
    unfold State.look at hs
    split_ifs at hs with hpin
    · cases hs
      exact h.plain ht (.inspect (.pin key)) hok rfl rfl fun _ hno => nomatch hno
    · cases hs
      -- The counter has moved on, so no task has the name.
      have hcounted : Inv target base { s with counter := s.counter + 1 } :=
        { h with
          pinned := fun f hf =>
            have hsealed := h.pinned f hf
            ⟨hsealed.1, hsealed.2, hsealed.3, hsealed.4, hsealed.5⟩
          tasks := fun other task ht => (h.tasks other task ht).mono rfl (Nat.le_succ _) le_rfl
            (fun _ _ _ _ hd => ⟨hd.1, hd.2, hd.3, hd.4⟩) (fun _ _ _ _ => ⟨rfl, fun hsync => hsync⟩)
            (fun _ hd => ⟨⟨hd.1, hd.2, hd.3, hd.4, hd.5⟩, rfl, rfl⟩) fun _ _ hsole => hsole }
      refine hcounted.put (h.id_lt ht) ⟨hok, s.counter, Nat.lt_succ_self _, rfl⟩ ?_
        (fun _ hno => nomatch hno) fun _ hno => nomatch hno
      intro t htemp other task' _ hother hy
      cases htemp
      have htaken : Taken s (temporary_path s.pid s.counter) := by
        have hok' := h.tasks other task' hother
        cases task' <;> cases hy
        · exact hok'.2
        · exact hok'.2.1
        · exact hok'.2.1
        · exact hok'.2.1
        · exact hok'.2
      obtain ⟨n, hn, he⟩ := htaken
      exact absurd (temporary_injective he) hn.ne'
  | failed progress =>
    cases hs
    exact h.fail ht _ _
  | created number => cases hs
  | listed entries => cases hs

theorem Inv.createStep (h : Inv target base s) (ht : s.tasks id = some (.create key temporary))
    (hs : s.create id key temporary choice = some s') : Inv target base s' := by
  cases choice with
  | created number =>
    unfold State.create at hs
    dsimp only at hs
    split_ifs at hs with hused hnumber
    · cases hs
      exact h.fail ht _ _
    · cases hs
      have hfree : s.dir.now temporary = none := by simpa using hused
      refine h.create ht hfree fun f hlive => ?_
      have hall := List.all_eq_true.mp hnumber f ((mem_live h).mpr hlive)
      exact of_decide_eq_true hall
  | failed progress =>
    cases hs
    exact h.fail ht _ _
  | done => cases hs
  | listed entries => cases hs

theorem Inv.writeStep (h : Inv target base s) (ht : s.tasks id = some (.write key temporary f))
    (hs : s.write id key temporary f choice = some s') : Inv target base s' := by
  obtain ⟨hkey, htaken, hdraft⟩ := h.tasks id _ ht
  cases choice with
  | done =>
    cases hs
    have hwritten := h.write ht key
    have hcontent : ((s.dir.write f key).inode f).content = key :=
      congrArg Inode.content inode_modify_self
    refine hwritten.keep ht (.sync key temporary f)
      ⟨hkey, htaken, ⟨hdraft.1, hdraft.2, hdraft.3, hdraft.4⟩, hcontent⟩ (fun _ he => he)
      (fun _ he => he) fun g he => live_file ht he
  | failed progress =>
    cases hs
    exact (h.write ht _).keep ht (.cleanup key temporary f none) ⟨hkey, htaken⟩ (fun _ he => he)
      (fun _ hno => nomatch hno) fun g he => live_file ht he
  | created number => cases hs
  | listed entries => cases hs

theorem Inv.syncStep (h : Inv target base s) (ht : s.tasks id = some (.sync key temporary f))
    (hs : s.sync id key temporary f choice = some s') : Inv target base s' := by
  obtain ⟨hkey, htaken, hdraft, hcontent⟩ := h.tasks id _ ht
  cases choice with
  | done =>
    cases hs
    have hcontent' : ((s.dir.syncFile f).inode f).content = key :=
      (congrArg Inode.content inode_modify_self).trans hcontent
    have hsynced : ((s.dir.syncFile f).inode f).synced = true :=
      congrArg Inode.synced inode_modify_self
    refine (h.syncFile f).keep ht (.publish key temporary f)
      ⟨hkey, htaken, ⟨hdraft.1, hdraft.2, hdraft.3, hdraft.4⟩, hcontent', hsynced⟩ (fun _ he => he)
      (fun _ he => he) fun g he => live_file ht he
  | failed progress =>
    cases hs
    exact h.keep ht (.cleanup key temporary f none) ⟨hkey, htaken⟩ (fun _ he => he)
      (fun _ hno => nomatch hno) fun g he => live_file ht he
  | created number => cases hs
  | listed entries => cases hs

theorem Inv.publish (h : Inv target base s) (ht : s.tasks id = some (.publish key temporary f))
    (hs : s.publish target id key temporary f choice = some s') : Inv target base s' := by
  obtain ⟨hkey, htaken, hdraft, hcontent, hsynced⟩ := h.tasks id _ ht
  have hcleanup : ∀ published, Inv target base (s.put id (.cleanup key temporary f published)) :=
    fun published => h.keep ht (.cleanup key temporary f published) ⟨hkey, htaken⟩ (fun _ he => he)
      (fun _ hno => nomatch hno) fun g he => live_file ht he
  cases choice with
  | done =>
    unfold State.publish at hs
    split_ifs at hs with hgone hfree
    · cases hs
      exact hcleanup none
    · cases hs
      have hnow : s.dir.now temporary = some f := by
        cases hn : s.dir.now temporary with
        | none => simp [hn] at hgone
        | some g => rw [hdraft.now g hn]
      have hsealed : Sealed base (s.put id (.cleanup key temporary f (some true))) f := by
        refine ⟨hdraft.base_le, hdraft.lt_next, hsynced, hcontent ▸ hkey, fun other task' hother => ?_⟩
        rcases tasks_put hother with ⟨-, rfl⟩ | ⟨hne, hother⟩
        · exact fun hno => nomatch hno
        · exact fun hno => hne (h.drafts other id _ _ f hother ht hno rfl)
      exact (hcleanup (some true)).link hnow hsealed (Option.isNone_iff_eq_none.mp hfree)
    · cases hs
      exact hcleanup (some false)
  | failed progress =>
    cases hs
    exact hcleanup none
  | created number => cases hs
  | listed entries => cases hs

theorem Inv.cleanup (h : Inv target base s) {published : Option Bool}
    (ht : s.tasks id = some (.cleanup key temporary f published))
    (hs : s.cleanup id key temporary published choice = some s') : Inv target base s' := by
  obtain ⟨hkey, htaken⟩ := h.tasks id _ ht
  cases choice with
  | done =>
    obtain ⟨u, hu, hsame⟩ : ∃ u, Inv target base u ∧ u.tasks = s.tasks ∧
        u = if (s.dir.now temporary).isNone then s else s.setDir (s.dir.unlink temporary) := by
      refine ⟨_, ?_, ?_, rfl⟩
      · split_ifs
        · exact h
        · exact h.unlink htaken.owned
      · split_ifs
        · rfl
        · rfl
    have ht' : u.tasks id = some (.cleanup key temporary f published) := hsame.1 ▸ ht
    simp only [State.cleanup, ← hsame.2] at hs
    cases published with
    | none =>
      cases hs
      exact hu.fail ht' _ _
    | some published =>
      dsimp only at hs
      split_ifs at hs
      · cases hs
        exact hu.fail ht' _ _
      · cases hs
        exact hu.plain ht' (.inspect (.pin key)) hkey rfl rfl fun _ hno => nomatch hno
  | failed progress =>
    cases hs
    exact h.fail ht _ _
  | created number => cases hs
  | listed entries => cases hs

theorem Inv.inspect (h : Inv target base s) (ht : s.tasks id = some (.inspect call))
    (hs : s.inspect target id call choice = some s') : Inv target base s' := by
  have hok : call.valid := h.tasks id _ ht
  have hopen : ∀ metadata, Inv target base (s.put id (.open call metadata)) :=
    fun metadata => h.plain ht (.open call metadata) hok rfl rfl fun _ hno => nomatch hno
  cases choice with
  | done =>
    unfold State.inspect at hs
    dsimp only at hs
    split at hs
    · cases hs
      exact h.fail ht _ _
    · cases hs
      exact h.plain ht (.done .reset (.ok ())) trivial rfl rfl fun _ hno => nomatch hno
    · split_ifs at hs
      · cases hs
        exact hopen _
      · cases hs
        exact h.fail ht _ _
    · split_ifs at hs
      · cases hs
        exact hopen _
      · cases hs
        exact h.fail ht _ _
  | failed progress =>
    cases hs
    exact h.fail ht _ _
  | created number => cases hs
  | listed entries => cases hs

theorem Inv.openPin (h : Inv target base s) (ht : s.tasks id = some (.open call metadata))
    (hs : s.openPin target id call metadata choice = some s') : Inv target base s' := by
  have hok : call.valid := h.tasks id _ ht
  cases choice with
  | done =>
    unfold State.openPin at hs
    cases hpin : s.dir.now target.path with
    | none =>
      simp only [hpin] at hs
      cases hs
      exact h.fail ht _ _
    | some f =>
      simp only [hpin] at hs
      split_ifs at hs with hnumber
      · cases hs
        exact h.fail ht _ _
      · cases hs
        refine h.plain ht (.read call metadata f)
          ⟨hok, h.pinned f (mayBe_now hpin), not_not.mp hnumber⟩ rfl rfl fun g he => ?_
        cases he
        exact .inl ⟨target.path, hpin⟩
  | failed progress =>
    cases hs
    exact h.fail ht _ _
  | created number => cases hs
  | listed entries => cases hs

theorem Inv.read (h : Inv target base s) (ht : s.tasks id = some (.read call metadata f))
    (hs : s.read id call metadata f choice = some s') : Inv target base s' := by
  obtain ⟨hok, hsealed, hnumber⟩ := h.tasks id _ ht
  cases choice with
  | done =>
    unfold State.read at hs
    cases hstored : take_utf8 129 (s.dir.inode f).content.toList with
    | none =>
      simp only [hstored] at hs
      cases hs
      exact h.fail ht _ _
    | some stored =>
      simp only [hstored] at hs
      cases call with
      | pin key =>
        dsimp only at hs
        split_ifs at hs with hparse hkey hlinks
        · cases hs
          exact h.fail ht _ _
        · cases hs
          exact h.fail ht _ _
        · cases hs
          have hread : Read base s key metadata f := by
            refine ⟨hsealed, ?_, hnumber⟩
            rw [hstored, ← not_not.mp hkey, String.toList_ofList]
          exact h.plain ht (.list key metadata f) hread rfl rfl fun g he => live_file ht he
        · cases hs
          have hread : Read base s key metadata f := by
            refine ⟨hsealed, ?_, hnumber⟩
            rw [hstored, ← not_not.mp hkey, String.toList_ofList]
          exact h.plain ht (.confirm key metadata f) hread rfl rfl fun g he => live_file ht he
      | reset =>
        dsimp only at hs
        split_ifs at hs
        · cases hs
          exact h.fail ht _ _
        · cases hs
          exact h.plain ht (.check metadata f) trivial rfl rfl fun g he => live_file ht he
  | failed progress =>
    cases hs
    exact h.fail ht _ _
  | created number => cases hs
  | listed entries => cases hs

theorem Inv.list (h : Inv target base s) (ht : s.tasks id = some (.list key metadata f))
    (hs : s.list id key metadata f choice = some s') : Inv target base s' := by
  have hread : Read base s key metadata f := h.tasks id _ ht
  cases choice with
  | listed entries =>
    unfold State.list at hs
    dsimp only at hs
    split_ifs at hs
    cases hs
    exact h.plain ht (.recover key metadata f entries) hread rfl rfl fun g he => live_file ht he
  | failed progress =>
    cases hs
    exact h.fail ht _ _
  | done => cases hs
  | created number => cases hs

theorem Inv.recover (h : Inv target base s) {entries : List String}
    (ht : s.tasks id = some (.recover key metadata f entries))
    (hs : s.recover id key metadata f entries choice = some s') : Inv target base s' := by
  have hread : Read base s key metadata f := h.tasks id _ ht
  have hnext : ∀ entries, Inv target base (s.put id (.recover key metadata f entries)) :=
    fun entries => h.plain ht (.recover key metadata f entries) hread rfl rfl
      fun g he => live_file ht he
  cases entries with
  | nil =>
    cases choice with
    | done =>
      cases hs
      exact h.plain ht (.confirm key metadata f) hread rfl rfl fun g he => live_file ht he
    | failed progress =>
      cases hs
      exact h.fail ht _ _
    | created number => cases hs
    | listed entries => cases hs
  | cons entry entries =>
    cases choice with
    | done =>
      unfold State.recover at hs
      dsimp only at hs
      split_ifs at hs with howned
      · cases hs
        exact hnext entries
      · split at hs
        · cases hs
          exact hnext entries
        · split_ifs at hs
          · cases hs
            have hentry : owned_name entry = true := by simpa using howned
            exact h.plain ht (.remove key metadata f entry entries) ⟨hread, hentry⟩ rfl rfl
              fun g he => live_file ht he
          · cases hs
            exact hnext entries
    | failed progress =>
      cases hs
      exact h.fail ht _ _
    | created number => cases hs
    | listed entries => cases hs

theorem Inv.remove (h : Inv target base s) {entry : String} {entries : List String}
    (ht : s.tasks id = some (.remove key metadata f entry entries))
    (hs : s.remove id key metadata f entry entries choice = some s') : Inv target base s' := by
  obtain ⟨hread, hentry⟩ := h.tasks id _ ht
  cases choice with
  | done =>
    unfold State.remove at hs
    split_ifs at hs
    · cases hs
      exact h.plain ht (.recover key metadata f entries) hread rfl rfl fun g he => live_file ht he
    · cases hs
      have hunlinked := h.unlink hentry
      have ht' : (s.setDir (s.dir.unlink entry)).tasks id =
          some (.remove key metadata f entry entries) := ht
      have hread' : Read base (s.setDir (s.dir.unlink entry)) key metadata f :=
        (hunlinked.tasks id _ ht').1
      exact hunlinked.plain ht' (.recover key metadata f entries) hread' rfl rfl
        fun g he => live_file ht' he
  | failed progress =>
    cases hs
    exact h.fail ht _ _
  | created number => cases hs
  | listed entries => cases hs

/-- The last check finds the file that is open, and that the pin is its only name. -/
theorem Inv.confirm (h : Inv target base s) (ht : s.tasks id = some (.confirm key metadata f))
    (hs : s.confirm target id key metadata f choice = some s') : Inv target base s' := by
  obtain ⟨hsealed, hkey, hnumber⟩ := h.tasks id _ ht
  cases choice with
  | done =>
    unfold State.confirm at hs
    cases hpin : s.dir.now target.path with
    | none =>
      simp only [hpin] at hs
      cases hs
      exact h.fail ht _ _
    | some other =>
      simp only [hpin] at hs
      split_ifs at hs with hunsafe
      · cases hs
        exact h.fail ht _ _
      · cases hs
        simp only [Bool.or_eq_true, Bool.not_eq_true', decide_eq_true_eq, not_or, ne_eq,
          not_not, Bool.not_eq_false] at hunsafe
        obtain ⟨⟨hsafe, hlinks⟩, hino⟩ := hunsafe
        have hsame : other = f := by
          refine h.numbers other f (.inl ⟨target.path, hpin⟩) (live_file ht rfl) ?_
          exact hino.trans hnumber.symm
        subst hsame
        have hlen : byteLen (s.dir.inode other).content.toList ≤ 129 :=
          (len_le_of_safe hsafe).trans (by decide)
        have hcontent : (s.dir.inode other).content = key := by
          rw [take_utf8_of_le hlen] at hkey
          exact String.toList_injective (Option.some.inj hkey)
        have hsole : Sole target s other := ⟨hpin, ((links_eq_one hpin).mp hlinks).2⟩
        exact h.plain ht (.syncFile key other s.removals)
          ⟨hsealed, hcontent, le_rfl, fun _ => hsole⟩ rfl rfl fun g he => live_file ht he
  | failed progress =>
    cases hs
    exact h.fail ht _ _
  | created number => cases hs
  | listed entries => cases hs

theorem Inv.syncFileStep (h : Inv target base s) (ht : s.tasks id = some (.syncFile key f removals))
    (hs : s.syncFile id key f removals choice = some s') : Inv target base s' := by
  cases choice with
  | done =>
    cases hs
    have hsynced := h.syncFile f
    have ht' : (s.setDir (s.dir.syncFile f)).tasks id = some (.syncFile key f removals) := ht
    have hok := hsynced.tasks id _ ht'
    exact hsynced.plain ht' (.syncDirectory key f removals) hok rfl rfl fun g he => live_file ht' he
  | failed progress =>
    cases hs
    exact h.fail ht _ _
  | created number => cases hs
  | listed entries => cases hs

theorem Inv.syncDirectory (h : Inv target base s) (ht : s.tasks id = some task) {message : String}
    (hs : s.syncDirectory id call message choice = some s') : Inv target base s' := by
  cases choice with
  | done =>
    cases hs
    exact h.sync.plain ht (.done call (.ok ())) trivial rfl rfl fun _ hno => nomatch hno
  | failed progress =>
    cases hs
    exact (h.syncSome (progress = 0)).fail (syncSome_tasks (progress = 0) ▸ ht) call _
  | created number => cases hs
  | listed entries => cases hs

theorem Inv.check (h : Inv target base s) (ht : s.tasks id = some (.check metadata f))
    (hs : s.check target id metadata f choice = some s') : Inv target base s' := by
  cases choice with
  | done =>
    unfold State.check at hs
    dsimp only at hs
    split at hs
    · cases hs
      exact h.fail ht _ _
    · split_ifs at hs
      · cases hs
        exact h.fail ht _ _
      · cases hs
        exact h.plain ht (.unlink f) trivial rfl rfl fun g he => live_file ht he
  | failed progress =>
    cases hs
    exact h.fail ht _ _
  | created number => cases hs
  | listed entries => cases hs

theorem Inv.unlinkStep (h : Inv target base s) (ht : s.tasks id = some (.unlink f))
    (hs : s.unlink target id f choice = some s') : Inv target base s' := by
  cases choice with
  | done =>
    unfold State.unlink at hs
    dsimp only at hs
    split_ifs at hs
    · cases hs
      exact h.fail ht _ _
    · cases hs
      have ht' : (s.withDir (s.dir.unlink target.path) (s.removals + 1)).tasks id =
          some (.unlink f) := ht
      exact h.unlinkPin.plain ht' (.syncRemoval f) trivial rfl rfl fun g he => live_file ht' he
  | failed progress =>
    cases hs
    exact h.fail ht _ _
  | created number => cases hs
  | listed entries => cases hs

theorem Inv.advance (h : Inv target base s) (ht : s.tasks id = some task)
    (hs : s.advance target id choice task = some s') : Inv target base s' := by
  cases task with
  | manage call => exact h.manage ht hs
  | look key => exact h.look ht hs
  | create key temporary => exact h.createStep ht hs
  | write key temporary f => exact h.writeStep ht hs
  | sync key temporary f => exact h.syncStep ht hs
  | publish key temporary f => exact h.publish ht hs
  | cleanup key temporary f published => exact h.cleanup ht hs
  | inspect call => exact h.inspect ht hs
  | «open» call metadata => exact h.openPin ht hs
  | read call metadata f => exact h.read ht hs
  | list key metadata f => exact h.list ht hs
  | recover key metadata f entries => exact h.recover ht hs
  | remove key metadata f entry entries => exact h.remove ht hs
  | confirm key metadata f => exact h.confirm ht hs
  | syncFile key f removals => exact h.syncFileStep ht hs
  | syncDirectory key f removals => exact h.syncDirectory ht hs
  | check metadata f => exact h.check ht hs
  | «unlink» f => exact h.unlinkStep ht hs
  | syncRemoval f => exact h.syncDirectory ht hs
  | done call result => cases hs

end

theorem Inv.call (h : Inv target base s) (call : Call) : Inv target base (s.call target call) := by
  obtain ⟨task, htask, hok, htemporary, hdraft, hfile⟩ : ∃ task,
      s.call target call = { s.put s.next task with next := s.next + 1 } ∧ task.Ok target base s ∧
      task.temporary = none ∧ task.draft = none ∧ task.file = none := by
    cases call with
    | reset => exact ⟨.manage .reset, rfl, trivial, rfl, rfl, rfl⟩
    | pin key =>
      refine ⟨_, rfl, ?_⟩
      dsimp only
      split_ifs with hvalid hkey
      · exact ⟨trivial, rfl, rfl, rfl⟩
      · exact ⟨trivial, rfl, rfl, rfl⟩
      · exact ⟨by simpa [Task.Ok, Call.valid] using hkey, rfl, rfl, rfl⟩
  have hnext : Inv target base { s with next := s.next + 1 } :=
    { h with
      fresh := fun id hle => h.fresh id ((Nat.le_succ _).trans hle)
      pinned := fun f hf =>
        have hsealed := h.pinned f hf
        ⟨hsealed.1, hsealed.2, hsealed.3, hsealed.4, hsealed.5⟩
      tasks := fun other task ht => (h.tasks other task ht).mono rfl le_rfl le_rfl
        (fun _ _ _ _ hd => ⟨hd.1, hd.2, hd.3, hd.4⟩) (fun _ _ _ _ => ⟨rfl, fun hsync => hsync⟩)
        (fun _ hd => ⟨⟨hd.1, hd.2, hd.3, hd.4, hd.5⟩, rfl, rfl⟩) fun _ _ hsole => hsole }
  have hok' : task.Ok target base { s with next := s.next + 1 } := by
    refine hok.mono rfl le_rfl le_rfl (fun _ _ _ _ hd => ⟨hd.1, hd.2, hd.3, hd.4⟩)
      (fun _ _ _ _ => ⟨rfl, fun hsync => hsync⟩)
      (fun _ hd => ⟨⟨hd.1, hd.2, hd.3, hd.4, hd.5⟩, rfl, rfl⟩) fun _ _ hsole => hsole
  rw [htask]
  refine hnext.put (Nat.lt_succ_self _) hok' ?_ ?_ ?_
  · rw [htemporary]
    exact fun _ hno => by cases hno
  · rw [hdraft]
    exact fun _ hno => by cases hno
  · rw [hfile]
    exact fun _ hno => by cases hno

/-- **Every step keeps the invariant.** -/
theorem Inv.step (h : Inv target base s) {event : Event} (hs : step target s event = some s') :
    Inv target base s' := by
  cases event with
  | call call =>
    cases hs
    exact h.call call
  | run id choice =>
    obtain ⟨task, ht, hs⟩ := Option.bind_eq_some_iff.mp hs
    exact h.advance ht hs
  | died pid =>
    cases hs
    exact h.restart pid
  | powerLoss pid keep lost =>
    simp only [Pins.step] at hs
    split_ifs at hs with hdistinct
    cases hs
    exact h.powerLoss hdistinct

theorem Inv.run (h : Inv target base s) {events : List Event}
    (hs : events.foldlM (Pins.step target) s = some s') : Inv target base s' :=
  foldlM_invariant (P := fun _ s => Inv target base s) (fun _ _ _ _ h hs => h.step hs) h hs

theorem Inv.start {dir : Directory Attributes} {pid : ℕ} (hdistinct : dir.distinct = true)
    (hfree : ∀ f, ¬ dir.MayBe target.path f) : Inv target dir.next (Pins.start dir pid) where
  base_le := le_rfl
  links _ _ hname hle := absurd hname.lt_next (Nat.not_lt.mpr hle)
  pinned f hf := absurd hf (hfree f)
  made _ hle hlt := absurd hlt (Nat.not_lt.mpr hle)
  numbers f g hf hg he := by
    rcases hf with ⟨n, hn⟩ | ⟨_, _, hno, -⟩
    · rcases hg with ⟨m, hm⟩ | ⟨_, _, hno, -⟩
      · exact distinct_iff.mp hdistinct n m f g hn hm he
      · cases hno
    · cases hno
  opened _ _ _ hno := nomatch hno
  fresh _ _ := rfl
  tasks _ _ hno := nomatch hno
  temporaries _ _ _ _ _ hno := nomatch hno
  drafts _ _ _ _ _ hno := nomatch hno

end Gofro.Agent.Pins
