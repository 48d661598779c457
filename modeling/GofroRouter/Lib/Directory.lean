import Mathlib.Data.List.Dedup
import Mathlib.Logic.Function.Basic
import Mathlib.Tactic

/-!
# A directory with hard links

Names are bound to files, which have contents and a number that may be used again when a file is
gone. What has changed since the directory was last synced may be undone by a loss of power, name by
name; the contents of a file that is not synced may be lost with it.

* `Directory`: the bindings now, those since the last sync, and the files.
* `MayBe`: a name is bound to a file or may be again after a loss of power.
* `links_eq_one`: a file with a single link has no second name.
-/

/-- A file, whatever its names are; `outside` counts its links from other directories. -/
structure Inode (A : Type) where
  number : ℕ
  outside : ℕ
  attributes : A
  content : String
  synced : Bool

/-- `before` has the bindings at earlier moments since the last sync. -/
structure Directory (A : Type) where
  inode : ℕ → Inode A
  now : String → Option ℕ
  before : List (String → Option ℕ)
  names : List String
  next : ℕ
  bound : ∀ m ∈ now :: before, ∀ name file, m name = some file → name ∈ names ∧ file < next

namespace Directory

variable {A : Type} {d : Directory A} {name other : String} {file f : ℕ}

/-- The name is bound to the file, or it may be after a loss of power. -/
def MayBe (d : Directory A) (name : String) (file : ℕ) : Prop :=
  ∃ m ∈ d.now :: d.before, m name = some file

theorem mayBe_now (h : d.now name = some file) : d.MayBe name file :=
  ⟨d.now, List.mem_cons_self, h⟩

theorem MayBe.mem_names (h : d.MayBe name file) : name ∈ d.names :=
  h.elim fun m hm => (d.bound m hm.1 name file hm.2).1

theorem MayBe.lt_next (h : d.MayBe name file) : file < d.next :=
  h.elim fun m hm => (d.bound m hm.1 name file hm.2).2

/-- The number of links of a file. -/
def links (d : Directory A) (file : ℕ) : ℕ :=
  (d.inode file).outside + (d.names.dedup.filter fun name => d.now name = some file).length

/-- Other bindings; those from before the change may come back. -/
def bind (d : Directory A) (name : String) (file : Option ℕ)
    (hfile : ∀ f, file = some f → f < d.next) : Directory A where
  inode := d.inode
  now := Function.update d.now name file
  before := d.now :: d.before
  names := name :: d.names
  next := d.next
  bound m hm other f hf := by
    rcases List.mem_cons.mp hm with rfl | hm
    · by_cases he : other = name
      · subst he
        rw [Function.update_self] at hf
        exact ⟨List.mem_cons_self, hfile f hf⟩
      · rw [Function.update_of_ne he] at hf
        have hb := d.bound d.now List.mem_cons_self other f hf
        exact ⟨List.mem_cons_of_mem _ hb.1, hb.2⟩
    · have hb := d.bound m hm other f hf
      exact ⟨List.mem_cons_of_mem _ hb.1, hb.2⟩

/-- `unlink`: the name goes. -/
def unlink (d : Directory A) (name : String) : Directory A := d.bind name none fun _ h => nomatch h

/-- `link`: the file of one name gets another. -/
def link (d : Directory A) (name new : String) : Directory A :=
  d.bind new (d.now name) fun _ h => (mayBe_now h).lt_next

/-- Change a file. -/
def modify (d : Directory A) (file : ℕ) (change : Inode A → Inode A) : Directory A :=
  { d with inode := Function.update d.inode file (change (d.inode file)) }

/-- A write is not on the disk until it is synced. -/
def write (d : Directory A) (file : ℕ) (content : String) : Directory A :=
  d.modify file fun inode => { inode with content := content, synced := false }

/-- `fsync` of a file. -/
def syncFile (d : Directory A) (file : ℕ) : Directory A :=
  d.modify file fun inode => { inode with synced := true }

/-- `fsync` of the directory. -/
def sync (d : Directory A) : Directory A :=
  { d with before := [], bound := fun m hm => d.bound m (List.mem_singleton.mp hm ▸ List.mem_cons_self) }

/-- A new empty file. -/
def create (d : Directory A) (name : String) (number : ℕ) (attributes : A) : Directory A :=
  Directory.bind
    { d with
      inode := Function.update d.inode d.next ⟨number, 0, attributes, "", false⟩
      next := d.next + 1
      bound := fun m hm name file hf => (d.bound m hm name file hf).imp_right (Nat.lt_succ_of_lt ·) }
    name (some d.next) fun _ h => Option.some.inj h ▸ Nat.lt_succ_self _

theorem powerLoss_mem (d : Directory A) (k : ℕ) : (d.now :: d.before).getD k d.now ∈ d.now :: d.before := by
  rw [List.getD_eq_getElem?_getD]
  cases hk : (d.now :: d.before)[k]? with
  | none => exact List.mem_cons_self
  | some m => exact List.mem_of_getElem? hk

/-- A loss of power: each name is bound as at some moment since the last sync, and what a file that
was not synced holds is anything. What is read after it is what the disk holds. -/
def powerLoss (d : Directory A) (keep : String → ℕ) (lost : ℕ → String) : Directory A where
  inode file :=
    let inode := d.inode file
    if inode.synced then inode else { inode with content := lost file, synced := true }
  now name := ((d.now :: d.before).getD (keep name) d.now) name
  before := []
  names := d.names
  next := d.next
  bound m hm name file hf := by
    rw [List.mem_singleton.mp hm] at hf
    exact d.bound _ (d.powerLoss_mem (keep name)) name file hf

/-- No two bound files have the same number. -/
def distinct (d : Directory A) : Bool :=
  let files := d.names.filterMap d.now
  files.all fun f => files.all fun g => decide ((d.inode f).number = (d.inode g).number → f = g)

/-! ## Names -/

theorem mayBe_bind {new : Option ℕ} {hnew : ∀ f, new = some f → f < d.next}
    (h : (d.bind name new hnew).MayBe other f) : other = name ∧ new = some f ∨ d.MayBe other f := by
  obtain ⟨m, hm, hf⟩ := h
  rcases List.mem_cons.mp hm with rfl | hm
  · replace hf : Function.update d.now name new other = some f := hf
    by_cases he : other = name
    · rw [he, Function.update_self] at hf
      exact .inl ⟨he, hf⟩
    · rw [Function.update_of_ne he] at hf
      exact .inr (mayBe_now hf)
  · exact .inr ⟨m, hm, hf⟩

theorem mayBe_unlink (h : (d.unlink name).MayBe other f) : d.MayBe other f :=
  (mayBe_bind h).resolve_left fun hno => nomatch hno.2

theorem mayBe_link {new : String} (h : (d.link name new).MayBe other f) :
    other = new ∧ d.now name = some f ∨ d.MayBe other f := mayBe_bind h

theorem mayBe_create {number : ℕ} {attributes : A} (h : (d.create name number attributes).MayBe other f) :
    other = name ∧ f = d.next ∨ d.MayBe other f :=
  (mayBe_bind h).imp_left fun hand => ⟨hand.1, (Option.some.inj hand.2).symm⟩

theorem mayBe_sync : d.sync.MayBe other f ↔ d.now other = some f := by
  constructor
  · rintro ⟨m, hm, hf⟩
    rwa [List.mem_singleton.mp hm] at hf
  · exact fun h => mayBe_now (d := d.sync) h

theorem mayBe_of_sync (h : d.sync.MayBe other f) : d.MayBe other f := mayBe_now (mayBe_sync.mp h)

theorem mayBe_powerLoss {keep : String → ℕ} {lost : ℕ → String}
    (h : (d.powerLoss keep lost).MayBe other f) : d.MayBe other f := by
  obtain ⟨m, hm, hf⟩ := h
  rw [List.mem_singleton.mp hm] at hf
  exact ⟨_, d.powerLoss_mem (keep other), hf⟩

theorem now_unlink_self : (d.unlink name).now name = none := Function.update_self _ _ _

theorem now_unlink_of_ne (h : other ≠ name) : (d.unlink name).now other = d.now other :=
  Function.update_of_ne h _ _

theorem now_of_unlink (h : (d.unlink name).now other = some f) : d.now other = some f := by
  by_cases he : other = name
  · rw [he, now_unlink_self] at h
    cases h
  · rwa [now_unlink_of_ne he] at h

/-! ## Files -/

theorem inode_create_of_ne {number : ℕ} {attributes : A} (h : f ≠ d.next) :
    (d.create name number attributes).inode f = d.inode f := Function.update_of_ne h _ _

theorem inode_create_self {number : ℕ} {attributes : A} :
    (d.create name number attributes).inode d.next = ⟨number, 0, attributes, "", false⟩ :=
  Function.update_self _ _ _

theorem inode_modify_of_ne {change : Inode A → Inode A} (h : f ≠ file) :
    (d.modify file change).inode f = d.inode f := Function.update_of_ne h _ _

theorem inode_modify_self {change : Inode A → Inode A} :
    (d.modify file change).inode file = change (d.inode file) := Function.update_self _ _ _

theorem inode_powerLoss {keep : String → ℕ} {lost : ℕ → String} (h : (d.inode f).synced = true) :
    (d.powerLoss keep lost).inode f = d.inode f := if_pos h

theorem attributes_powerLoss {keep : String → ℕ} {lost : ℕ → String} :
    ((d.powerLoss keep lost).inode f).outside = (d.inode f).outside ∧
      ((d.powerLoss keep lost).inode f).attributes = (d.inode f).attributes := by
  simp only [powerLoss]
  split_ifs
  · exact ⟨rfl, rfl⟩
  · exact ⟨rfl, rfl⟩

theorem links_eq_one (h : d.now name = some file) : d.links file = 1 ↔
    (d.inode file).outside = 0 ∧ ∀ other, d.now other = some file → other = name := by
  have hmem : ∀ other, other ∈ (d.names.dedup.filter fun name => d.now name = some file) ↔
      d.now other = some file := by
    intro other
    rw [List.mem_filter, List.mem_dedup, decide_eq_true_eq]
    exact ⟨And.right, fun hnow => ⟨(mayBe_now hnow).mem_names, hnow⟩⟩
  have hnodup : (d.names.dedup.filter fun name => d.now name = some file).Nodup :=
    (List.nodup_dedup d.names).filter _
  unfold links
  generalize (d.names.dedup.filter fun name => d.now name = some file) = links at hmem hnodup
  have hpos : 0 < links.length := List.length_pos_of_mem ((hmem name).mpr h)
  constructor
  · intro hone
    refine ⟨by omega, fun other hother => ?_⟩
    obtain ⟨only, honly⟩ := List.length_eq_one_iff.mp (show links.length = 1 by omega)
    have hin := (hmem name).mpr h
    have hin' := (hmem other).mpr hother
    rw [honly, List.mem_singleton] at hin hin'
    exact hin'.trans hin.symm
  · rintro ⟨hout, honly⟩
    have hle : links.length ≤ 1 := by
      rw [← List.toFinset_card_of_nodup hnodup, Finset.card_le_one]
      intro a ha b hb
      rw [List.mem_toFinset, hmem] at ha hb
      exact (honly a ha).trans (honly b hb).symm
    omega

theorem links_pos (h : d.now name = some file) : 0 < d.links file := by
  have hmem : name ∈ d.names.dedup.filter fun name => d.now name = some file :=
    List.mem_filter.mpr ⟨List.mem_dedup.mpr (mayBe_now h).mem_names, decide_eq_true h⟩
  exact Nat.add_pos_right _ (List.length_pos_of_mem hmem)

theorem mem_files (h : d.now name = some file) : file ∈ d.names.filterMap d.now :=
  List.mem_filterMap.mpr ⟨name, (mayBe_now h).mem_names, h⟩

theorem distinct_iff : d.distinct = true ↔ ∀ n m f g, d.now n = some f → d.now m = some g →
    (d.inode f).number = (d.inode g).number → f = g := by
  simp only [distinct, List.all_eq_true, decide_eq_true_eq]
  constructor
  · intro h n m f g hf hg
    exact h f (mem_files hf) g (mem_files hg)
  · intro h f hf g hg
    obtain ⟨n, -, hn⟩ := List.mem_filterMap.mp hf
    obtain ⟨m, -, hm⟩ := List.mem_filterMap.mp hg
    exact h n m f g hn hm

end Directory
