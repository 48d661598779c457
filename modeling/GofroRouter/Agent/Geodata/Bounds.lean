import GofroRouter.Agent.Geodata.Index

/-!
# The reader stays within its range

What the decoders of `geodata.rs` do with a `Reader` of `geodata/wire.rs`, as nested loops over
fields.

* `field_ok`: a field takes at least one byte, and its payload lies in what was read.
* `Nested`: reads that enter only ranges within the current one; the decoders are such reads
  (`nested_index`, `nested_site`, `nested_ip`).
* **`Nested.confined`**: they do not depend on the bytes outside of their range.
* `rounds_enough`: a loop ends before its rounds are used up.
* **`reader_safe`**: the reader is safe on every file.
-/

namespace Gofro.Agent.Geodata

variable {file file' : File} {r r' : Reader} {α β : Type}

theorem run_bind_ok {m : Read α} {k : α → Read β} {b : β} :
    (m >>= k).run r = .ok (b, r') ↔
      ∃ a s, m.run r = .ok (a, s) ∧ (k a).run s = .ok (b, r') := by
  rw [StateT.run_bind]
  cases m.run r with
  | error e => simp [bind, Except.bind]
  | ok p =>
    constructor
    · exact fun h => ⟨p.1, p.2, rfl, h⟩
    · rintro ⟨a, s, hp, h⟩
      cases hp
      exact h

theorem run_bind_congr {m m' : Read α} {k k' : α → Read β} (hm : m.run r = m'.run r)
    (hk : ∀ a s, m.run r = .ok (a, s) → (k a).run s = (k' a).run s) :
    (m >>= k).run r = (m' >>= k').run r := by
  rw [StateT.run_bind, StateT.run_bind, ← hm]
  cases hrun : m.run r with
  | error e => rfl
  | ok p => exact hk p.1 p.2 hrun

theorem ensure_ok {cond : Bool} {message : String} {k : Read β} {b : β} :
    (do ensure cond message; k).run r = .ok (b, r') ↔ cond = true ∧ k.run r = .ok (b, r') := by
  rw [StateT.run_bind, run_ensure]
  cases cond with
  | true => simp [ok_bind]
  | false => simp [bind, Except.bind]

theorem ensure_state {cond : Bool} {message : String} {u : Unit}
    (h : (ensure cond message).run r = .ok (u, r')) : r' = r := by
  rw [run_ensure] at h
  split_ifs at h
  cases h
  rfl

/-! ## Progress -/

/-- A payload between two offsets. -/
def Value.Inside (lo hi : ℕ) : Value → Prop
  | .bytes range => lo ≤ range.start ∧ range.start + range.len ≤ hi
  | _ => True

theorem Value.Inside.mono {lo hi lo' hi' : ℕ} {value : Value} (h : value.Inside lo hi)
    (hlo : lo' ≤ lo) (hhi : hi ≤ hi') : value.Inside lo' hi' := by
  cases value with
  | bytes range => exact ⟨hlo.trans h.1, h.2.trans hhi⟩
  | integer v => trivial
  | fixed => trivial

theorem seek_ok {position : ℕ} (h : (seek position).run r = .ok ((), r')) :
    r' = { r with position } := by
  rw [seek, run_bind_ok] at h
  obtain ⟨s, t, hget, h⟩ := h
  cases hget
  exact (Prod.mk.inj (Except.ok.inj (ensure_ok.mp h).2)).2.symm

theorem integer_ok {v : ℕ} (hr : r.Valid file) (h : (integer file).run r = .ok (v, r')) :
    r.position < r'.position ∧ r'.position ≤ r.end_ ∧ r'.end_ = r.end_ := by
  have hsim := reads_integer hr
  rw [Reads, h] at hsim
  obtain ⟨⟨w, rest⟩, hu, -, hend, hle, hr', hw⟩ := hsim.isSome
  have hlt := (Wire.u64_suffix hu).2
  dsimp only at hend hle hr' hw
  rw [← hw, window_length hr', window_length hr] at hlt
  have := hr'.1
  omega

theorem skip_ok {n : ℕ} (h : (skip n).run r = .ok ((), r')) :
    r.position + n ≤ r.end_ ∧ r' = { r with position := r.position + n } := by
  rw [skip, run_bind_ok] at h
  obtain ⟨s, t, hget, h⟩ := h
  cases hget
  obtain ⟨-, h⟩ := ensure_ok.mp h
  obtain ⟨hle, h⟩ := ensure_ok.mp h
  exact ⟨of_decide_eq_true hle, seek_ok h⟩

/-- What reading a field does to the bounds, and where its payload is. -/
structure FieldSafe (r r' : Reader) (value : Value) : Prop where
  progress : r.position < r'.position
  inside : value.Inside r.position r'.position
  bound : r'.position ≤ r.end_
  end_ : r'.end_ = r.end_

theorem field_value_ok {wire : ℕ} {value : Value} (hr : r.Valid file)
    (h : (field_value file wire).run r = .ok (value, r')) :
    r.position ≤ r'.position ∧ value.Inside r.position r'.position ∧ r'.position ≤ r.end_ ∧
      r'.end_ = r.end_ := by
  have hfixed : ∀ n, (do skip n; return Value.fixed : Read Value).run r = .ok (value, r') →
      r.position ≤ r'.position ∧ value.Inside r.position r'.position ∧ r'.position ≤ r.end_ ∧
        r'.end_ = r.end_ := by
    intro n h
    obtain ⟨u, s, hskip, h⟩ := run_bind_ok.mp h
    cases h
    obtain ⟨hle, rfl⟩ := skip_ok hskip
    exact ⟨Nat.le_add_right _ _, trivial, hle, rfl⟩
  match wire with
  | 0 =>
    obtain ⟨v, s, hv, h⟩ := run_bind_ok.mp h
    cases h
    obtain ⟨hlt, hle, hend⟩ := integer_ok hr hv
    exact ⟨hlt.le, trivial, hle, hend⟩
  | 1 => exact hfixed 8 h
  | 2 =>
    obtain ⟨len, s, hlen, h⟩ := run_bind_ok.mp h
    obtain ⟨hlt, hle, hend⟩ := integer_ok hr hlen
    obtain ⟨t, u, hget, h⟩ := run_bind_ok.mp h
    cases hget
    obtain ⟨_, w, hskip, h⟩ := run_bind_ok.mp h
    cases h
    obtain ⟨hfits, rfl⟩ := skip_ok hskip
    rw [hend] at hfits
    exact ⟨hlt.le.trans (Nat.le_add_right _ _), ⟨hlt.le, le_rfl⟩, hfits, hend⟩
  | 3 => cases h
  | 4 => cases h
  | 5 => exact hfixed 4 h
  | n + 6 => cases h

/-- **A field** takes at least one byte, and its payload is between the bounds. -/
theorem field_ok {number : ℕ} {value : Value} (hr : r.Valid file)
    (h : (field file).run r = .ok (some (number, value), r')) : FieldSafe r r' value := by
  obtain ⟨s, t, hget, h⟩ := run_bind_ok.mp h
  cases hget
  dsimp only at h
  split_ifs at h with hend
  · cases h
  obtain ⟨key, s, hkey, h⟩ := run_bind_ok.mp h
  obtain ⟨-, h⟩ := ensure_ok.mp h
  obtain ⟨-, h⟩ := ensure_ok.mp h
  obtain ⟨v, t, hvalue, h⟩ := run_bind_ok.mp h
  cases h
  obtain ⟨hlt, hle, hend⟩ := integer_ok hr hkey
  have hs : s.Valid file := ⟨hend ▸ hle, hend ▸ hr.2⟩
  obtain ⟨hlt', hinside, hle', hend'⟩ := field_value_ok hs hvalue
  rw [hend] at hle' hend'
  exact ⟨hlt.trans_le hlt', hinside.mono hlt.le le_rfl, hle', hend'⟩

theorem field_none (h : (field file).run r = .ok (none, r')) : r' = r := by
  obtain ⟨s, t, hget, h⟩ := run_bind_ok.mp h
  cases hget
  dsimp only at h
  split_ifs at h with hend
  · cases h
    rfl
  obtain ⟨key, s, hkey, h⟩ := run_bind_ok.mp h
  obtain ⟨-, h⟩ := ensure_ok.mp h
  obtain ⟨-, h⟩ := ensure_ok.mp h
  obtain ⟨v, t, hvalue, h⟩ := run_bind_ok.mp h
  cases h

/-! ## Nested reads -/

/-- Both files hold the same bytes between two offsets. -/
structure Agree (lo hi : ℕ) (file file' : File) : Prop where
  le : hi ≤ file.bytes.length
  le' : hi ≤ file'.bytes.length
  same : ∀ i, lo ≤ i → i < hi → file.bytes[i]? = file'.bytes[i]?

theorem Agree.mono {lo hi lo' hi' : ℕ} (h : Agree lo hi file file') (hlo : lo ≤ lo')
    (hhi : hi' ≤ hi) : Agree lo' hi' file file' :=
  ⟨hhi.trans h.le, hhi.trans h.le', fun i hi₁ hi₂ => h.same i (hlo.trans hi₁) (hi₂.trans_le hhi)⟩

/-- Reads between two offsets: loops over fields whose bodies read the ranges that they are given,
each of which is between the same offsets. The result is in `P`. -/
inductive Nested : (lo hi : ℕ) → {α : Type} → (File → Read α) → (α → Prop) → Prop
  | lift {lo hi : ℕ} {α : Type} {P : α → Prop} (x : Except String α)
    (h : ∀ a, x = .ok a → P a) : Nested lo hi (fun _ r => x.map (·, r)) P
  | bind {lo hi : ℕ} {α β : Type} {P : α → Prop} {Q : β → Prop} {m : File → Read α}
    {k : File → α → Read β} (hm : Nested lo hi m P)
    (hk : ∀ a, P a → Nested lo hi (fun file => k file a) Q) :
    Nested lo hi (fun file => m file >>= k file) Q
  | fields {lo hi : ℕ} {σ : Type} {P : σ → Prop} {f : File → σ → ℕ → Value → Read σ}
    (hf : ∀ s number value, P s → value.Inside lo hi →
      Nested lo hi (fun file => f file s number value) P) {s : σ} (h : P s) :
    Nested lo hi (fun file => fields_loop file (f file) s) P
  | bytes {lo hi : ℕ} (n : ℕ) {range : Range} (h : (Value.bytes range).Inside lo hi) :
    Nested lo hi (fun file => bytes file n range) fun _ => True
  | string {lo hi : ℕ} (limit : ℕ) {range : Range} (h : (Value.bytes range).Inside lo hi) :
    Nested lo hi (fun file => string file range limit) fun _ => True
  | within {lo hi : ℕ} {α : Type} {P : α → Prop} {range : Range} {read : File → Read α}
    (h : (Value.bytes range).Inside lo hi)
    (hread : Nested range.start (range.start + range.len) read P) :
    Nested lo hi (fun file => within range (read file)) P

/-! ## Reads between two offsets -/

variable {lo hi : ℕ}

theorem read_exact_agree (ha : Agree lo hi file file') {n : ℕ} (hlo : lo ≤ r.position)
    (hhi : r.position + n ≤ hi) : (read_exact file' n).run r = (read_exact file n).run r := by
  have hle : r.position + n ≤ file.bytes.length := hhi.trans ha.le
  have hle' : r.position + n ≤ file'.bytes.length := hhi.trans ha.le'
  have hsame : (file'.bytes.drop r.position).take n = (file.bytes.drop r.position).take n := by
    apply List.ext_getElem?
    intro i
    rw [List.getElem?_take, List.getElem?_take, List.getElem?_drop, List.getElem?_drop]
    split_ifs with hi
    · exact (ha.same _ (by omega) (by omega)).symm
    · rfl
  simp only [read_exact, StateT.run_bind, StateT.run_get, pure_bind, run_ensure, hle, hle', hsame]

theorem integer_loop_agree (ha : Agree lo hi file file') {n shift value : ℕ}
    (hlo : lo ≤ r.position) (hhi : r.end_ ≤ hi) :
    (integer_loop file' n shift value).run r = (integer_loop file n shift value).run r := by
  induction n generalizing r shift value with
  | zero => rfl
  | succ n ih =>
    by_cases hlt : r.position < r.end_
    · have hbyte : (read_byte file').run r = (read_byte file).run r := by
        simp only [read_byte, StateT.run_bind, StateT.run_get, pure_bind,
          ha.same r.position hlo (hlt.trans_le hhi)]
      rw [integer_loop, integer_loop]
      simp only [StateT.run_bind, StateT.run_get, pure_bind, run_ensure, hlt, decide_true, if_true,
        ok_bind, hbyte]
      refine congrArg _ (funext fun p => ?_)
      simp only [StateT.run_set, pure_bind]
      by_cases hfits : (decide (shift < 63) || decide (p.1 ≤ 1)) = true
      · simp only [hfits, if_true, ok_bind]
        split_ifs
        · rfl
        · exact ih (hlo.trans (Nat.le_succ _)) hhi
      · simp only [hfits]
        rfl
    · rw [integer_loop, integer_loop]
      simp only [StateT.run_bind, StateT.run_get, pure_bind, run_ensure, hlt, decide_false]
      rfl

theorem integer_agree (ha : Agree lo hi file file') (hlo : lo ≤ r.position) (hhi : r.end_ ≤ hi) :
    (integer file').run r = (integer file).run r := integer_loop_agree ha hlo hhi

theorem field_value_agree (ha : Agree lo hi file file') {wire : ℕ} (hlo : lo ≤ r.position)
    (hhi : r.end_ ≤ hi) : (field_value file' wire).run r = (field_value file wire).run r := by
  have hint := integer_agree ha hlo hhi
  unfold field_value
  split
  · exact run_bind_congr hint fun _ _ _ => rfl
  · rfl
  · exact run_bind_congr hint fun _ _ _ => rfl
  · rfl
  · rfl

theorem field_agree (ha : Agree lo hi file file') (hr : r.Valid file) (hlo : lo ≤ r.position)
    (hhi : r.end_ ≤ hi) : (field file').run r = (field file).run r := by
  refine run_bind_congr rfl fun s t hget => ?_
  cases hget
  dsimp only
  split_ifs with hend
  · rfl
  have hint := integer_agree ha hlo hhi
  refine run_bind_congr hint fun key s hkey => ?_
  rw [hint] at hkey
  obtain ⟨hlt, hle, hend⟩ := integer_ok hr hkey
  refine run_bind_congr rfl fun u t hcond => ?_
  obtain rfl := ensure_state hcond
  refine run_bind_congr rfl fun u t hcond => ?_
  obtain rfl := ensure_state hcond
  exact run_bind_congr (field_value_agree ha (hlo.trans hlt.le) (hend.trans_le hhi)) fun _ _ _ => rfl

theorem within_ok {range : Range} {read : Read α} {a : α} (h : (within range read).run r = .ok (a, r')) :
    r' = r ∧ ∃ s, read.run ⟨range.start, range.start + range.len⟩ = .ok (a, s) := by
  obtain ⟨s, t, hget, h⟩ := run_bind_ok.mp h
  cases hget
  obtain ⟨_, s, hseek, h⟩ := run_bind_ok.mp h
  obtain rfl := seek_ok hseek
  obtain ⟨_, s, hmod, h⟩ := run_bind_ok.mp h
  cases hmod
  obtain ⟨a', s, hread, h⟩ := run_bind_ok.mp h
  obtain ⟨_, t, hmod, h⟩ := run_bind_ok.mp h
  cases hmod
  obtain ⟨_, t, hseek', h⟩ := run_bind_ok.mp h
  cases h
  obtain rfl := seek_ok hseek'
  exact ⟨rfl, s, hread⟩

theorem within_agree {range : Range} {read read' : Read α}
    (h : read'.run ⟨range.start, range.start + range.len⟩ =
      read.run ⟨range.start, range.start + range.len⟩) :
    (within range read').run r = (within range read).run r := by
  refine run_bind_congr rfl fun s t hget => ?_
  cases hget
  refine run_bind_congr rfl fun _ s hseek => ?_
  obtain rfl := seek_ok hseek
  refine run_bind_congr rfl fun _ s hmod => ?_
  cases hmod
  exact run_bind_congr h fun _ _ _ => rfl

/-- What holds of a read between two offsets, on files that agree there. -/
def Confined (lo hi : ℕ) (m : File → Read α) (P : α → Prop) : Prop :=
  ∀ (file file' : File) (r : Reader), Agree lo hi file file' → lo ≤ r.position → r.position ≤ hi →
    r.end_ = hi → (m file').run r = (m file).run r ∧ ∀ a r', (m file).run r = .ok (a, r') →
      P a ∧ r.position ≤ r'.position ∧ r'.position ≤ hi ∧ r'.end_ = hi

theorem Confined.bind {m : File → Read α} {k : File → α → Read β} {P : α → Prop} {Q : β → Prop}
    (hm : Confined lo hi m P) (hk : ∀ a, P a → Confined lo hi (fun file => k file a) Q) :
    Confined lo hi (fun file => m file >>= k file) Q := by
  intro file file' r ha hlo hhi hend
  obtain ⟨hsame, hok⟩ := hm file file' r ha hlo hhi hend
  have hrest : ∀ a s, (m file).run r = .ok (a, s) → lo ≤ s.position ∧
      (k file' a).run s = (k file a).run s ∧ ∀ b r', (k file a).run s = .ok (b, r') →
        Q b ∧ s.position ≤ r'.position ∧ r'.position ≤ hi ∧ r'.end_ = hi := by
    intro a s hs
    obtain ⟨hP, hle, hhi', hend'⟩ := hok a s hs
    exact ⟨hlo.trans hle, hk a hP file file' s ha (hlo.trans hle) hhi' hend'⟩
  refine ⟨run_bind_congr hsame fun a s hs => (hrest a s (hsame ▸ hs)).2.1, fun b r' h => ?_⟩
  obtain ⟨a, s, hs, h⟩ := run_bind_ok.mp h
  obtain ⟨hQ, hle, hhi', hend'⟩ := (hrest a s hs).2.2 b r' h
  exact ⟨hQ, (hok a s hs).2.1.trans hle, hhi', hend'⟩

theorem confined_pure {P : α → Prop} {a : α} (h : P a) : Confined lo hi (fun _ => pure a) P := by
  intro file file' r ha hlo hhi hend
  refine ⟨rfl, fun b r' hb => ?_⟩
  cases hb
  exact ⟨h, le_rfl, hhi, hend⟩

theorem confined_field : Confined lo hi field fun a =>
    ∀ number value, a = some (number, value) → value.Inside lo hi := by
  intro file file' r ha hlo hhi hend
  have hr : r.Valid file := ⟨hend ▸ hhi, hend ▸ ha.le⟩
  refine ⟨field_agree ha hr hlo hend.le, fun a r' h => ?_⟩
  cases a with
  | none =>
    obtain rfl := field_none h
    exact ⟨fun _ _ h => (nomatch h), le_rfl, hhi, hend⟩
  | some f =>
    obtain ⟨hlt, hinside, hle, hend'⟩ := field_ok hr h
    rw [hend] at hle hend'
    refine ⟨fun number value hf => ?_, hlt.le, hle, hend'⟩
    cases hf
    exact hinside.mono hlo hle

theorem confined_rounds {σ : Type} {P : σ → Prop} {body : File → σ → ℕ → Value → Read σ}
    (hbody : ∀ s number value, P s → value.Inside lo hi →
      Confined lo hi (fun file => body file s number value) P) (n : ℕ) {s : σ} (h : P s) :
    Confined lo hi (fun file => fields_rounds file (body file) n s) P := by
  induction n generalizing s with
  | zero =>
    intro file file' r ha hlo hhi hend
    exact ⟨rfl, fun a r' h => nomatch h⟩
  | succ n ih =>
    simp only [fields_rounds]
    refine Confined.bind confined_field fun a hinside => ?_
    cases a with
    | none => exact confined_pure h
    | some f => exact (hbody s f.1 f.2 h (hinside f.1 f.2 rfl)).bind fun s hs => ih hs

theorem confined_ensure {cond : Bool} {message : String} :
    Confined lo hi (fun _ => ensure cond message) fun _ => cond = true := by
  intro file file' r ha hlo hhi hend
  refine ⟨rfl, fun a r' h => ?_⟩
  obtain rfl := ensure_state h
  rw [run_ensure] at h
  split_ifs at h with hcond
  exact ⟨hcond, le_rfl, hhi, hend⟩

theorem confined_within {P : α → Prop} {range : Range} {read : File → Read α}
    (h : (Value.bytes range).Inside lo hi)
    (hread : ∀ (file file' : File), Agree range.start (range.start + range.len) file file' →
      (read file').run ⟨range.start, range.start + range.len⟩ =
        (read file).run ⟨range.start, range.start + range.len⟩ ∧
      ∀ a r', (read file).run ⟨range.start, range.start + range.len⟩ = .ok (a, r') → P a) :
    Confined lo hi (fun file => within range (read file)) P := by
  intro file file' r ha hlo hhi hend
  obtain ⟨hsame, hok⟩ := hread file file' (ha.mono h.1 h.2)
  refine ⟨within_agree hsame, fun a r' hrun => ?_⟩
  obtain ⟨rfl, s, hs⟩ := within_ok hrun
  exact ⟨hok a s hs, le_rfl, hhi, hend⟩

theorem Agree.refl (h : hi ≤ file.bytes.length) : Agree lo hi file file :=
  ⟨h, h, fun _ _ _ => rfl⟩

/-- **Termination**: the rounds of a loop are enough, since each field takes a byte. -/
theorem rounds_enough {σ : Type} {P : σ → Prop} {f : File → σ → ℕ → Value → Read σ}
    (hf : ∀ s number value, P s → value.Inside lo hi →
      Confined lo hi (fun file => f file s number value) P) {n m : ℕ} {s : σ} (hs : P s)
    (hr : r.Valid file) (hlo : lo ≤ r.position) (hend : r.end_ = hi)
    (hn : hi - r.position < n) (hm : hi - r.position < m) :
    (fields_rounds file (f file) n s).run r = (fields_rounds file (f file) m s).run r := by
  induction n generalizing m s r with
  | zero => omega
  | succ n ih =>
    obtain _ | m := m
    · omega
    refine run_bind_congr rfl fun a t ht => ?_
    cases a with
    | none => rfl
    | some p =>
      obtain ⟨number, value⟩ := p
      obtain ⟨hlt, hinside, hle, hend'⟩ := field_ok hr ht
      rw [hend] at hle hend'
      have hagree : Agree lo hi file file := .refl (hend ▸ hr.2)
      refine run_bind_congr rfl fun s' u hu => ?_
      obtain ⟨hs', hlt', hle', hend''⟩ := (hf s number value hs (hinside.mono hlo hle) file file
        t hagree (hlo.trans hlt.le) hle hend').2 s' u hu
      have hu : u.Valid file := ⟨hend'' ▸ hle', hend'' ▸ hagree.le⟩
      exact ih hs' hu (hlo.trans (hlt.le.trans hlt')) hend'' (by omega) (by omega)

theorem confined_exact {range : Range} (h : (Value.bytes range).Inside lo hi)
    {k : List UInt8 → Read α} :
    Confined lo hi (fun file => within range (read_exact file range.len >>= k)) fun _ => True :=
  confined_within h fun _ _ ha =>
    ⟨run_bind_congr (read_exact_agree ha le_rfl le_rfl) fun _ _ _ => rfl, fun _ _ _ => trivial⟩

/-- **Nested reads are confined**: what they do depends on the bytes between their offsets only. -/
theorem Nested.confined {m : File → Read α} {P : α → Prop} (h : Nested lo hi m P) :
    Confined lo hi m P := by
  induction h with
  | lift x h =>
    intro file file' r ha hlo hhi hend
    refine ⟨rfl, fun a r' hrun => ?_⟩
    cases x with
    | error e => cases hrun
    | ok b =>
      cases hrun
      exact ⟨h _ rfl, le_rfl, hhi, hend⟩
  | bind hm hk ihm ihk => exact ihm.bind ihk
  | fields hf h ih =>
    intro file file' r ha hlo hhi hend
    exact confined_rounds ih _ h file file' r ha hlo hhi hend
  | bytes n h =>
    refine confined_ensure.bind fun _ hn => ?_
    obtain rfl := of_decide_eq_true hn
    exact confined_exact h
  | string limit h => exact confined_ensure.bind fun _ _ => confined_exact h
  | within h hread ih =>
    refine confined_within h fun file file' ha => ?_
    obtain ⟨hsame, hok⟩ := ih file file' ⟨_, _⟩ ha le_rfl (Nat.le_add_right _ _) rfl
    exact ⟨hsame, fun a r' hrun => (hok a r' hrun).1⟩

/-! ## The decoders -/

theorem Nested.pure {P : α → Prop} {a : α} (h : P a) : Nested lo hi (fun _ => Pure.pure a) P :=
  .lift (.ok a) fun _ ha => Except.ok.inj ha ▸ h

theorem Nested.fail {P : α → Prop} {message : String} :
    Nested lo hi (fun _ => Geodata.fail message) P :=
  .lift (.error message) fun _ ha => nomatch ha

theorem Nested.map {P : α → Prop} {m : File → Read α} {f : α → β} (hm : Nested lo hi m P) :
    Nested lo hi (fun file => do return f (← m file)) fun _ => True :=
  hm.bind fun _ _ => .pure trivial

theorem nested_domain_field (s : ℕ × String) (number : ℕ) {value : Value} (h : value.Inside lo hi) :
    Nested lo hi (fun file => domain_field file s number value) fun _ => True := by
  unfold domain_field
  split
  · exact .pure trivial
  · exact (Nested.string _ h).map
  · exact .fail
  · exact .fail
  · exact .pure trivial

theorem nested_cidr_field (s : Option (List UInt8) × ℕ) (number : ℕ) {value : Value}
    (h : value.Inside lo hi) :
    Nested lo hi (fun file => cidr_field file s number value) fun _ => True := by
  unfold cidr_field
  split
  · split_ifs
    · exact (Nested.bytes _ h).map
    · exact .pure trivial
  · exact .pure trivial
  · exact .fail
  · exact .fail
  · exact .pure trivial

theorem nested_header_field (geoip : Bool) (s : String × Bool) (number : ℕ) {value : Value}
    (h : value.Inside lo hi) :
    Nested lo hi (fun file => header_field file geoip s number value) fun _ => True := by
  unfold header_field
  split
  · exact (Nested.string _ h).map
  · split_ifs <;> exact .pure trivial
  · split_ifs
    · exact .fail
    · exact .pure trivial
  · exact .fail
  · exact .pure trivial

theorem nested_within {σ : Type} {body : File → σ → ℕ → Value → Read σ} {range : Range} {s : σ}
    (h : (Value.bytes range).Inside lo hi)
    (hbody : ∀ {lo hi : ℕ} s number {value : Value}, value.Inside lo hi →
      Nested lo hi (fun file => body file s number value) fun _ => True) :
    Nested lo hi (fun file => within range (fields_loop file (body file) s)) fun _ => True :=
  .within h (.fields (fun s number _ _ hv => hbody s number hv) trivial)

theorem nested_site [RegexEngine] (limits : ResourceLimits) :
    Nested lo hi (fun file => decode_site file limits) fun _ => True := by
  refine .fields (f := fun file => site_field file limits) (fun s number value _ h => ?_) trivial
  unfold site_field
  split_ifs
  · exact .pure trivial
  · cases value with
    | bytes range =>
      exact (nested_within h nested_domain_field).bind fun _ _ => .lift _ fun _ _ => trivial
    | integer v => exact .fail
    | fixed => exact .fail

theorem nested_ip : Nested lo hi decode_ip fun _ => True := by
  have hloop : Nested lo hi (fun file => fields_loop file (ip_field file) []) fun _ => True := by
    refine .fields (fun s number value _ h => ?_) trivial
    unfold ip_field
    split_ifs
    · exact .pure trivial
    · cases value with
      | bytes range => exact (nested_within h nested_cidr_field).map
      | integer v => exact .fail
      | fixed => exact .fail
  exact hloop.map

/-- The entries of an index are ranges between the offsets that were read. -/
theorem nested_index (geoip : Bool) :
    Nested lo hi (fun file => fields_loop file (entry_field file geoip) []) fun entries =>
      ∀ entry ∈ entries, (Value.bytes entry.2).Inside lo hi := by
  refine .fields (f := fun file => entry_field file geoip) (fun s number value hs h => ?_)
    fun _ he => nomatch he
  unfold entry_field
  split_ifs
  · exact .pure hs
  · cases value with
    | bytes range =>
      refine (nested_within h (nested_header_field geoip)).bind fun header _ => .pure ?_
      split_ifs
      · exact hs
      · exact List.forall_mem_cons.mpr ⟨h, hs⟩
    | integer v => exact .fail
    | fixed => exact .fail

/-! ## Encodings of integers -/

theorem integer_put (hr : r.Valid file) {v : ℕ} (hv : v < 2 ^ 64) {rest : List UInt8}
    (h : window file r = Wire.put v ++ rest) :
    (integer file).run r = .ok (v, { r with position := r.position + (Wire.put v).length }) := by
  have hsim := reads_integer hr
  rw [Reads, h, Wire.u64_put hv] at hsim
  obtain ⟨⟨w, s⟩, hrun, hw, hend, hle, hs, hrest⟩ := hsim.isOk
  dsimp only at hw hend hle hs hrest
  subst hw
  have hlen : (window file r).length = (Wire.put w).length + (window file s).length := by
    rw [h, hrest, List.length_append]
  rw [window_length hr, window_length hs, hend] at hlen
  have hposition : s.position = r.position + (Wire.put w).length := by
    have := hs.1
    omega
  rw [hrun, ← hposition, ← hend]

/-- An encoding of more than 64 bits is rejected, and one of more than ten bytes. -/
theorem integer_reject (hr : r.Valid file) {init : List UInt8} {last : UInt8} {rest : List UInt8}
    (hinit : ∀ b ∈ init, 128 ≤ b.toNat) (hlast : last.toNat < 128)
    (hlarge : 2 ^ 64 ≤ Wire.base128 (init ++ [last]) ∨ 10 < (init ++ [last]).length)
    (h : window file r = init ++ last :: rest) : ∃ e, (integer file).run r = .error e := by
  have hsim := reads_integer hr
  have hnone : ¬ (init.length < 10 ∧ Wire.base128 (init ++ [last]) < 2 ^ 64) := by
    rw [List.length_append, List.length_singleton] at hlarge
    omega
  rw [Reads, h, Wire.u64_encoding hinit hlast, if_neg hnone] at hsim
  exact hsim.isError

/-! ## The reader is safe -/

/-- The ranges of an index are in its file, so that their ends do not overflow. -/
theorem open_inside {geoip : Bool} {index : IndexedFile}
    (h : IndexedFile.open file geoip = .ok index) :
    ∀ entry ∈ index.entries, (Value.bytes entry.2).Inside 0 file.bytes.length := by
  have hok := ((nested_index geoip).confined file file (.new file) (.refl le_rfl) le_rfl
    (Nat.zero_le _) rfl).2
  unfold IndexedFile.open at h
  cases hrun : (fields_loop file (entry_field file geoip) []).run (Reader.new file) with
  | error e =>
    rw [hrun] at h
    cases h
  | ok p =>
    rw [hrun] at h
    cases h
    exact (hok p.1 p.2 hrun).1

/-- **The reader is safe** on every file. A field takes at least one byte, and its payload lies in
what was read, at offsets that are far from an overflow. The index and the entries are read by
nested reads; these depend on no byte outside of their range, past whose end the other file may
stop, and more rounds of their loops change nothing. `within` restores the bounds, and an integer
is read if it fits into 64 bits. -/
theorem reader_safe [RegexEngine] (limits : ResourceLimits) (geoip : Bool) :
    (∀ (file : File) (r r' : Reader) (number : ℕ) (value : Value), r.Valid file →
      (field file).run r = .ok (some (number, value), r') →
        FieldSafe r r' value ∧ value.Inside 0 (2 ^ 63)) ∧
    (∀ lo hi : ℕ,
      (Nested lo hi (fun file => fields_loop file (entry_field file geoip) []) fun entries =>
        ∀ entry ∈ entries, (Value.bytes entry.2).Inside lo hi) ∧
      Nested lo hi (fun file => decode_site file limits) (fun _ => True) ∧
      Nested lo hi decode_ip fun _ => True) ∧
    (∀ (file : File) (index : IndexedFile), IndexedFile.open file geoip = .ok index →
      ∀ entry ∈ index.entries, (Value.bytes entry.2).Inside 0 file.bytes.length) ∧
    (∀ (lo hi : ℕ) (α : Type) (m : File → Read α) (P : α → Prop), Nested lo hi m P →
      Confined lo hi m P) ∧
    (∀ (lo : ℕ) (σ : Type) (P : σ → Prop) (f : File → σ → ℕ → Value → Read σ) (file : File)
      (r : Reader) (s : σ), r.Valid file → lo ≤ r.position → P s →
      (∀ s number value, P s → value.Inside lo r.end_ →
        Nested lo r.end_ (fun file => f file s number value) P) →
      ∀ n, r.end_ - r.position < n →
        (fields_rounds file (f file) n s).run r = (fields_loop file (f file) s).run r) ∧
    (∀ (α : Type) (range : Range) (read : Read α) (r r' : Reader) (a : α),
      (within range read).run r = .ok (a, r') → r' = r) ∧
    (∀ (file : File) (r : Reader), r.Valid file →
      (∀ v < 2 ^ 64, ∀ rest, window file r = Wire.put v ++ rest → (integer file).run r =
        .ok (v, { r with position := r.position + (Wire.put v).length })) ∧
      ∀ init last rest, (∀ b ∈ init, 128 ≤ b.toNat) → last.toNat < 128 →
        (2 ^ 64 ≤ Wire.base128 (init ++ [last]) ∨ 10 < (init ++ [last]).length) →
        window file r = init ++ last :: rest → ∃ e, (integer file).run r = .error e) := by
  refine ⟨fun file r r' number value hr h => ?_, fun lo hi =>
    ⟨nested_index geoip, nested_site limits, nested_ip⟩, fun file index h => open_inside h,
    fun lo hi α m P h => h.confined,
    fun lo σ P f file r s hr hlo hs hf n hn => ?_, fun α range read r r' a h => (within_ok h).1,
    fun file r hr => ⟨fun v hv rest h => integer_put hr hv h,
      fun init last rest hinit hlast hlarge h => integer_reject hr hinit hlast hlarge h⟩⟩
  · have hsafe := field_ok hr h
    have hsmall := file.small
    exact ⟨hsafe, hsafe.inside.mono (Nat.zero_le _) ((hsafe.bound.trans hr.2).trans hsmall.le)⟩
  · exact rounds_enough (fun s number value hs h => (hf s number value hs h).confined) hs hr hlo rfl
      hn (Nat.lt_succ_self _)

end Gofro.Agent.Geodata
