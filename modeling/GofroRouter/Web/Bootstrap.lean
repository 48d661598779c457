import GofroRouter.Lib.Json
import GofroRouter.Lib.Utf8
import GofroRouter.Web.Rules

/-!
# The progress stream of a server's setup

`readBootstrapStream` of `client.ts` reads one JSON event per line from a stream of byte chunks: the
stages of the setup, then its status or an error.

* `chunk`, `readBootstrapStream`: one `read()` of the stream, and the whole function.
* `Written`: the format, as a property of all bytes together.
* `drain_eq`, **`chunk_append`**: two chunks are read as one.
* `readBootstrapStream_terminal`: what is read to its end is written so.
* **`readBootstrapStream_iff`**: what brings a status, and what is shown before.
-/

namespace Gofro.Web

open Text Utf8
open Agent (bind_eq_ok)

/-! ## Events -/

/-- The stages of a bootstrap, in their order. -/
inductive BootstrapStage
  | waiting | host_key | connect | inspect | install | authorize | profile | save
deriving DecidableEq

/-- The last event of a stream. -/
inductive Terminal (σ : Type)
  | complete (status : σ)
  | error (stage : BootstrapStage) (message : String)
deriving DecidableEq

/-- A stage has been reached, or the bootstrap is over. -/
inductive BootstrapEvent (σ : Type)
  | stage (stage : BootstrapStage)
  | terminal (event : Terminal σ)
deriving DecidableEq

/-- `JSON.parse`, whatever it accepts, and the schema of the router's status. -/
class StatusSchema (σ : Type) where
  parse : String → Option Json.Value
  statusSchema : Json.Value → Option σ

/-- The length in UTF-16 code units, `String.prototype.length`. -/
def utf16_length (cs : List Char) : ℕ := (cs.map fun c => if c.toNat < 0x10000 then 1 else 2).sum

/-- The names of the stages. -/
def bootstrapStageSchema : Json.Value → Option BootstrapStage
  | .string "waiting" => some .waiting
  | .string "host_key" => some .host_key
  | .string "connect" => some .connect
  | .string "inspect" => some .inspect
  | .string "install" => some .install
  | .string "authorize" => some .authorize
  | .string "profile" => some .profile
  | .string "save" => some .save
  | _ => none

/-- `z.string().trim().min(1).max(4096)` -/
def messageSchema : Json.Value → Option String
  | .string s =>
    let message := js_trim s
    if 1 ≤ utf16_length message.toList ∧ utf16_length message.toList ≤ 4096 then some message
    else none
  | _ => none

/-- An object without other members than these: `.strict()`. -/
def strict (names : List String) : Json.Value → Bool
  | .object members => members.all fun (name, _) => name ∈ names
  | _ => false

variable {σ : Type} [StatusSchema σ]

/-- One line of the stream. -/
def bootstrapEventSchema (event : Json.Value) : Option (BootstrapEvent σ) :=
  match event.get "type" with
  | some (.string "stage") => do
    guard (strict ["type", "stage"] event)
    return .stage (← bootstrapStageSchema (← event.get "stage"))
  | some (.string "complete") => do
    guard (strict ["type", "status"] event)
    return .terminal (.complete (← StatusSchema.statusSchema (← event.get "status")))
  | some (.string "error") => do
    guard (strict ["type", "stage", "message"] event)
    return .terminal (.error (← bootstrapStageSchema (← event.get "stage"))
      (← messageSchema (← event.get "message")))
  | _ => none

variable (σ) in
/-- `bootstrapEventSchema.parse(JSON.parse(value))` -/
def parseEvent (value : List Char) : Option (BootstrapEvent σ) :=
  (StatusSchema.parse σ (String.ofList value)).bind bootstrapEventSchema

/-! ## Reading -/

def MAX_STREAM : ℕ := 8 * 1024 * 1024

def MAX_LINE : ℕ := 4 * 1024 * 1024

def MAX_EVENTS : ℕ := 64

/-- The error that the panel shows. -/
structure ApiError where
  message : String
deriving DecidableEq

/-- Whatever is wrong with the stream, the bootstrap may have succeeded. -/
def unknownBootstrapOutcome : String := "Результат настройки неизвестен: ответ не получен вовремя или его не удалось проверить. Настройка на роутере и VPS может продолжаться. Проверьте список серверов, состояние VPN на роутере и состояние VPS перед ручной повторной попыткой. Запрос не будет повторён автоматически."

/-- What the lines have brought; `shown` are the calls of `onStage`. -/
structure Progress (σ : Type) where
  events : ℕ
  terminal : Option (Terminal σ)
  shown : List BootstrapStage

/-- The local variables of the function. -/
structure Reading (σ : Type) where
  decoder : TextDecoder
  pending : List Char
  bytes : ℕ
  progress : Progress σ

/-- Before the first chunk. -/
def Reading.start : Reading σ := ⟨.new, [], 0, ⟨0, none, []⟩⟩

/-- One line; an error comes with the calls that were made. -/
def line (p : Progress σ) (value : List Char) : Except (List BootstrapStage) (Progress σ) :=
  if MAX_LINE < utf16_length value ∨ MAX_EVENTS < p.events + 1 ∨ p.terminal.isSome then
    .error p.shown
  else match parseEvent σ value with
    | none => .error p.shown
    | some (.stage stage) => .ok { p with events := p.events + 1, shown := p.shown ++ [stage] }
    | some (.terminal event) => .ok { p with events := p.events + 1, terminal := some event }

/-- The loop over the ended lines of `pending`. -/
def drain (p : Progress σ) (pending : List Char) :
    Except (List BootstrapStage) (Progress σ × List Char) :=
  match _h : pending.dropWhile (· ≠ '\n') with
  | [] => .ok (p, pending)
  | _ :: rest => do
    let p ← line p (pending.takeWhile (· ≠ '\n'))
    drain p rest
termination_by pending.length
decreasing_by
  have := (List.dropWhile_sublist (l := pending) (· ≠ '\n')).length_le
  rw [_h, List.length_cons] at this
  omega

/-- What is done with one `read()`; the last one brings no bytes. -/
def chunk (s : Reading σ) (value : List UInt8) (done : Bool) :
    Except (List BootstrapStage) (Reading σ) := do
  let bytes := s.bytes + value.length
  if MAX_STREAM < bytes then throw s.progress.shown
  let some (decoder, text) := s.decoder.decode value (!done) | throw s.progress.shown
  let (progress, pending) ← drain s.progress (s.pending ++ text)
  if MAX_LINE < utf16_length pending then throw progress.shown
  return ⟨decoder, pending, bytes, progress⟩

/-- `if (pending) line(pending)` -/
def lastLine (p : Progress σ) (pending : List Char) :
    Except (List BootstrapStage) (Progress σ) :=
  if pending ≠ [] then line p pending else .ok p

/-- The body of the `try` block. -/
def readLines (chunks : List (List UInt8)) : Except (List BootstrapStage) (Progress σ) := do
  let s ← chunks.foldlM (fun s value => chunk s value false) Reading.start
  let s ← chunk s [] true
  let p ← lastLine s.progress s.pending
  if p.terminal.isNone then throw p.shown
  return p

/-- What `readBootstrapStream` returns or throws, and its calls of `onStage`. -/
def readBootstrapStream (chunks : List (List UInt8)) : Except ApiError σ × List BootstrapStage :=
  match readLines chunks with
  | .error shown => (.error ⟨unknownBootstrapOutcome⟩, shown)
  | .ok p => match p.terminal with
    | none => (.error ⟨unknownBootstrapOutcome⟩, p.shown)
    | some (.error stage message) => (.error ⟨message⟩, p.shown ++ [stage])
    | some (.complete status) => (.ok status, p.shown)

/-! ## The format -/

/-- The bytes of a stream: UTF-8 text of limited length, after an optional byte-order mark, of
limited lines that are events, the last of them terminal. -/
def Written (bytes : List UInt8) (stages : List BootstrapStage) (event : Terminal σ) : Prop :=
  ∃ cs, bytes = encode cs ∧ bytes.length ≤ MAX_STREAM ∧
    let lines := text_lines (strip_bom cs)
    lines.length ≤ MAX_EVENTS ∧ (∀ value ∈ lines, utf16_length value ≤ MAX_LINE) ∧
    lines.map (parseEvent σ) = stages.map (fun stage => some (.stage stage)) ++ [some (.terminal event)]

/-! ## Chunks -/

theorem drain_eq (p : Progress σ) (pending : List Char) : drain p pending = do
    let p ← (line_split pending).1.foldlM line p
    return (p, (line_split pending).2) := by
  fun_induction drain p pending with
  | case1 p pending h =>
    have hnone : '\n' ∉ pending := fun hmem =>
      absurd (List.dropWhile_eq_nil_iff.mp h _ hmem) (by decide)
    rw [line_split_of_not_mem hnone]
    rfl
  | case2 p pending c rest h ih =>
    have hc : c = '\n' := by
      have hne : pending.dropWhile (· ≠ '\n') ≠ [] := h ▸ List.cons_ne_nil c rest
      have hhead := List.head_dropWhile_not _ hne
      simp only [h, List.head_cons, decide_eq_false_iff_not, not_not] at hhead
      exact hhead
    have hline : '\n' ∉ pending.takeWhile (· ≠ '\n') := fun hmem =>
      absurd (List.mem_takeWhile_imp hmem) (by decide)
    have hp : pending = pending.takeWhile (· ≠ '\n') ++ '\n' :: rest := by
      conv_lhs => rw [← List.takeWhile_append_dropWhile (p := (· ≠ '\n')) (l := pending), h, hc]
    have hs := line_split_line hline rest
    rw [← hp] at hs
    rw [hs, List.foldlM_cons, bind_assoc]
    exact bind_congr ih

theorem chunk_iff {s s' : Reading σ} {value : List UInt8} {done : Bool} :
    chunk s value done = .ok s' ↔
      s'.bytes = s.bytes + value.length ∧ s'.bytes ≤ MAX_STREAM ∧ ∃ text,
        s.decoder.decode value (!done) = some (s'.decoder, text) ∧
        (line_split (s.pending ++ text)).1.foldlM line s.progress = .ok s'.progress ∧
        s'.pending = (line_split (s.pending ++ text)).2 ∧ utf16_length s'.pending ≤ MAX_LINE := by
  rw [chunk]
  by_cases hbytes : MAX_STREAM < s.bytes + value.length
  · rw [if_pos hbytes]
    constructor
    · intro h
      cases h
    · rintro ⟨h, hle, -⟩
      omega
  rw [if_neg hbytes]
  cases hd : s.decoder.decode value (!done) with
  | none => simp [throw, throwThe, MonadExceptOf.throw]
  | some r =>
    obtain ⟨decoder, text⟩ := r
    simp only [drain_eq, bind_assoc, pure_bind, bind_eq_ok]
    constructor
    · rintro ⟨p, hp, h⟩
      by_cases hlong : MAX_LINE < utf16_length (line_split (s.pending ++ text)).2
      · rw [if_pos hlong] at h
        cases h
      rw [if_neg hlong] at h
      obtain rfl := Except.ok.inj h
      exact ⟨rfl, not_lt.mp hbytes, text, rfl, hp, rfl, not_lt.mp hlong⟩
    · rintro ⟨hb, -, text', htext, hp, hpending, hshort⟩
      obtain ⟨rfl, rfl⟩ := Prod.mk.inj (Option.some.inj htext)
      refine ⟨_, hp, ?_⟩
      rw [if_neg (by rw [← hpending]; omega), ← hpending, ← hb]
      rfl

theorem line_iff {p p' : Progress σ} {value : List Char} : line p value = .ok p' ↔
    utf16_length value ≤ MAX_LINE ∧ p.events + 1 ≤ MAX_EVENTS ∧ p.terminal = none ∧
      ((∃ stage, parseEvent σ value = some (.stage stage) ∧
        p' = ⟨p.events + 1, none, p.shown ++ [stage]⟩) ∨
      ∃ event, parseEvent σ value = some (.terminal event) ∧
        p' = ⟨p.events + 1, some event, p.shown⟩) := by
  obtain ⟨events, terminal, shown⟩ := p
  rw [line]
  dsimp only
  by_cases hbad : MAX_LINE < utf16_length value ∨ MAX_EVENTS < events + 1 ∨ terminal.isSome
  · rw [if_pos hbad]
    constructor
    · intro h
      cases h
    · rintro ⟨hlen, hevents, rfl, -⟩
      simp only [Option.isSome_none, Bool.false_eq_true, or_false] at hbad
      omega
  rw [if_neg hbad]
  simp only [not_or, not_lt, Option.not_isSome_iff_eq_none] at hbad
  obtain ⟨hlen, hevents, rfl⟩ := hbad
  rcases parseEvent σ value with _ | ⟨stage⟩ | ⟨event⟩
  · simp
  · simp [hlen, hevents, eq_comm]
  · simp [hlen, hevents, eq_comm]

theorem initial_short {p p' : Progress σ} {cs ys : List Char} (h : '\n' ∉ cs)
    (hp : (line_split (cs ++ ys)).1.foldlM line p = .ok p')
    (hrest : utf16_length (line_split (cs ++ ys)).2 ≤ MAX_LINE) : utf16_length cs ≤ MAX_LINE := by
  have hle : ∀ zs, utf16_length cs ≤ utf16_length (cs ++ zs) := by
    intro zs
    simp [utf16_length]
  rw [line_split_initial h] at hp hrest
  generalize line_split ys = parts at hp hrest
  obtain ⟨lines, rest⟩ := parts
  cases lines with
  | nil => exact (hle rest).trans hrest
  | cons first lines =>
    rw [List.foldlM_cons, bind_eq_ok] at hp
    obtain ⟨q, hq, -⟩ := hp
    exact (hle first).trans (line_iff.mp hq).1

/-- **Two chunks are read as one.** -/
theorem chunk_append {s s' : Reading σ} {as bs : List UInt8} {done : Bool} :
    chunk s (as ++ bs) done = .ok s' ↔ ∃ m, chunk s as false = .ok m ∧ chunk m bs done = .ok s' := by
  simp only [chunk_iff, TextDecoder.decode_append, Bool.not_false, List.length_append]
  constructor
  · rintro ⟨hb, hmax, text, htext, hp, hpending, hshort⟩
    simp only [Option.bind_eq_bind, Option.bind_eq_some_iff, Prod.exists, Option.pure_def,
      Option.some.injEq, Prod.mk.injEq] at htext
    obtain ⟨t, text₁, ht, t', text₂, ht', rfl, rfl⟩ := htext
    rw [← List.append_assoc, line_split_append] at hp hpending
    rw [List.foldlM_append, bind_eq_ok] at hp
    obtain ⟨q, hq, hp⟩ := hp
    refine ⟨⟨t, (line_split (s.pending ++ text₁)).2, s.bytes + as.length, q⟩,
      ⟨rfl, by dsimp only; omega, text₁, ht, hq, rfl, ?_⟩, by dsimp only; omega, hmax, text₂, ht', hp,
      hpending, hshort⟩
    exact initial_short (not_mem_rest _) hp (hpending ▸ hshort)
  · rintro ⟨m, ⟨hb, -, text₁, ht, hq, hm, -⟩, hb', hmax, text₂, ht', hp, hpending, hshort⟩
    rw [hm] at hp hpending
    refine ⟨by omega, hmax, text₁ ++ text₂, by simp [ht, ht'], ?_, ?_, hshort⟩
    · rw [← List.append_assoc, line_split_append, List.foldlM_append, hq]
      exact hp
    · rw [← List.append_assoc, line_split_append]
      exact hpending

/-- **The division into chunks does not matter.** -/
theorem chunks_iff {s s' : Reading σ} {chunks : List (List UInt8)} :
    (∃ m, chunks.foldlM (fun s value => chunk s value false) s = .ok m ∧
      chunk m [] true = .ok s') ↔ chunk s chunks.flatten true = .ok s' := by
  induction chunks generalizing s with
  | nil => simp [pure, Except.pure]
  | cons value chunks ih =>
    simp only [List.foldlM_cons, bind_eq_ok, List.flatten_cons, chunk_append, ← ih]
    constructor
    · rintro ⟨m, ⟨q, hq, hm⟩, hdone⟩
      exact ⟨q, hq, m, hm, hdone⟩
    · rintro ⟨q, hq, m, hm, hdone⟩
      exact ⟨m, ⟨q, hq, hm⟩, hdone⟩

/-! ## Lines -/

theorem lines_terminal {p p' : Progress σ} {values : List (List Char)} {event : Terminal σ}
    (hp : p.terminal = some event) (h : values.foldlM line p = .ok p') : values = [] ∧ p' = p := by
  cases values with
  | nil => exact ⟨rfl, (Except.ok.inj h).symm⟩
  | cons value values =>
    rw [List.foldlM_cons, bind_eq_ok] at h
    obtain ⟨q, hq, -⟩ := h
    have hnone := (line_iff.mp hq).2.2.1
    rw [hp] at hnone
    cases hnone

theorem lines_iff {p p' : Progress σ} {values : List (List Char)} {event : Terminal σ}
    (hp : p.terminal = none) :
    values.foldlM line p = .ok p' ∧ p'.terminal = some event ↔
      p.events + values.length ≤ MAX_EVENTS ∧ (∀ value ∈ values, utf16_length value ≤ MAX_LINE) ∧
      ∃ stages, values.map (parseEvent σ) =
          stages.map (fun stage => some (.stage stage)) ++ [some (.terminal event)] ∧
        p' = ⟨p.events + values.length, some event, p.shown ++ stages⟩ := by
  induction values generalizing p with
  | nil =>
    constructor
    · rintro ⟨h, hevent⟩
      obtain rfl := Except.ok.inj h
      rw [hp] at hevent
      cases hevent
    · rintro ⟨-, -, stages, h, -⟩
      simp at h
  | cons value values ih =>
    simp only [List.foldlM_cons, bind_eq_ok, List.forall_mem_cons, List.map_cons, List.length_cons]
    constructor
    · rintro ⟨⟨q, hq, hvalues⟩, hevent⟩
      obtain ⟨hlen, hle, -, ⟨stage, hparse, rfl⟩ | ⟨event', hparse, rfl⟩⟩ := line_iff.mp hq
      · obtain ⟨hle', hlens, stages, hmap, rfl⟩ := (ih rfl).mp ⟨hvalues, hevent⟩
        dsimp only at hle'
        refine ⟨by omega, ⟨hlen, hlens⟩, stage :: stages, by rw [hparse, hmap]; rfl, ?_⟩
        simp [Nat.add_assoc, Nat.add_comm 1]
      · obtain ⟨rfl, rfl⟩ := lines_terminal rfl hvalues
        obtain rfl := Option.some.inj hevent
        exact ⟨hle, ⟨hlen, by simp⟩, [], by simp [hparse], by simp⟩
    · rintro ⟨hle, ⟨hlen, hlens⟩, stages, hmap, rfl⟩
      refine ⟨?_, rfl⟩
      cases stages with
      | nil =>
        obtain ⟨hparse, hnil⟩ := List.cons.inj hmap
        obtain rfl := List.map_eq_nil_iff.mp hnil
        exact ⟨_, line_iff.mpr ⟨hlen, by simpa using hle, hp, .inr ⟨event, hparse, rfl⟩⟩,
          by simp [pure, Except.pure]⟩
      | cons stage stages =>
        obtain ⟨hparse, hmap⟩ := List.cons.inj hmap
        refine ⟨_, line_iff.mpr ⟨hlen, by omega, hp, .inl ⟨stage, hparse, rfl⟩⟩, ?_⟩
        refine ((ih rfl).mpr ⟨by dsimp only; omega, hlens, stages, hmap, ?_⟩).1
        simp [Nat.add_assoc, Nat.add_comm 1]

/-! ## The whole stream -/

theorem text_lines_foldlM {p p' : Progress σ} {text : List Char} :
    (text_lines text).foldlM line p = .ok p' ↔
      ∃ q, (line_split text).1.foldlM line p = .ok q ∧
        lastLine q (line_split text).2 = .ok p' := by
  rw [text_lines]
  by_cases hrest : (line_split text).2 = []
  · simp [hrest, lastLine]
  · simp [hrest, lastLine, List.foldlM_append, bind_eq_ok, pure, Except.pure]

theorem readLines_eq_ok {chunks : List (List UInt8)} {p : Progress σ} :
    readLines chunks = .ok p ↔ p.terminal ≠ none ∧ chunks.flatten.length ≤ MAX_STREAM ∧
      ∃ cs, chunks.flatten = encode cs ∧
        (text_lines (strip_bom cs)).foldlM line ⟨0, none, []⟩ = .ok p := by
  have hread : readLines chunks = .ok p ↔
      ∃ s, chunk Reading.start chunks.flatten true = .ok s ∧ p.terminal ≠ none ∧
        lastLine s.progress s.pending = .ok p := by
    simp only [readLines, bind_eq_ok, ← chunks_iff]
    constructor
    · rintro ⟨m, hm, s, hs, q, hq, hp⟩
      by_cases hnone : q.terminal = none
      · rw [hnone, Option.isNone_none, if_pos rfl] at hp
        cases hp
      rw [if_neg (by simpa using hnone)] at hp
      obtain rfl := Except.ok.inj hp
      exact ⟨s, ⟨m, hm, hs⟩, hnone, hq⟩
    · rintro ⟨s, ⟨m, hm, hs⟩, hterminal, hq⟩
      refine ⟨m, hm, s, hs, p, hq, ?_⟩
      rw [if_neg (by simpa using hterminal)]
      rfl
  rw [hread]
  simp only [chunk_iff, Reading.start, Bool.not_true, TextDecoder.decode_eq_some_iff,
    List.nil_append, Nat.zero_add, text_lines_foldlM]
  constructor
  · rintro ⟨s, ⟨hbytes, hmax, text, ⟨-, cs, hcs, rfl⟩, hp, hpending, -⟩, hterminal, hlast⟩
    exact ⟨hterminal, hbytes ▸ hmax, cs, hcs, s.progress, hp, hpending ▸ hlast⟩
  · rintro ⟨hterminal, hmax, cs, hcs, q, hq, hlast⟩
    refine ⟨⟨.new, (line_split (strip_bom cs)).2, chunks.flatten.length, q⟩,
      ⟨rfl, hmax, _, ⟨rfl, cs, hcs, rfl⟩, hq, rfl, ?_⟩, hterminal, hlast⟩
    by_cases hrest : (line_split (strip_bom cs)).2 = []
    · simp [hrest, utf16_length]
    · rw [lastLine, if_pos hrest] at hlast
      exact (line_iff.mp hlast).1

/-- **What is read to its last event is written in the format.** -/
theorem readLines_iff {chunks : List (List UInt8)} {stages : List BootstrapStage}
    {event : Terminal σ} :
    (∃ p : Progress σ, readLines chunks = .ok p ∧ p.terminal = some event ∧ p.shown = stages) ↔
      Written chunks.flatten stages event := by
  constructor
  · rintro ⟨p, hp, hevent, rfl⟩
    obtain ⟨-, hmax, cs, hcs, hlines⟩ := readLines_eq_ok.mp hp
    obtain ⟨hle, hlens, stages, hmap, rfl⟩ := (lines_iff rfl).mp ⟨hlines, hevent⟩
    exact ⟨cs, hcs, hmax, by simpa using hle, hlens, hmap⟩
  · rintro ⟨cs, hcs, hmax, hle, hlens, hmap⟩
    have hlines := (lines_iff (p := ⟨0, none, []⟩) rfl).mpr ⟨by simpa using hle, hlens, stages, hmap, rfl⟩
    exact ⟨_, readLines_eq_ok.mpr ⟨by simp, hmax, cs, hcs, hlines.1⟩, rfl, rfl⟩

/-- A stream is read the same way however it is divided into chunks: a status is returned exactly if
the bytes are written in the format and end with it, and the stages before it have been shown. -/
theorem readBootstrapStream_iff (chunks : List (List UInt8)) :
    (∀ (status : σ) stages, readBootstrapStream chunks = (.ok status, stages) ↔
      Written chunks.flatten stages (.complete status)) ∧
    ((∀ (status : σ) stages, ¬ Written chunks.flatten stages (.complete status)) →
      ∃ e : ApiError, (readBootstrapStream chunks : Except ApiError σ × List BootstrapStage).1 =
          .error e ∧
        (e.message = unknownBootstrapOutcome ∨ ∃ stages stage,
          Written chunks.flatten stages (.error stage e.message : Terminal σ))) := by
  simp only [← readLines_iff]
  unfold readBootstrapStream
  cases readLines (σ := σ) chunks with
  | error shown => simp
  | ok p =>
    obtain ⟨events, terminal, shown⟩ := p
    rcases terminal with _ | status | ⟨stage, message⟩
    · simp
    · simp
    · simp

end Gofro.Web
