import GofroRouter.Lib.Fallible
import GofroRouter.Relay.Codec
import Mathlib.Data.List.AList

/-!
# The relay server

`server.rs`: one loop receives the datagrams of all clients and forwards each on the socket of its
source's session; one thread for each session returns what arrives on that socket.

* `serve_round`: one round of the loop `serve`; `Worker.step`: one call of `return_packets`.
* `step`, `run`: rounds of the loop and calls of the threads in any order.
* `Worker.steps`, **`served`**: what a call of a thread and a round of the loop do.
-/

namespace Gofro.Relay

open Fallible (Op Ends ends_bind ends_get ends_modify)

def MAX_CLIENTS : ℕ := 256

/-- Durations are in nanoseconds. -/
def SECOND : ℕ := 10 ^ 9

/-- After three minutes a session is idle. -/
def CLIENT_IDLE : ℕ := 180 * SECOND

/-- How long a call of `recv` waits. -/
def RECEIVE_TIMEOUT : ℕ := 10 * SECOND

/-- How a call on a socket fails. -/
inductive IoError | would_block | timed_out | other
deriving DecidableEq

/-- A session of the table. Its socket is named by the place of its thread in `Server.workers`, where
the flag `worker_alive` is that both share. -/
structure Session where
  socket : ℕ
  last_seen : ℕ
deriving DecidableEq

/-- Where a thread is in `return_packets`: before `recv`, before the flag is read, before `send_to`,
or past the end, with the flag still to be cleared. -/
inductive Phase
  | recv
  | timed_out
  | received (plain : List UInt8)
  | sending (plain : List UInt8)
  | returned
  | exited
deriving DecidableEq

/-- The thread of a session. -/
structure Worker (Source : Type) where
  destination : Source
  /-- `worker_alive` -/
  alive : Bool
  phase : Phase
deriving DecidableEq

/-- What is sent. -/
inductive Output (Source : Type)
  /-- to WireGuard, from a client -/
  | forwarded (source : Source) (socket : ℕ) (plain : List UInt8)
  /-- to a client, from a session's socket -/
  | returned (socket : ℕ) (destination : Source) (packet : List UInt8)
deriving DecidableEq

/-- The arguments of `serve`. -/
structure Config where
  wireguard : String
  max_clients : ℕ
  idle : ℕ

/-- What `run` passes to it. -/
def arguments (wireguard : String) : Config := ⟨wireguard, MAX_CLIENTS, CLIENT_IDLE⟩

/-- The loop and the threads. -/
structure Server (Source : Type) where
  sessions : AList fun _ : Source => Session
  /-- one for each session that was ever created -/
  workers : List (Worker Source)
  last_cleanup : ℕ
  /-- what was sent so far -/
  log : List (Output Source)
  /-- the error that ended `serve` -/
  ended : Option String

/-- The call that failed in `Session::new`. -/
inductive NewError
  | bind
  | configure
  | connect
  | timeout
  | clone (error : String)
  | spawn
deriving DecidableEq

/-- The text of the error, which ends the loop. -/
def NewError.message (wireguard : String) : NewError → String
  | bind => "failed to bind relay session"
  | configure => "failed to configure relay session socket"
  | connect => "failed to connect to WireGuard at " ++ wireguard
  | timeout => "failed to configure relay session"
  | clone error => error
  | spawn => "failed to start relay session"

/-- What the calls of one round return, and the times that it reads. -/
structure Round (Source : Type) where
  received : Except IoError (List UInt8 × Source)
  now : ℕ
  cleaned : ℕ
  checked : Source → ℕ
  created : Except NewError ℕ
  seen : ℕ
  sent : Except IoError ℕ

/-- How `send` ends; a datagram that is cut counts as an error. -/
def Round.send {Source : Type} (round : Round Source) (plain : List UInt8) : Except String Unit :=
  match round.sent with
  | .error _ => .error "UDP send failed"
  | .ok n => if n = plain.length then .ok () else .error "partial UDP send"

/-- Seconds since the epoch, as 32 bits. -/
def unix_time (seconds : ℕ) : ℕ := min seconds (2 ^ 32 - 1)

/-- Seconds are compared, without their remainders. -/
def is_idle (last_seen idle seconds : ℕ) : Bool := idle / SECOND ≤ unix_time seconds - last_seen

/-- `plain` and `encoded`; their contents do not matter. -/
def buffer : List UInt8 := List.replicate BUFFER_SIZE 0

variable {Source : Type}

/-! ## The table -/

/-- A socket of a session that is not kept. -/
def Server.dropped (server : Server Source) (keep : Source → Session → Bool) (socket : ℕ) : Bool :=
  server.sessions.entries.any fun e => !keep e.1 e.2 && e.2.socket = socket

/-- Keep some sessions; the others are dropped, which clears their flags. -/
def Server.retain (server : Server Source) (keep : Source → Session → Bool) : Server Source :=
  { server with
    sessions := ⟨server.sessions.entries.filter fun e => keep e.1 e.2,
      server.sessions.nodupKeys.sublist List.filter_sublist⟩
    workers := server.workers.mapIdx fun socket worker =>
      if server.dropped keep socket then { worker with alive := false } else worker }

/-- Whether the thread of a session still runs. -/
def Server.alive (server : Server Source) (socket : ℕ) : Bool :=
  server.workers[socket]?.elim false Worker.alive

/-- The client of a socket. -/
def Server.owner (server : Server Source) (socket : ℕ) : Option Source :=
  server.workers[socket]?.map Worker.destination

/-- The sessions that are idle are dropped; the clock is read for each of them. -/
def remove_idle (server : Server Source) (idle : ℕ) (checked : Source → ℕ) : Server Source :=
  server.retain fun source session => !is_idle session.last_seen idle (checked source)

/-- The time of the last cleanup is the one after it. -/
def Server.cleanup (server : Server Source) (cfg : Config) (round : Round Source) : Server Source :=
  { remove_idle server cfg.idle round.checked with last_cleanup := round.cleaned }

/-- The table when a datagram has been received. -/
def Server.swept (server : Server Source) (cfg : Config) (round : Round Source) : Server Source :=
  if RECEIVE_TIMEOUT ≤ round.now - server.last_cleanup then server.cleanup cfg round else server

section

variable [DecidableEq Source]

/-- The session of a source is dropped if its thread is not alive. -/
def Server.drop_dead (server : Server Source) (source : Source) : Server Source :=
  match server.sessions.lookup source with
  | some session =>
    if server.alive session.socket then server else server.retain fun s _ => s ≠ source
  | none => server

/-- A session and its thread. -/
def Server.open (server : Server Source) (source : Source) (seconds : ℕ) : Server Source :=
  { server with
    sessions := server.sessions.insert source ⟨server.workers.length, unix_time seconds⟩
    workers := server.workers ++ [⟨source, true, .recv⟩] }

/-- The session of a source; at capacity there is none for a newcomer. -/
def get_or_create_session (cfg : Config) (round : Round Source) (source : Source) :
    Op (Server Source) String (Option Session) := do
  modify (·.drop_dead source)
  let server ← get
  match server.sessions.lookup source with
  | some session => return some session
  | none =>
    if cfg.max_clients ≤ server.sessions.keys.length then return none
    else match round.created with
      | .error e => throw (e.message cfg.wireguard)
      | .ok seconds =>
        set (server.open source seconds)
        return some ⟨server.workers.length, unix_time seconds⟩

/-! ## The loop -/

/-- `recv_from_many` of `batch.rs`: one datagram, cut at the buffer's end. -/
def recv_from_many (received : Except IoError (List UInt8 × Source)) :
    Except IoError (List (List UInt8 × Option Source)) :=
  received.map fun p => [(p.1.take BUFFER_SIZE, some p.2)]

/-- `last_seen.store` and the call of `send`. -/
def Server.forward (server : Server Source) (source : Source) (session : Session) (seconds : ℕ)
    (plain : List UInt8) : Server Source :=
  { server with
    sessions := server.sessions.insert source { session with last_seen := unix_time seconds }
    log := server.log ++ [.forwarded source session.socket plain] }

/-- One datagram of a batch. -/
def handle (cfg : Config) (round : Round Source) (encoded : List UInt8) (source : Option Source) :
    Op (Server Source) String Unit :=
  match (decode encoded buffer).1, source with
  | none, _ => pure ()
  | some _, none => throw "UDP source address missing"
  | some plain, some source => do
    match ← get_or_create_session cfg round source with
    | none => pure ()
    | some session =>
      modify (·.forward source session round.seen plain)
      match round.send plain with
      | .error e => throw e
      | .ok () => pure ()

/-- One round of the loop. -/
def serve_round (cfg : Config) (round : Round Source) : Op (Server Source) String Unit :=
  match recv_from_many round.received with
  | .error .would_block => modify (·.cleanup cfg round)
  | .error .timed_out => modify (·.cleanup cfg round)
  | .error .other => throw "UDP receive failed"
  | .ok batch => do
    modify (·.swept cfg round)
    batch.forM fun p => handle cfg round p.1 p.2

/-! ## The threads -/

/-- What a call in `return_packets` returns; `store` is made by the thread after it. -/
inductive Call
  | recv (result : Except IoError (List UInt8))
  | load
  | send (seed : UInt64) (result : Except IoError ℕ)
  | store
deriving DecidableEq

/-- The next call of a thread; other calls do not happen. -/
def Worker.step (worker : Worker Source) (socket : ℕ) (call : Call) :
    Worker Source × List (Output Source) :=
  match worker.phase, call with
  | .recv, .recv (.ok plain) => ({ worker with phase := .received (plain.take BUFFER_SIZE) }, [])
  | .recv, .recv (.error .would_block) => ({ worker with phase := .timed_out }, [])
  | .recv, .recv (.error .timed_out) => ({ worker with phase := .timed_out }, [])
  | .recv, .recv (.error .other) => ({ worker with phase := .returned }, [])
  | .timed_out, .load =>
    ({ worker with phase := if worker.alive then .recv else .returned }, [])
  | .received plain, .load =>
    ({ worker with phase := if worker.alive then .sending plain else .returned }, [])
  | .sending plain, .send seed result =>
    match (encode seed plain buffer).1 with
    | .error _ => ({ worker with phase := .returned }, [])
    | .ok packet =>
      ({ worker with phase := match result with
          | .ok n => if n = packet.length then .recv else .returned
          | .error _ => .returned },
        [.returned socket worker.destination packet])
  | .returned, .store => ({ worker with alive := false, phase := .exited }, [])
  | _, _ => (worker, [])

/-! ## Runs -/

/-- A round of the loop, or a call of a thread. -/
inductive Event (Source : Type)
  | serve (round : Round Source)
  | worker (socket : ℕ) (call : Call)

/-- The table is dropped when `serve` returns. -/
def Server.finish (server : Server Source) (error : String) : Server Source :=
  { server.retain fun _ _ => false with ended := some error }

/-- After the loop has ended, only threads go on. -/
def step (cfg : Config) (server : Server Source) : Event Source → Server Source
  | .serve round =>
    if server.ended.isSome then server
    else match (serve_round cfg round).exec server with
      | (.ok (), after) => after
      | (.error error, after) => after.finish error
  | .worker socket call =>
    match server.workers[socket]? with
    | none => server
    | some worker =>
      { server with
        workers := server.workers.set socket (worker.step socket call).1
        log := server.log ++ (worker.step socket call).2 }

def init : Server Source := ⟨∅, [], 0, [], none⟩

def run (cfg : Config) (events : List (Event Source)) : Server Source :=
  events.foldl (step cfg) init

end

variable {cfg : Config} {server : Server Source} {source other : Source} {session : Session}
  {keep : Source → Session → Bool} {socket : ℕ} {events events' : List (Event Source)}
  {after : Server Source} {round : Round Source}

/-! ## What is kept of the table -/

theorem length_retain :
    (server.retain keep).sessions.keys.length ≤ server.sessions.keys.length := by
  simp only [AList.keys, List.keys, List.length_map]
  exact List.length_filter_le _ _

/-- The flags of the sessions that are dropped are cleared, and no others. -/
theorem workers_retain : (server.retain keep).workers[socket]? = server.workers[socket]?.map fun w =>
    if server.dropped keep socket then { w with alive := false } else w :=
  List.getElem?_mapIdx

@[simp] theorem owner_retain : (server.retain keep).owner socket = server.owner socket := by
  rw [Server.owner, Server.owner, workers_retain, Option.map_map]
  congr 1
  funext w
  rw [Function.comp_apply]
  split_ifs <;> rfl

theorem workers_length_retain : (server.retain keep).workers.length = server.workers.length :=
  List.length_mapIdx

theorem alive_retain (ha : server.alive socket = false) :
    (server.retain keep).alive socket = false := by
  rw [Server.alive, workers_retain]
  rw [Server.alive] at ha
  cases hw : server.workers[socket]? with
  | none => rfl
  | some w =>
    rw [hw] at ha
    rw [Option.map_some]
    split_ifs
    · rfl
    · exact ha

theorem swept_log : (server.swept cfg round).log = server.log := by
  unfold Server.swept
  split_ifs <;> rfl

theorem workers_set {w v : Worker Source} (hw : server.workers[socket]? = some w) (k : ℕ) :
    (server.workers.set socket v)[k]? = if k = socket then some v else server.workers[k]? := by
  have hlt : socket < server.workers.length := (List.getElem?_eq_some_iff.mp hw).1
  rw [List.getElem?_set]
  by_cases hk : k = socket
  · rw [if_pos hk, if_pos hk.symm, if_pos hlt]
  · rw [if_neg hk, if_neg (Ne.symm hk)]

/-! ## The threads, call by call -/

/-- The plaintext that a thread holds. -/
def Phase.plain : Phase → Option (List UInt8)
  | .received plain => some plain
  | .sending plain => some plain
  | _ => none

/-- A thread received `plain` on its socket. -/
def Received (events : List (Event Source)) (socket : ℕ) (plain : List UInt8) : Prop :=
  ∃ bytes, .worker socket (.recv (.ok bytes)) ∈ events ∧ plain = bytes.take BUFFER_SIZE

theorem Received.mono (hs : events ⊆ events') {plain : List UInt8}
    (h : Received events socket plain) : Received events' socket plain := by
  obtain ⟨bytes, hmem, he⟩ := h
  exact ⟨bytes, hs hmem, he⟩

/-- What is sent was received: from the same client, or on the socket of that client. -/
def Justified (events : List (Event Source)) (server : Server Source) : Output Source → Prop
  | .forwarded source socket plain => server.owner socket = some source ∧
    ∃ round packet, .serve round ∈ events ∧ round.received = .ok (packet, source) ∧
      (decode (packet.take BUFFER_SIZE) buffer).1 = some plain
  | .returned socket destination packet => server.owner socket = some destination ∧
    ∃ plain seed, Received events socket plain ∧ (encode seed plain buffer).1 = .ok packet

theorem Justified.mono (hs : events ⊆ events')
    (ho : ∀ socket source, server.owner socket = some source → after.owner socket = some source)
    {entry : Output Source} (h : Justified events server entry) : Justified events' after entry := by
  cases entry with
  | forwarded source socket plain =>
    obtain ⟨howner, round, packet, hmem, hreceived, hdecode⟩ := h
    exact ⟨ho _ _ howner, round, packet, hs hmem, hreceived, hdecode⟩
  | returned socket destination packet =>
    obtain ⟨howner, plain, seed, hplain, hencode⟩ := h
    exact ⟨ho _ _ howner, plain, seed, hplain.mono hs, hencode⟩

/-- What a call of a thread does. -/
structure Worker.Steps (events : List (Event Source)) (socket : ℕ) (w v : Worker Source)
    (out : List (Output Source)) : Prop where
  destination : v.destination = w.destination
  alive : v.alive = true → w.alive = true
  dead : (w.alive = false → w.phase = .exited) → v.alive = false → v.phase = .exited
  exited : (w.phase = .exited → w.alive = false) → v.phase = .exited → v.alive = false
  received : ∀ plain, v.phase.plain = some plain →
    Received events socket plain ∨ w.phase.plain = some plain
  out : ∀ entry ∈ out, ∃ plain seed packet, w.phase.plain = some plain ∧
    (encode seed plain buffer).1 = .ok packet ∧ entry = .returned socket w.destination packet

theorem Worker.Steps.move {w : Worker Source} {phase : Phase} {out : List (Output Source)}
    (hw : w.phase ≠ .exited) (hp : phase ≠ .exited)
    (hreceived : ∀ plain, phase.plain = some plain →
      Received events socket plain ∨ w.phase.plain = some plain)
    (hout : ∀ entry ∈ out, ∃ plain seed packet, w.phase.plain = some plain ∧
      (encode seed plain buffer).1 = .ok packet ∧ entry = .returned socket w.destination packet) :
    Worker.Steps events socket w { w with phase } out where
  destination := rfl
  alive ha := ha
  dead hdead ha := absurd (hdead ha) hw
  exited _ he := absurd he hp
  received := hreceived
  out := hout

theorem Worker.steps {w : Worker Source} {call : Call} (h : .worker socket call ∈ events) :
    Worker.Steps events socket w (w.step socket call).1 (w.step socket call).2 := by
  have hquiet : ∀ {phase : Phase}, w.phase ≠ .exited → phase ≠ .exited → phase.plain = none →
      Worker.Steps events socket w { w with phase } [] := by
    intro phase hw hp hnone
    exact .move hw hp (fun plain he => by rw [hnone] at he; cases he) fun _ he => nomatch he
  unfold Worker.step
  split
  · next bytes hphase =>
    refine .move (by rw [hphase]; exact nofun) nofun (fun plain he => .inl ⟨bytes, h, ?_⟩)
      fun _ he => nomatch he
    exact (Option.some.inj he).symm
  · next hphase => exact hquiet (by rw [hphase]; exact nofun) nofun rfl
  · next hphase => exact hquiet (by rw [hphase]; exact nofun) nofun rfl
  · next hphase => exact hquiet (by rw [hphase]; exact nofun) nofun rfl
  · next hphase =>
    refine hquiet (by rw [hphase]; exact nofun) ?_ ?_
    · split_ifs <;> exact nofun
    · split_ifs <;> rfl
  · next plain hphase =>
    split_ifs
    · refine .move (by rw [hphase]; exact nofun) nofun (fun plain' he => .inr ?_)
        fun _ he => nomatch he
      rw [hphase]
      exact he
    · exact hquiet (by rw [hphase]; exact nofun) nofun rfl
  · next plain seed result hphase =>
    split
    · exact hquiet (by rw [hphase]; exact nofun) nofun rfl
    · next packet hencode =>
      refine .move (by rw [hphase]; exact nofun) ?_ ?_ ?_
      · cases result with
        | ok n => dsimp only; split_ifs <;> exact nofun
        | error e => exact nofun
      · intro plain' he
        cases result with
        | ok n => dsimp only at he; split_ifs at he <;> cases he
        | error e => cases he
      · intro entry he
        exact ⟨plain, seed, packet, by rw [hphase]; rfl, hencode, List.mem_singleton.mp he⟩
  · exact ⟨rfl, fun ha => Bool.noConfusion ha, fun _ _ => rfl, fun _ _ => rfl,
      fun _ he => (nomatch he), fun _ he => (nomatch he)⟩
  · exact ⟨rfl, fun ha => ha, fun hd ha => hd ha, fun hd he => hd he, fun _ he => .inr he,
      fun _ he => (nomatch he)⟩

variable [DecidableEq Source]

/-! ## A round of the loop -/

theorem lookup_retain : (server.retain keep).sessions.lookup source = some session ↔
    server.sessions.lookup source = some session ∧ keep source session = true := by
  rw [← Option.mem_def, ← Option.mem_def, AList.mem_lookup_iff, AList.mem_lookup_iff]
  exact List.mem_filter

theorem dropped_iff : server.dropped keep socket = true ↔ ∃ source session,
    server.sessions.lookup source = some session ∧ keep source session = false ∧
      session.socket = socket := by
  simp only [Server.dropped, List.any_eq_true, Bool.and_eq_true, Bool.not_eq_true',
    decide_eq_true_eq]
  constructor
  · rintro ⟨e, he, hkeep, hs⟩
    exact ⟨e.1, e.2, AList.mem_lookup_iff.mpr he, hkeep, hs⟩
  · rintro ⟨source, session, hl, hkeep, hs⟩
    exact ⟨⟨source, session⟩, AList.mem_lookup_iff.mp hl, hkeep, hs⟩

/-- What is done with a datagram. -/
inductive Handled (cfg : Config) (round : Round Source) (server : Server Source)
    (packet : List UInt8) (source : Source) : Except String Unit → Server Source → Prop
  | refused (hdecode : (decode (packet.take BUFFER_SIZE) buffer).1 = none) :
    Handled cfg round server packet source (.ok ()) server
  | limited {plain : List UInt8} (hdecode : (decode (packet.take BUFFER_SIZE) buffer).1 = some plain)
    (hlookup : (server.drop_dead source).sessions.lookup source = none)
    (hfull : cfg.max_clients ≤ (server.drop_dead source).sessions.keys.length) :
    Handled cfg round server packet source (.ok ()) (server.drop_dead source)
  | uncreated {plain : List UInt8} {e : NewError}
    (hdecode : (decode (packet.take BUFFER_SIZE) buffer).1 = some plain)
    (hlookup : (server.drop_dead source).sessions.lookup source = none)
    (hroom : (server.drop_dead source).sessions.keys.length < cfg.max_clients)
    (hcreated : round.created = .error e) :
    Handled cfg round server packet source (.error (e.message cfg.wireguard))
      (server.drop_dead source)
  | existing {plain : List UInt8} {session : Session}
    (hdecode : (decode (packet.take BUFFER_SIZE) buffer).1 = some plain)
    (hlookup : (server.drop_dead source).sessions.lookup source = some session) :
    Handled cfg round server packet source (round.send plain)
      ((server.drop_dead source).forward source session round.seen plain)
  | created {plain : List UInt8} {seconds : ℕ}
    (hdecode : (decode (packet.take BUFFER_SIZE) buffer).1 = some plain)
    (hlookup : (server.drop_dead source).sessions.lookup source = none)
    (hroom : (server.drop_dead source).sessions.keys.length < cfg.max_clients)
    (hcreated : round.created = .ok seconds) :
    Handled cfg round server packet source (round.send plain)
      (((server.drop_dead source).open source seconds).forward source
        ⟨(server.drop_dead source).workers.length, unix_time seconds⟩ round.seen plain)

/-- What a round of the loop does. -/
inductive Served (cfg : Config) (round : Round Source) (server : Server Source) :
    Except String Unit → Server Source → Prop
  | waited (hreceived : round.received = .error .would_block ∨ round.received = .error .timed_out) :
    Served cfg round server (.ok ()) (server.cleanup cfg round)
  | broken (hreceived : round.received = .error .other) :
    Served cfg round server (.error "UDP receive failed") server
  | handled {packet : List UInt8} {source : Source} {result : Except String Unit}
    {after : Server Source} (hreceived : round.received = .ok (packet, source))
    (h : Handled cfg round (server.swept cfg round) packet source result after) :
    Served cfg round server result after

theorem ends_handle (round : Round Source) (packet : List UInt8) :
    Ends (handle cfg round (packet.take BUFFER_SIZE) (some source))
      (fun _ s => Handled cfg round server packet source (.ok ()) s)
      (fun e s => Handled cfg round server packet source (.error e) s) server := by
  unfold handle
  cases hdecode : (decode (packet.take BUFFER_SIZE) buffer).1 with
  | none => exact .refused hdecode
  | some plain =>
    refine ends_bind.mpr (ends_bind.mpr (ends_modify.mpr (ends_bind.mpr (ends_get.mpr ?_))))
    have hsend : ∀ session s, Handled cfg round server packet source (round.send plain)
        (s.forward source session round.seen plain) →
        Ends (do
            modify (·.forward source session round.seen plain)
            match round.send plain with
            | .error e => throw e
            | .ok () => pure () : Op (Server Source) String Unit)
          (fun _ s => Handled cfg round server packet source (.ok ()) s)
          (fun e s => Handled cfg round server packet source (.error e) s) s := by
      intro session s h
      refine ends_bind.mpr (ends_modify.mpr ?_)
      revert h
      cases round.send plain with
      | error e => exact fun h => h
      | ok u => exact fun h => h
    cases hlookup : (server.drop_dead source).sessions.lookup source with
    | some session => exact hsend session _ (.existing hdecode hlookup)
    | none =>
      dsimp only
      split_ifs with hfull
      · exact .limited hdecode hlookup hfull
      · cases hcreated : round.created with
        | error e => exact .uncreated hdecode hlookup (not_le.mp hfull) hcreated
        | ok seconds => exact hsend _ _ (.created hdecode hlookup (not_le.mp hfull) hcreated)

theorem ends_serve (round : Round Source) : Ends (serve_round cfg round)
    (fun _ s => Served cfg round server (.ok ()) s) (fun e s => Served cfg round server (.error e) s)
    server := by
  unfold serve_round recv_from_many
  cases hreceived : round.received with
  | error e =>
    cases e with
    | would_block => exact .waited (.inl hreceived)
    | timed_out => exact .waited (.inr hreceived)
    | other => exact .broken hreceived
  | ok p =>
    refine ends_bind.mpr (ends_modify.mpr (ends_bind.mpr ?_))
    exact (ends_handle round p.1).mono (fun _ _ h => .handled hreceived h)
      fun _ _ h => .handled hreceived h

theorem served (round : Round Source) : Served cfg round server
    ((serve_round cfg round).exec server).1 ((serve_round cfg round).exec server).2 := by
  have h : Ends (serve_round cfg round) _ _ server := ends_serve round
  cases he : (serve_round cfg round).exec server with
  | mk r s =>
    cases r with
    | ok u => exact h.ok he
    | error e => exact h.error he

end Gofro.Relay
