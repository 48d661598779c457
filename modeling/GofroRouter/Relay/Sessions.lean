import GofroRouter.Relay.Server

/-!
# The sessions of the relay server

* `Inv`: the sessions of the table and the threads belong together.
* `Inv.served`, `Inv.work`, **`run_inv`**: rounds, calls and runs keep the invariant.
* `Handled.same`: a datagram leaves the sessions of other clients as they are.
* **`sessions_isolated`**: no client sees the traffic of another one.
-/

namespace Gofro.Relay

variable {Source : Type} [DecidableEq Source] {cfg : Config} {server after : Server Source}
  {source other : Source} {session : Session} {keep : Source → Session → Bool} {socket : ℕ}
  {events events' : List (Event Source)} {round : Round Source}

/-! ## The invariant -/

/-- The table and the threads. -/
structure Inv (cfg : Config) (events : List (Event Source)) (server : Server Source) : Prop where
  capacity : server.sessions.keys.length ≤ cfg.max_clients
  /-- the thread of a session returns to its source, and is alive until it exits -/
  session : ∀ (source : Source) (session : Session), server.sessions.lookup source = some session →
    ∃ w : Worker Source, server.workers[session.socket]? = some w ∧ w.destination = source ∧
      (w.alive = false → w.phase = .exited)
  /-- a thread that is alive has a session in the table -/
  alive : ∀ (socket : ℕ) (w : Worker Source), server.workers[socket]? = some w → w.alive = true →
    ∃ session, server.sessions.lookup w.destination = some session ∧ session.socket = socket
  exited : ∀ (socket : ℕ) (w : Worker Source), server.workers[socket]? = some w →
    w.phase = .exited → w.alive = false
  received : ∀ (socket : ℕ) (w : Worker Source) (plain : List UInt8),
    server.workers[socket]? = some w → w.phase.plain = some plain → Received events socket plain
  log : ∀ entry ∈ server.log, Justified events server entry

theorem Inv.mono (h : Inv cfg events server) (hs : events ⊆ events') : Inv cfg events' server where
  capacity := h.capacity
  session := h.session
  alive := h.alive
  exited := h.exited
  received socket w plain hw hp := (h.received socket w plain hw hp).mono hs
  log entry he := (h.log entry he).mono hs fun _ _ ho => ho

theorem Inv.owner (h : Inv cfg events server) (hl : server.sessions.lookup source = some session) :
    server.owner session.socket = some source := by
  obtain ⟨w, hw, hd, -⟩ := h.session source session hl
  rw [Server.owner, hw, Option.map_some, hd]

theorem Inv.socket_inj (h : Inv cfg events server) {session' : Session}
    (hl : server.sessions.lookup source = some session)
    (hl' : server.sessions.lookup other = some session') (he : session.socket = session'.socket) :
    source = other := by
  have ho := h.owner hl
  rw [he, h.owner hl'] at ho
  exact (Option.some.inj ho).symm

theorem Inv.not_dropped (h : Inv cfg events server)
    (hl : server.sessions.lookup source = some session) (hk : keep source session = true) :
    server.dropped keep session.socket = false := by
  by_contra hd
  obtain ⟨source', session', hl', hk', he⟩ := dropped_iff.mp (Bool.not_eq_false _ ▸ hd)
  obtain rfl := h.socket_inj hl hl' he.symm
  rw [hl] at hl'
  obtain rfl := Option.some.inj hl'
  rw [hk] at hk'
  exact Bool.noConfusion hk'

theorem Inv.retain (h : Inv cfg events server) (keep : Source → Session → Bool) :
    Inv cfg events (server.retain keep) := by
  have hworker : ∀ socket w, (server.retain keep).workers[socket]? = some w →
      ∃ v, server.workers[socket]? = some v ∧ w.destination = v.destination ∧ w.phase = v.phase ∧
        (w.alive = true → v.alive = true ∧ server.dropped keep socket = false) ∧
        (w.alive = false → v.alive = false ∨ server.dropped keep socket = true) := by
    intro socket w hw
    rw [workers_retain] at hw
    obtain ⟨v, hv, rfl⟩ := Option.map_eq_some_iff.mp hw
    refine ⟨v, hv, ?_⟩
    cases hd : server.dropped keep socket with
    | true => exact ⟨rfl, rfl, fun h => Bool.noConfusion h, fun _ => .inr rfl⟩
    | false => exact ⟨rfl, rfl, fun h => ⟨h, rfl⟩, fun h => .inl h⟩
  refine ⟨length_retain.trans h.capacity, ?_, ?_, ?_, ?_, ?_⟩
  · intro source session hl
    obtain ⟨hl, hk⟩ := lookup_retain.mp hl
    obtain ⟨w, hw, hd, ha⟩ := h.session source session hl
    refine ⟨w, ?_, hd, ha⟩
    rw [workers_retain, hw, h.not_dropped hl hk]
    rfl
  · intro socket w hw ha
    obtain ⟨v, hv, hd, -, hlive, -⟩ := hworker socket w hw
    obtain ⟨session, hl, hs⟩ := h.alive socket v hv (hlive ha).1
    refine ⟨session, lookup_retain.mpr ⟨hd ▸ hl, ?_⟩, hs⟩
    by_contra hk
    have := dropped_iff.mpr ⟨v.destination, session, hl, by simpa [hd] using hk, hs⟩
    rw [(hlive ha).2] at this
    exact Bool.noConfusion this
  · intro socket w hw hp
    obtain ⟨v, hv, -, hphase, hlive, -⟩ := hworker socket w hw
    by_contra ha
    have := h.exited socket v hv (hphase ▸ hp)
    rw [(hlive (Bool.not_eq_false _ ▸ ha)).1] at this
    exact Bool.noConfusion this
  · intro socket w plain hw hp
    obtain ⟨v, hv, -, hphase, -, -⟩ := hworker socket w hw
    exact h.received socket v plain hv (hphase ▸ hp)
  · intro entry he
    exact (h.log entry he).mono (fun _ h => h) fun _ _ ho => owner_retain.trans ho

theorem workers_open (seconds : ℕ) : (server.open source seconds).workers[socket]? =
    if socket = server.workers.length then some ⟨source, true, .recv⟩
    else server.workers[socket]? := by
  split_ifs with hs
  · rw [hs]
    exact List.getElem?_concat_length
  · by_cases hlt : socket < server.workers.length
    · exact List.getElem?_append_left hlt
    · have hlen : (server.workers ++ [(⟨source, true, .recv⟩ : Worker Source)]).length ≤ socket := by
        rw [List.length_append, List.length_singleton]
        omega
      exact (List.getElem?_eq_none hlen).trans (List.getElem?_eq_none (not_lt.mp hlt)).symm

theorem owner_open {seconds : ℕ} (h : server.owner socket = some other) :
    (server.open source seconds).owner socket = some other := by
  obtain ⟨w, hw, hd⟩ := Option.map_eq_some_iff.mp h
  have hlt : socket < server.workers.length := (List.getElem?_eq_some_iff.mp hw).1
  rw [Server.owner, workers_open, if_neg hlt.ne, hw, Option.map_some, hd]

theorem Inv.open (h : Inv cfg events server) (hl : server.sessions.lookup source = none)
    (hroom : server.sessions.keys.length < cfg.max_clients) (seconds : ℕ) :
    Inv cfg events (server.open source seconds) := by
  have hkey : source ∉ server.sessions.keys := fun hmem =>
    AList.lookup_eq_none.mp hl (AList.mem_keys.mpr hmem)
  have hne : ∀ {other session}, server.sessions.lookup other = some session → other ≠ source := by
    rintro other session hother rfl
    rw [hl] at hother
    cases hother
  have hlt : ∀ {k w}, server.workers[k]? = some w → k ≠ server.workers.length := fun hw =>
    (List.getElem?_eq_some_iff.mp hw).1.ne
  refine ⟨?_, ?_, ?_, ?_, ?_, ?_⟩
  · rw [Server.open, AList.keys_insert, List.length_cons, List.erase_of_not_mem hkey]
    exact hroom
  · intro other session hother
    by_cases ho : other = source
    · subst ho
      obtain rfl := Option.some.inj ((AList.lookup_insert _).symm.trans hother)
      exact ⟨_, (workers_open _).trans (if_pos rfl), rfl, fun ha => Bool.noConfusion ha⟩
    · have hother : server.sessions.lookup other = some session :=
        (AList.lookup_insert_ne ho).symm.trans hother
      obtain ⟨w, hw, hd, ha⟩ := h.session other session hother
      exact ⟨w, (workers_open _).trans ((if_neg (hlt hw)).trans hw), hd, ha⟩
  · intro socket w hw ha
    rw [workers_open] at hw
    split_ifs at hw with hs
    · cases hw
      exact ⟨_, AList.lookup_insert _, hs.symm⟩
    · obtain ⟨session, hother, hsocket⟩ := h.alive socket w hw ha
      exact ⟨session, (AList.lookup_insert_ne (hne hother)).trans hother, hsocket⟩
  · intro socket w hw hp
    rw [workers_open] at hw
    split_ifs at hw
    · cases hw
      cases hp
    · exact h.exited socket w hw hp
  · intro socket w plain hw hp
    rw [workers_open] at hw
    split_ifs at hw
    · cases hw
      cases hp
    · exact h.received socket w plain hw hp
  · exact fun entry he => (h.log entry he).mono (fun _ h => h) fun _ _ ho => owner_open ho

theorem lookup_forward {seconds : ℕ} {plain : List UInt8} :
    (server.forward source session seconds plain).sessions.lookup other =
      if other = source then some { session with last_seen := unix_time seconds }
      else server.sessions.lookup other := by
  split_ifs with ho
  · rw [ho]
    exact AList.lookup_insert _
  · exact AList.lookup_insert_ne ho

theorem Inv.forward (h : Inv cfg events server) (hl : server.sessions.lookup source = some session)
    {plain : List UInt8} (hj : Justified events server (.forwarded source session.socket plain))
    (seconds : ℕ) : Inv cfg events (server.forward source session seconds plain) := by
  refine ⟨?_, ?_, ?_, h.exited, h.received, ?_⟩
  · have hkey : source ∈ server.sessions.keys := by
      rw [← AList.mem_keys, ← AList.lookup_isSome, hl]
      rfl
    have hpos := List.length_pos_of_mem hkey
    have hcap := h.capacity
    rw [Server.forward, AList.keys_insert, List.length_cons, List.length_erase_of_mem hkey]
    omega
  · intro other session' hother
    rw [lookup_forward] at hother
    split_ifs at hother with ho
    · cases hother
      exact ho ▸ h.session source session hl
    · exact h.session other session' hother
  · intro socket w hw ha
    obtain ⟨session', hother, hs⟩ := h.alive socket w hw ha
    by_cases ho : w.destination = source
    · rw [ho, hl] at hother
      cases hother
      exact ⟨_, lookup_forward.trans (if_pos ho), hs⟩
    · exact ⟨session', lookup_forward.trans ((if_neg ho).trans hother), hs⟩
  · intro entry he
    rcases List.mem_append.mp he with he | he
    · exact h.log entry he
    · exact List.mem_singleton.mp he ▸ hj

/-! ## One step -/

theorem Inv.drop_dead (h : Inv cfg events server) (source : Source) :
    Inv cfg events (server.drop_dead source) := by
  unfold Server.drop_dead
  split
  · split_ifs
    · exact h
    · exact h.retain _
  · exact h

theorem Inv.cleanup (h : Inv cfg events server) : Inv cfg events (server.cleanup cfg round) := by
  have hr := h.retain fun source session =>
    !is_idle session.last_seen cfg.idle (round.checked source)
  exact ⟨hr.capacity, hr.session, hr.alive, hr.exited, hr.received, hr.log⟩

theorem Inv.swept (h : Inv cfg events server) : Inv cfg events (server.swept cfg round) := by
  unfold Server.swept
  split_ifs
  · exact h.cleanup
  · exact h

theorem Inv.handled {packet : List UInt8} {result : Except String Unit}
    (h : Inv cfg events server) (hround : .serve round ∈ events)
    (hreceived : round.received = .ok (packet, source))
    (hs : Handled cfg round server packet source result after) : Inv cfg events after := by
  have hdrop := h.drop_dead source
  cases hs with
  | refused hdecode => exact h
  | limited hdecode hlookup hfull => exact hdrop
  | uncreated hdecode hlookup hroom hcreated => exact hdrop
  | existing hdecode hlookup =>
    exact hdrop.forward hlookup
      ⟨hdrop.owner hlookup, round, packet, hround, hreceived, hdecode⟩ _
  | @created plain seconds hdecode hlookup hroom hcreated =>
    have ho := hdrop.open hlookup hroom seconds
    have hl : ((server.drop_dead source).open source seconds).sessions.lookup source =
        some ⟨_, unix_time seconds⟩ := AList.lookup_insert _
    exact ho.forward hl ⟨ho.owner hl, round, packet, hround, hreceived, hdecode⟩ _

theorem Inv.served {result : Except String Unit} (h : Inv cfg events server)
    (hround : .serve round ∈ events) (hs : Served cfg round server result after) :
    Inv cfg events after := by
  cases hs with
  | waited hreceived => exact h.cleanup
  | broken hreceived => exact h
  | handled hreceived hs => exact h.swept.handled hround hreceived hs

theorem Inv.work (h : Inv cfg events server) {w : Worker Source} {call : Call}
    (hcall : .worker socket call ∈ events) (hw : server.workers[socket]? = some w) :
    Inv cfg events { server with
      workers := server.workers.set socket (w.step socket call).1
      log := server.log ++ (w.step socket call).2 } := by
  have hs : Worker.Steps events socket w (w.step socket call).1 (w.step socket call).2 :=
    Worker.steps hcall
  generalize w.step socket call = p at hs
  obtain ⟨v, out⟩ := p
  have howner : ∀ k source, server.owner k = some source →
      ((server.workers.set socket v)[k]?).map Worker.destination = some source := by
    intro k source ho
    rw [workers_set hw]
    split_ifs with hk
    · rw [Server.owner, hk, hw, Option.map_some] at ho
      rw [Option.map_some, hs.destination]
      exact ho
    · exact ho
  refine ⟨h.capacity, ?_, ?_, ?_, ?_, ?_⟩
  · intro source session hl
    obtain ⟨u, hu, hd, ha⟩ := h.session source session hl
    by_cases hk : session.socket = socket
    · rw [hk, hw] at hu
      obtain rfl := Option.some.inj hu
      exact ⟨v, (workers_set hw _).trans (if_pos hk), hs.destination.trans hd, hs.dead ha⟩
    · exact ⟨u, (workers_set hw _).trans ((if_neg hk).trans hu), hd, ha⟩
  · intro k u hu ha
    rw [workers_set hw] at hu
    split_ifs at hu with hk
    · cases hu
      rw [hk, hs.destination]
      exact h.alive socket w hw (hs.alive ha)
    · exact h.alive k u hu ha
  · intro k u hu hp
    rw [workers_set hw] at hu
    split_ifs at hu with hk
    · cases hu
      exact hs.exited (h.exited socket w hw) hp
    · exact h.exited k u hu hp
  · intro k u plain hu hp
    rw [workers_set hw] at hu
    split_ifs at hu with hk
    · cases hu
      rw [hk]
      exact (hs.received plain hp).elim id (h.received socket w plain hw)
    · exact h.received k u plain hu hp
  · intro entry he
    rcases List.mem_append.mp he with he | he
    · exact (h.log entry he).mono (fun _ h => h) howner
    · obtain ⟨plain, seed, packet, hplain, hencode, rfl⟩ := hs.out entry he
      refine ⟨howner socket w.destination ?_, plain, seed, h.received socket w plain hw hplain,
        hencode⟩
      rw [Server.owner, hw, Option.map_some]

/-- **One step** keeps the invariant. -/
theorem Inv.step (h : Inv cfg events server) (event : Event Source) :
    Inv cfg (events ++ [event]) (step cfg server event) := by
  have hmono : Inv cfg (events ++ [event]) server := h.mono (List.subset_append_left _ _)
  have hlast : event ∈ events ++ [event] := List.mem_append_right _ (.head _)
  cases event with
  | serve round =>
    rw [Relay.step]
    split_ifs
    · exact hmono
    · have hs : Served cfg round server _ _ := Relay.served round
      split
      · next after he => exact hmono.served hlast (he ▸ hs)
      · next error after he =>
        have hr := (hmono.served hlast hs).retain fun _ _ => false
        rw [he] at hr
        exact ⟨hr.capacity, hr.session, hr.alive, hr.exited, hr.received, hr.log⟩
  | worker socket call =>
    rw [Relay.step]
    split
    · exact hmono
    · next w hw => exact hmono.work hlast hw

/-- **Every run** keeps the invariant. -/
theorem run_inv (cfg : Config) (events : List (Event Source)) : Inv cfg events (run cfg events) := by
  induction events using List.reverseRecOn with
  | nil =>
    exact ⟨Nat.zero_le _, fun _ _ h => (nomatch h), fun _ _ h => (nomatch h), fun _ _ h => (nomatch h),
      fun _ _ _ h => (nomatch h), fun _ h => (nomatch h)⟩
  | append_singleton events event ih =>
    rw [run, List.foldl_append]
    exact ih.step event

/-! ## Other clients -/

/-- The session of a source and its thread are as they were. -/
structure Server.Same (before after : Server Source) (source : Source) : Prop where
  session : after.sessions.lookup source = before.sessions.lookup source
  thread : ∀ session, before.sessions.lookup source = some session →
    after.workers[session.socket]? = before.workers[session.socket]?

theorem Server.Same.refl (server : Server Source) (source : Source) : server.Same server source :=
  ⟨rfl, fun _ _ => rfl⟩

theorem Server.Same.trans {before : Server Source} (h : before.Same server source)
    (h' : server.Same after source) : before.Same after source :=
  ⟨h'.session.trans h.session, fun session hl =>
    (h'.thread session (h.session.trans hl)).trans (h.thread session hl)⟩

theorem Inv.same_retain (h : Inv cfg events server)
    (hkeep : ∀ session, server.sessions.lookup other = some session → keep other session = true) :
    server.Same (server.retain keep) other := by
  refine ⟨?_, fun session hl => ?_⟩
  · ext session
    rw [lookup_retain]
    exact ⟨fun hl => hl.1, fun hl => ⟨hl, hkeep session hl⟩⟩
  · rw [workers_retain, h.not_dropped hl (hkeep session hl)]
    exact Option.map_id'

theorem Inv.same_drop_dead (h : Inv cfg events server) (ho : other ≠ source) :
    server.Same (server.drop_dead source) other := by
  unfold Server.drop_dead
  split
  · split_ifs
    · exact .refl server other
    · exact h.same_retain fun _ _ => decide_eq_true ho
  · exact .refl server other

theorem Inv.same_open (h : Inv cfg events server) (ho : other ≠ source) (seconds : ℕ) :
    server.Same (server.open source seconds) other := by
  refine ⟨AList.lookup_insert_ne ho, fun session hl => ?_⟩
  obtain ⟨w, hw, -⟩ := h.session other session hl
  exact (workers_open _).trans (if_neg (List.getElem?_eq_some_iff.mp hw).1.ne)

theorem same_forward (ho : other ≠ source) (seconds : ℕ) (plain : List UInt8) :
    server.Same (server.forward source session seconds plain) other :=
  ⟨lookup_forward.trans (if_neg ho), fun _ _ => rfl⟩

/-- **A datagram disturbs no other client**, whatever comes of it. -/
theorem Handled.same {result : Except String Unit} {packet : List UInt8}
    (h : Inv cfg events server) (hs : Handled cfg round server packet source result after)
    (ho : other ≠ source) : server.Same after other := by
  have hdrop := h.same_drop_dead ho
  cases hs with
  | refused => exact .refl _ other
  | limited => exact hdrop
  | uncreated => exact hdrop
  | existing => exact hdrop.trans (same_forward ho _ _)
  | created => exact hdrop.trans (((h.drop_dead source).same_open ho _).trans (same_forward ho _ _))

/-! ## The datagrams of one client -/

theorem drop_dead_log : (server.drop_dead source).log = server.log := by
  unfold Server.drop_dead
  split
  · split_ifs <;> rfl
  · rfl

/-- **A datagram is forwarded on the session socket of its source**, or not at all. -/
theorem Handled.forwarded {result : Except String Unit} {packet : List UInt8}
    (hs : Handled cfg round server packet source result after) {entry : Output Source}
    (he : entry ∈ after.log) : entry ∈ server.log ∨ ∃ plain session,
      (decode (packet.take BUFFER_SIZE) buffer).1 = some plain ∧
        after.sessions.lookup source = some session ∧
          entry = .forwarded source session.socket plain := by
  have hdrop : (server.drop_dead source).log = server.log := drop_dead_log
  cases hs with
  | refused => exact .inl he
  | limited => exact .inl (hdrop ▸ he)
  | uncreated => exact .inl (hdrop ▸ he)
  | @existing plain session hdecode hlookup =>
    rcases List.mem_append.mp he with he | he
    · exact .inl (hdrop ▸ he)
    · exact .inr ⟨plain, _, hdecode, lookup_forward.trans (if_pos rfl), List.mem_singleton.mp he⟩
  | @created plain seconds hdecode hlookup hroom hcreated =>
    rcases List.mem_append.mp he with he | he
    · exact .inl (hdrop ▸ he)
    · exact .inr ⟨plain, _, hdecode, lookup_forward.trans (if_pos rfl), List.mem_singleton.mp he⟩

theorem drop_dead_none (hl : server.sessions.lookup source = none) :
    server.drop_dead source = server := by
  rw [Server.drop_dead, hl]

/-- **A newcomer at capacity is dropped**, and nothing changes. -/
theorem Handled.newcomer {result : Except String Unit} {packet : List UInt8}
    (hs : Handled cfg round server packet source result after)
    (hl : server.sessions.lookup source = none)
    (hfull : cfg.max_clients ≤ server.sessions.keys.length) : result = .ok () ∧ after = server := by
  have hdrop := drop_dead_none hl
  cases hs with
  | refused => exact ⟨rfl, rfl⟩
  | limited => exact ⟨rfl, hdrop⟩
  | uncreated hdecode hlookup hroom =>
    rw [hdrop] at hroom
    exact absurd hfull (not_le.mpr hroom)
  | existing hdecode hlookup =>
    rw [hdrop, hl] at hlookup
    cases hlookup
  | created hdecode hlookup hroom =>
    rw [hdrop] at hroom
    exact absurd hfull (not_le.mpr hroom)

theorem length_retain_lt (hl : server.sessions.lookup source = some session)
    (hk : keep source session = false) :
    (server.retain keep).sessions.keys.length < server.sessions.keys.length := by
  simp only [AList.keys, List.keys, List.length_map]
  refine List.length_filter_lt_length_iff_exists.mpr ⟨⟨source, session⟩, ?_, by simp [hk]⟩
  exact AList.mem_lookup_iff.mp hl

theorem drop_dead_gone (source : Source) {n : ℕ} (hn : server.sessions.keys.length ≤ n)
    (hl : ∀ session, server.sessions.lookup source = some session →
      server.alive session.socket = false)
    (hlt : server.sessions.lookup source = none → server.sessions.keys.length < n) :
    (server.drop_dead source).sessions.lookup source = none ∧
      (server.drop_dead source).sessions.keys.length < n ∧
        (server.drop_dead source).workers.length = server.workers.length := by
  unfold Server.drop_dead
  cases hlookup : server.sessions.lookup source with
  | none => exact ⟨hlookup, hlt hlookup, rfl⟩
  | some session =>
    set keep : Source → Session → Bool := fun s _ => s ≠ source with hk
    have hkeep : ∀ session, keep source session = false := fun _ => decide_eq_false (by simp)
    have hfalse : ¬ server.alive session.socket = true := by rw [hl session hlookup]; simp
    simp only [if_neg hfalse]
    refine ⟨?_, (length_retain_lt hlookup (hkeep session)).trans_le hn, workers_length_retain⟩
    ext session'
    rw [lookup_retain, hkeep session']
    simp

theorem swept_gone (cfg : Config) (round : Round Source)
    (hl : server.sessions.lookup source = some session)
    (ha : server.alive session.socket = false) :
    ((server.swept cfg round).drop_dead source).sessions.lookup source = none ∧
      ((server.swept cfg round).drop_dead source).sessions.keys.length <
        server.sessions.keys.length ∧
        ((server.swept cfg round).drop_dead source).workers.length = server.workers.length := by
  have hdead : ∀ session', server.sessions.lookup source = some session' →
      server.alive session'.socket = false := by
    intro session' hl'
    rw [hl] at hl'
    exact Option.some.inj hl' ▸ ha
  unfold Server.swept
  split_ifs
  · set keep : Source → Session → Bool := fun source session =>
      !is_idle session.last_seen cfg.idle (round.checked source)
    have hle : (server.retain keep).sessions.keys.length ≤ server.sessions.keys.length :=
      length_retain
    have hlookup : ∀ session', (server.retain keep).sessions.lookup source = some session' ↔
        server.sessions.lookup source = some session' ∧ keep source session' = true :=
      fun session' => lookup_retain
    have hshort : keep source session = false →
        (server.retain keep).sessions.keys.length < server.sessions.keys.length :=
      length_retain_lt hl
    have hgone := drop_dead_gone source
      (show (server.cleanup cfg round).sessions.keys.length ≤ _ from hle)
      (fun session' hl' => alive_retain (hdead session' ((hlookup session').mp hl').1))
      fun hnone => ?_
    · exact ⟨hgone.1, hgone.2.1, hgone.2.2.trans workers_length_retain⟩
    · refine hshort ?_
      by_contra hk
      have := (hlookup session).mpr ⟨hl, Bool.not_eq_false _ ▸ hk⟩
      rw [show (server.retain keep).sessions.lookup source = none from hnone] at this
      cases this
  · exact drop_dead_gone source le_rfl hdead fun hnone => by rw [hl] at hnone; cases hnone

/-- **A session whose thread is dead is replaced** by one with a fresh socket and a running thread,
which forwards the datagram; if it cannot be created, `serve` ends. -/
theorem Handled.replaced {result : Except String Unit} {packet plain : List UInt8}
    (hs : Handled cfg round (server.swept cfg round) packet source result after)
    (hcap : server.sessions.keys.length ≤ cfg.max_clients)
    (hdecode : (decode (packet.take BUFFER_SIZE) buffer).1 = some plain)
    (hl : server.sessions.lookup source = some session)
    (ha : server.alive session.socket = false) :
    (∃ session', after.sessions.lookup source = some session' ∧
      session'.socket = server.workers.length ∧
      after.workers[server.workers.length]? = some ⟨source, true, .recv⟩ ∧
      .forwarded source session'.socket plain ∈ after.log) ∨
    ∃ e, round.created = .error e ∧ result = .error (e.message cfg.wireguard) := by
  obtain ⟨hnone, hlt, hlen⟩ := swept_gone cfg round hl ha
  cases hs with
  | refused h =>
    rw [hdecode] at h
    cases h
  | limited _ _ hfull => exact absurd (hlt.trans_le hcap) (not_lt.mpr hfull)
  | uncreated _ _ _ hcreated => exact .inr ⟨_, hcreated, rfl⟩
  | existing _ hlookup =>
    rw [hnone] at hlookup
    cases hlookup
  | @created plain' seconds h _ _ _ =>
    obtain rfl := Option.some.inj (hdecode.symm.trans h)
    refine .inl ⟨_, lookup_forward.trans (if_pos rfl), hlen, ?_, ?_⟩
    · exact (workers_open seconds).trans (if_pos hlen.symm)
    · exact List.mem_append_right _ (.head _)

/-! ## Isolation -/

/-- What a datagram of `source` does, from `server` to `after`. -/
structure Datagram (cfg : Config) (round : Round Source) (packet : List UInt8) (source : Source)
    (server : Server Source) (result : Except String Unit) (after : Server Source) : Prop where
  others : ∀ other, other ≠ source → (server.swept cfg round).Same after other
  forwarded : ∀ entry ∈ after.log, entry ∈ server.log ∨ ∃ plain session,
    (decode (packet.take BUFFER_SIZE) buffer).1 = some plain ∧
      after.sessions.lookup source = some session ∧
        entry = .forwarded source session.socket plain
  newcomer : (server.swept cfg round).sessions.lookup source = none →
    cfg.max_clients ≤ (server.swept cfg round).sessions.keys.length →
      result = .ok () ∧ after = server.swept cfg round
  replaced : ∀ plain session w, (decode (packet.take BUFFER_SIZE) buffer).1 = some plain →
    server.sessions.lookup source = some session →
    server.workers[session.socket]? = some w → w.phase = .exited →
      (∃ session', after.sessions.lookup source = some session' ∧
        session'.socket = server.workers.length ∧
        after.workers[server.workers.length]? = some ⟨source, true, .recv⟩ ∧
        .forwarded source session'.socket plain ∈ after.log) ∨
      ∃ e, round.created = .error e ∧ result = .error (e.message cfg.wireguard)

/-- **The relay isolates its clients.** After any run of rounds of the loop and calls of the threads:
there are at most `max_clients` sessions, one for a source, and the socket of each is its source's
alone; what was sent to WireGuard on a socket came from the source that owns it, and what was
returned from a socket was received on it and went to its owner. A datagram that comes next is
forwarded on the session socket of its source, disturbs no other client, is dropped if it needs one
session too many, and replaces a session whose thread has exited. -/
theorem sessions_isolated (cfg : Config) (events : List (Event Source)) :
    (run cfg events).sessions.keys.length ≤ cfg.max_clients ∧
    (run cfg events).sessions.keys.Nodup ∧
    (∀ source session, (run cfg events).sessions.lookup source = some session →
      (run cfg events).owner session.socket = some source) ∧
    (∀ entry ∈ (run cfg events).log, Justified events (run cfg events) entry) ∧
    ∀ round packet source, round.received = .ok (packet, source) →
      Datagram cfg round packet source (run cfg events)
        ((serve_round cfg round).exec (run cfg events)).1
        ((serve_round cfg round).exec (run cfg events)).2 := by
  have h := run_inv cfg events
  refine ⟨h.capacity, (run cfg events).sessions.keys_nodup, fun source session hl => h.owner hl,
    h.log, fun round packet source hreceived => ?_⟩
  have hs : Served cfg round (run cfg events) _ _ := served round
  generalize (serve_round cfg round).exec (run cfg events) = p at hs
  obtain ⟨result, after⟩ := p
  cases hs with
  | waited hwaited =>
    rw [hreceived] at hwaited
    exact hwaited.elim (fun h => nomatch h) fun h => nomatch h
  | broken hbroken =>
    rw [hreceived] at hbroken
    cases hbroken
  | handled hreceived' hs =>
    rw [hreceived] at hreceived'
    cases hreceived'
    exact
      { others := fun other ho => hs.same h.swept ho
        forwarded := fun entry he => swept_log ▸ hs.forwarded he
        newcomer := fun hl hfull => hs.newcomer hl hfull
        replaced := fun plain session w hdecode hl hw hp =>
          hs.replaced h.capacity hdecode hl (by
            rw [Server.alive, hw]
            exact h.exited _ w hw hp) }

end Gofro.Relay
