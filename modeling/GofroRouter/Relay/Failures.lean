import GofroRouter.Relay.Sessions

/-!
# Failures of one session

What an error of a single session does to the relay: its thread exits, a send on its socket fails,
or it cannot be created.

* `Fails`, `Confined`: a step with an error of a session, and one that disturbs no other client.
* `SessionError`: a round in which a session cannot be created or a send on its socket fails.
* `exit_confined`: a thread that exits is confined; `error_ends`: the other errors end the loop.
* **`failures_confined_iff`**: all failures of a run are confined if and only if it has no such
  round; `refused_send_ends` is one.
-/

namespace Gofro.Relay

variable {Source : Type} [DecidableEq Source]

/-- A session is needed for a source, and there is room for it. -/
def Creates (cfg : Config) (server : Server Source) (round : Round Source) (source : Source) : Prop :=
  ((server.swept cfg round).drop_dead source).sessions.lookup source = none ∧
    ((server.swept cfg round).drop_dead source).sessions.keys.length < cfg.max_clients

/-- A source has a session, or gets one. -/
def Sends (cfg : Config) (server : Server Source) (round : Round Source) (source : Source) : Prop :=
  ((server.swept cfg round).drop_dead source).sessions.lookup source ≠ none ∨
    Creates cfg server round source ∧ ∃ seconds, round.created = .ok seconds

/-- A round with a datagram of `source` whose session cannot be created, or on whose socket `send`
fails. -/
def SessionError (cfg : Config) (server : Server Source) (round : Round Source) (source : Source) :
    Prop :=
  ∃ packet plain, round.received = .ok (packet, source) ∧
    (decode (packet.take BUFFER_SIZE) buffer).1 = some plain ∧
      ((Creates cfg server round source ∧ ∃ e, round.created = .error e) ∨
        Sends cfg server round source ∧ ∃ e, round.send plain = .error e)

/-- A step in which something goes wrong with the session of `source`. -/
def Fails (cfg : Config) (server : Server Source) (source : Source) : Event Source → Prop
  | .serve round => server.ended = none ∧ SessionError cfg server round source
  | .worker socket call => ∃ w, server.workers[socket]? = some w ∧ w.destination = source ∧
    ((w.step socket call).1.phase = .returned ∨ (w.step socket call).1.phase = .exited)

/-- Sessions that are idle may go first. -/
def Server.before (server : Server Source) (cfg : Config) : Event Source → Server Source
  | .serve round => server.swept cfg round
  | .worker _ _ => server

/-- The failure of a session neither ends the loop nor disturbs another client. -/
def Confined (cfg : Config) (server : Server Source) (event : Event Source) : Prop :=
  ∀ source, Fails cfg server source event →
    (server.ended = none → (step cfg server event).ended = none) ∧
      ∀ other, other ≠ source → (server.before cfg event).Same (step cfg server event) other

variable {cfg : Config} {server after : Server Source} {source : Source} {round : Round Source}
  {events : List (Event Source)}

/-- **A thread that exits is confined to its session.** -/
theorem exit_confined (h : Inv cfg events server) (socket : ℕ) (call : Call) :
    Confined cfg server (.worker socket call) := by
  rintro source ⟨w, hw, hd, -⟩
  have hstep : step cfg server (.worker socket call) = { server with
      workers := server.workers.set socket (w.step socket call).1
      log := server.log ++ (w.step socket call).2 } := by
    rw [step, hw]
  rw [hstep]
  refine ⟨fun hend => hend, fun other ho => ⟨rfl, fun session hl => ?_⟩⟩
  obtain ⟨v, hv, hdest, -⟩ := h.session other session hl
  have hne : session.socket ≠ socket := by
    intro he
    rw [he, hw] at hv
    obtain rfl := Option.some.inj hv
    exact ho (hdest.symm.trans hd)
  exact (workers_set hw _).trans (if_neg hne)

/-- **Every other error of a session ends the loop.** -/
theorem error_ends (he : SessionError cfg server round source) :
    ∃ e, ((serve_round cfg round).exec server).1 = .error e := by
  obtain ⟨packet, plain, hreceived, hdecode, he⟩ := he
  have hs : Served cfg round server _ _ := served round
  generalize (serve_round cfg round).exec server = p at hs
  obtain ⟨result, after⟩ := p
  have hplain : ∀ {plain'}, (decode (packet.take BUFFER_SIZE) buffer).1 = some plain' →
      plain' = plain := fun h => Option.some.inj (h.symm.trans hdecode)
  cases hs with
  | waited hwaited =>
    rw [hreceived] at hwaited
    exact hwaited.elim (fun h => nomatch h) fun h => nomatch h
  | broken hbroken => exact ⟨_, rfl⟩
  | handled hreceived' hs =>
    rw [hreceived] at hreceived'
    cases hreceived'
    cases hs with
    | refused h =>
      rw [hdecode] at h
      cases h
    | limited _ hlookup hfull =>
      have hnot : ¬ Creates cfg server round source := fun h => absurd hfull (not_le.mpr h.2)
      rcases he with ⟨hc, -⟩ | ⟨hl | ⟨hc, -⟩, -⟩
      · exact absurd hc hnot
      · exact absurd hlookup hl
      · exact absurd hc hnot
    | uncreated => exact ⟨_, rfl⟩
    | existing h hlookup =>
      rcases he with ⟨hc, -⟩ | ⟨-, e, hsend⟩
      · rw [hc.1] at hlookup
        cases hlookup
      · exact ⟨e, hplain h ▸ hsend⟩
    | created h hlookup hroom hcreated =>
      rcases he with ⟨-, e, he⟩ | ⟨-, e, hsend⟩
      · rw [hcreated] at he
        cases he
      · exact ⟨e, hplain h ▸ hsend⟩

/-- **Failures in runs.** In a run every failure of a session is confined, in every step, if and only
if no round needs a session that cannot be created or makes a send on a session's socket that
fails. -/
theorem failures_confined_iff (cfg : Config) (events : List (Event Source)) :
    (∀ past event future, events = past ++ event :: future →
      Confined cfg (run cfg past) event) ↔
    ∀ past round future source, events = past ++ .serve round :: future →
      (run cfg past).ended = none → ¬ SessionError cfg (run cfg past) round source := by
  constructor
  · intro h past round future source he hend herror
    have hconf := (h past (.serve round) future he source ⟨hend, herror⟩).1 hend
    obtain ⟨e, hresult⟩ := error_ends herror
    rw [step, hend] at hconf
    rcases hexec : (serve_round cfg round).exec (run cfg past) with ⟨result, after⟩
    rw [hexec] at hresult hconf
    dsimp only at hresult
    subst hresult
    cases hconf
  · intro h past event future he
    cases event with
    | serve round =>
      intro source hfails
      exact absurd hfails.2 (h past round future source he hfails.1)
    | worker socket call => exact exit_confined (run_inv cfg past) socket call

/-- A datagram with an empty plaintext, and calls of which only `send` may fail. -/
def emptyRound (source : ℕ) (sent : Except IoError ℕ) : Round ℕ where
  received := .ok (body 0 [] ++ tail 0 [], source)
  now := 0
  cleaned := 0
  checked := fun _ => 0
  created := .ok 0
  seen := 0
  sent := sent

/-- The relay after a datagram of each of two clients. -/
def twoClients : Server ℕ := run (arguments "127.0.0.1:51820")
  [.serve (emptyRound 1 (.ok 0)), .serve (emptyRound 2 (.ok 0))]

/-- A second datagram of the second client, whose `send` is refused, ends the loop, and with it the
first client's session. -/
theorem refused_send_ends :
    ¬ Confined (arguments "127.0.0.1:51820") twoClients (.serve (emptyRound 2 (.error .other))) ∧
    (step (arguments "127.0.0.1:51820") twoClients (.serve (emptyRound 2 (.error .other)))).ended =
      some "UDP send failed" ∧
    twoClients.sessions.lookup 1 ≠ none ∧ twoClients.sessions.lookup 2 ≠ none ∧
    (step (arguments "127.0.0.1:51820") twoClients
      (.serve (emptyRound 2 (.error .other)))).sessions.lookup 1 = none := by
  refine ⟨fun h => ?_, by decide +kernel, by decide +kernel, by decide +kernel, by decide +kernel⟩
  have hopen : ((twoClients.swept (arguments "127.0.0.1:51820")
      (emptyRound 2 (.error .other))).drop_dead 2).sessions.lookup 2 ≠ none := by decide +kernel
  have hfails : Fails (arguments "127.0.0.1:51820") twoClients 2
      (.serve (emptyRound 2 (.error .other))) :=
    ⟨by decide +kernel, _, [], rfl, by decide +kernel, .inr ⟨.inl hopen, _, rfl⟩⟩
  have hend := (h 2 hfails).1 (by decide +kernel)
  exact absurd hend (by decide +kernel)

end Gofro.Relay
