import GofroRouter.Agent.Auth.Requests
import GofroRouter.Lib.Crash

/-!
# Passwords and sessions of the panel

The handlers `setup`, `login`, `change_password` and `logout` of `auth.rs` as they interleave. A
handler runs up to its `await`; its job then runs on a blocking thread and goes on when the client
disconnects and the handler is dropped; a handler that is still there resumes when its job is done.

* `Server`: the files, the sessions behind their lock, the one hashing permit and the requests in
  flight; `log` records what happened, newest first.
* `Job`: what a request does on its blocking thread, cut at every point where others may run.
* `step`: the next state; a step that has to wait for the lock leaves the state as it is.
-/

namespace Gofro.Agent.Auth

open Text

/-- Times are in nanoseconds. -/
def SECOND : ℕ := 10 ^ 9

/-- Half an hour, in nanoseconds. -/
def TTL : ℕ := 1800 * SECOND
def MAX_SESSIONS : ℕ := 32

/-- One session of the panel. -/
structure Session where
  token : String
  csrf : String
  expires : ℕ
deriving DecidableEq

/-- What the mutex guards. -/
structure Inner where
  sessions : List Session
  failed : Option ℕ
deriving DecidableEq

/-- The body of `setup` and `login`. -/
structure PasswordInput where
  setup_code : Option String
  password : String

/-- The body of `change_password`. -/
structure PasswordChangeInput where
  current_password : String
  password : String

/-- What a client is told: an error, or a state with its tokens. -/
inductive Response
  | error (status : ℕ) (code : String)
  | reply (state csrf : String) (session : Option String)
deriving DecidableEq

/-- The four requests that have to do with sessions. -/
inductive Request
  | setup (head : Head) (input : PasswordInput)
  | login (head : Head) (input : PasswordInput)
  | change_password (headers : Headers) (input : PasswordChangeInput)
  | logout (headers : Headers)

/-- How a record is written; `published` is in place although its directory could not be synced. -/
inductive Write | failed | published | done
deriving DecidableEq

/-- What a finished job hands to its handler. -/
inductive Result
  | setup (ok : Bool)
  | login (valid : Option Bool)
  | change (response : Response)
deriving DecidableEq

/-- The point that the job of a request has reached. -/
inductive Job
  | setup (password : String)
  | login (password : String)
  | login_verifying (password : String) (record : Option Record) (version : ℕ)
  | change (headers : Headers) (input : PasswordChangeInput)
  | change_verifying (input : PasswordChangeInput) (record : Record) (version : ℕ)
  | change_writing (password token csrf : String)
  | change_written (write : Write) (token csrf : String)
  | finished (result : Result)

/-- A request in flight; `waiting` is false once its handler has been dropped. -/
structure Task where
  waiting : Bool
  job : Job

/-- What happened. A version says how many records had been installed. -/
inductive Entry
  | started (request time : ℕ)
  | verified (request : ℕ) (valid : Bool) (version time : ℕ)
  | installed (request : ℕ) (setup : Bool)
  | issued (request : ℕ) (token : String) (version : ℕ)
  | answered (request : ℕ) (response : Response)

/-- A new record. -/
def Entry.install : Entry → Bool
  | .installed _ _ => true
  | _ => false

/-- How many records a log has installed. -/
def version (log : List Entry) : ℕ := log.countP Entry.install

/-- The server with the files it reads, its locks, its requests, and the log of what has happened.
-/
structure Server where
  now : ℕ
  password : Option Credential
  setup_code : Option String
  marker : Option String
  inner : Inner
  lock : Option ℕ
  permit : Option ℕ
  next : ℕ
  tasks : ℕ → Option Task
  log : List Entry

/-- `Auth::open` -/
def opened (now : ℕ) (password : Option Credential) (setup_code marker : Option String) : Server :=
  ⟨now, password, setup_code, marker, ⟨[], none⟩, none, none, 0, fun _ => none, []⟩

/-- What the machine does in one step: random bytes and tokens, and how the file operations end. -/
structure Luck where
  salt : List UInt8
  tokens : Option (String × String)
  write : Write
  atomic : Write
  sync : Bool
  remove : Bool
  sync_code : Bool

namespace Server

/-- The latest entry comes first. -/
def note (s : Server) (entry : Entry) : Server := { s with log := entry :: s.log }

def answer (s : Server) (request : ℕ) (response : Response) : Server :=
  s.note (.answered request response)

def put (s : Server) (request : ℕ) (task : Option Task) : Server :=
  { s with tasks := Function.update s.tasks request task }

/-- Within a second of a failure. -/
def throttled (s : Server) : Bool := s.inner.failed.any fun time => s.now - time < SECOND

/-! ## Sessions -/

/-- The sessions that have not expired. -/
def live (s : Server) : List Session := s.inner.sessions.filter (s.now < ·.expires)

/-- The time of the last failure stays. -/
def set_sessions (s : Server) (sessions : List Session) : Server :=
  { s with inner := { s.inner with sessions := sessions } }

/-- The session that a request names by its cookie; waits for the lock. -/
def session (s : Server) (headers : Headers) : Option (String × String) :=
  if s.lock.isSome then none
  else (cookie headers SESSION).bind fun token =>
    (s.live.find? (·.token = token)).map fun item => (item.token, item.csrf)

/-- `session` also forgets the sessions that have expired. -/
def look_up (s : Server) (headers : Headers) : Server :=
  if (cookie headers SESSION).isSome then s.set_sessions s.live else s

/-- `issue`, with the oldest sessions removed while there are too many. -/
def issue (s : Server) (request : ℕ) (tokens : Option (String × String)) :
    Server × Option (String × String) :=
  let kept := s.live.drop (s.live.length - (MAX_SESSIONS - 1))
  match tokens with
  | some (token, csrf) =>
    ((s.set_sessions (kept ++ [⟨token, csrf, s.now + TTL⟩])).note
      (.issued request token (version s.log)), some (token, csrf))
  | none => (s.set_sessions kept, none)

/-- The answer with a new session. -/
def authenticate (s : Server) (request : ℕ) (tokens : Option (String × String)) : Server :=
  match s.issue request tokens with
  | (s, some (token, csrf)) => s.answer request (.reply "authenticated" csrf (some token))
  | (s, none) => s.answer request (.error 500 "internal_error")

end Server

/-! ## The first part of a handler -/

/-- A check that answers with a status when it fails. -/
def ensure (ok : Bool) (status : ℕ) (code : String) : Except Response Unit :=
  if ok then .ok () else .error (.error status code)

/-- The checks of a new password, as answers. -/
def accept_password (password : String) : Except Response Unit :=
  match setup_password_error password with
  | some code => .error (.error 400 code)
  | none => .ok ()

section

variable (panel : Panel)

/-- `setup` up to its job; `window` is what is left of the setup window in seconds. -/
def setup (s : Server) (head : Head) (input : PasswordInput) (window : ℕ) : Except Response Job := do
  ensure (preauth panel head) 403 "request_rejected"
  accept_password input.password
  ensure s.permit.isNone 409 "auth_busy"
  ensure s.password.isNone 409 "setup_completed"
  ensure (window != 0) 403 "setup_closed"
  let some codes := s.setup_code | .error (.error 500 "setup_unavailable")
  ensure (input.setup_code.any (setup_code_matches · codes)) 403 "invalid_setup_code"
  return .setup input.password

/-- The checks of `login`, up to its job. -/
def login (s : Server) (head : Head) (input : PasswordInput) : Except Response Job := do
  ensure (preauth panel head) 403 "request_rejected"
  ensure (!password_too_long input.password) 400 "password_too_long"
  ensure s.password.isSome 409 "setup_required"
  ensure s.permit.isNone 409 "auth_busy"
  ensure (!s.throttled) 429 "login_throttled"
  return .login input.password

/-- The job makes the other checks. -/
def change_password (s : Server) (headers : Headers) (input : PasswordChangeInput) :
    Except Response Job := do
  ensure s.permit.isNone 409 "auth_busy"
  return .change headers input

/-- `logout`, which has no job. -/
def logout (s : Server) (request : ℕ) (headers : Headers) (tokens : Option (String × String)) :
    Server :=
  let left := s.look_up headers
  let reply := Response.reply "login" ((tokens.map Prod.fst).getD "") none
  match s.session headers with
  | none => left.answer request reply
  | some (token, csrf) =>
    if headers.get "x-csrf-token" = some csrf then
      (left.set_sessions (left.inner.sessions.filter (·.token ≠ token))).answer request reply
    else left.answer request (.error 403 "request_rejected")

/-- A handler that has taken the permit and hands it to its job, or an answer at once. -/
def spawn (s : Server) (job : Except Response Job) : Server :=
  match job with
  | .ok job => { s.put s.next (some ⟨true, job⟩) with permit := some s.next, next := s.next + 1 }
  | .error response => { s.answer s.next response with next := s.next + 1 }

/-- A request arrives. Only `logout` and a `login` with the permit wait for the lock. -/
def arrive (s : Server) (request : Request) (window : ℕ) (luck : Luck) : Server :=
  match request with
  | .setup head input => spawn s (setup panel s head input window)
  | .login head input =>
    if s.lock.isSome && s.permit.isNone then s else spawn s (login panel s head input)
  | .change_password headers input => spawn s (change_password s headers input)
  | .logout headers =>
    if s.lock.isSome then s else { logout s s.next headers luck.tokens with next := s.next + 1 }

end

/-! ## Jobs -/

/-- The file is removed, and then its directory is synced. -/
def remove_setup_code (s : Server) (luck : Luck) : Server × Bool :=
  if luck.remove then ({ s with setup_code := none }, luck.sync_code) else (s, false)

/-- `onboarding::complete_admin`: the state file says that setup goes on with the server, and the
setup code is removed. -/
def complete_admin (s : Server) (luck : Luck) : Server × Bool :=
  if s.password.isNone then (s, false)
  else match s.marker with
    | none => (s, true)
    | some state =>
      if state = "admin\n" then
        match luck.atomic with
        | .failed => (s, false)
        | .published => ({ s with marker := some "server\n" }, false)
        | .done => remove_setup_code { s with marker := some "server\n" } luck
      else if state = "server\n" then
        if luck.sync then remove_setup_code s luck else (s, false)
      else (s, false)

/-- The result of `setup` or `login` is kept with the permit for the handler, or dropped with it. -/
def finish (s : Server) (request : ℕ) (task : Task) (result : Result) : Server :=
  if task.waiting then s.put request (some ⟨true, .finished result⟩)
  else { s.put request none with permit := none }

/-- `change_password` gives up the lock and the permit in its job. -/
def finish_change (s : Server) (request : ℕ) (task : Task) (response : Response) : Server :=
  let s := { s with lock := none, permit := none }
  if task.waiting then s.put request (some ⟨true, .finished (.change response)⟩)
  else s.put request none

section

variable (pbkdf2_hmac : List UInt8 → List UInt8 → ℕ → (len : ℕ) → Except String (Vector UInt8 len))

/-- `write_record`: whether the record is in place, and what the caller is told. -/
def write_record (s : Server) (request : ℕ) (setup : Bool) (password : String) (luck : Luck) :
    Server × Write :=
  match new_record pbkdf2_hmac password luck.salt with
  | .error _ => (s, .failed)
  | .ok credential => match luck.write with
    | .failed => (s, .failed)
    | write => ({ s with password := some credential }.note (.installed request setup), write)

/-- The checks of `change_password_record` before it verifies the current password. -/
def change_checks (s : Server) (headers : Headers) (input : PasswordChangeInput) :
    Except Response Unit := do
  let token := cookie headers SESSION
  let some session := s.live.find? fun session => some session.token = token
    | .error (.error 401 "session_expired")
  ensure ((headers.get "x-csrf-token").any (constant_time_eq · session.csrf)) 403 "request_rejected"
  accept_password input.password
  ensure (!s.throttled) 429 "login_throttled"

/-- The next step of a job. -/
def work (s : Server) (request : ℕ) (task : Task) (luck : Luck) : Server :=
  match task.job with
  | .setup password =>
    match write_record pbkdf2_hmac s request true password luck with
    | (s, .done) =>
      let (s, ok) := complete_admin s luck
      finish s request task (.setup ok)
    | (s, _) => finish s request task (.setup false)
  | .login password =>
    (s.note (.started request s.now)).put request
      (some ⟨task.waiting, .login_verifying password (read_record s.password) (version s.log)⟩)
  | .login_verifying password record version =>
    let valid := login_valid pbkdf2_hmac record password
    let s := s.note (.verified request valid version s.now)
    if valid then
      let (s, ok) := complete_admin s luck
      finish s request task (.login (if ok then some true else none))
    else finish s request task (.login (some false))
  | .change headers input =>
    if s.lock.isSome then s
    else match change_checks s headers input with
      | .error response => finish_change s request task response
      | .ok _ => match read_record s.password with
        | none => finish_change s request task (.error 500 "internal_error")
        | some record =>
          ({ s with lock := some request }.note (.started request s.now)).put request
            (some ⟨task.waiting, .change_verifying input record (version s.log)⟩)
  | .change_verifying input record version =>
    match current_valid pbkdf2_hmac record input.current_password with
    | .error _ => finish_change s request task (.error 500 "internal_error")
    | .ok false =>
      let s := s.note (.verified request false version s.now)
      finish_change { s with inner := { s.inner with failed := some s.now } } request task
        (.error 400 "invalid_current_password")
    | .ok true =>
      let s := s.note (.verified request true version s.now)
      match luck.tokens with
      | none => finish_change s request task (.error 500 "internal_error")
      | some (token, csrf) =>
        s.put request (some ⟨task.waiting, .change_writing input.password token csrf⟩)
  | .change_writing password token csrf =>
    match write_record pbkdf2_hmac s request false password luck with
    | (s, .failed) => finish_change s request task (.error 500 "internal_error")
    | (s, write) => s.put request (some ⟨task.waiting, .change_written write token csrf⟩)
  | .change_written write token csrf =>
    let s := s.set_sessions []
    match write with
    | .done =>
      let s := { s with inner := ⟨[⟨token, csrf, s.now + TTL⟩], none⟩ }
      finish_change (s.note (.issued request token (version s.log))) request task
        (.reply "authenticated" csrf (some token))
    | _ => finish_change s request task (.error 500 "password_change_uncertain")
  | .finished _ => s

end

/-! ## Handlers after their job -/

/-- The handler of a finished job goes on; it waits for the lock where it needs it. -/
def resume (s : Server) (request : ℕ) (result : Result) (luck : Luck) : Server :=
  let left := { s.put request none with permit := none }
  match result with
  | .setup true => if s.lock.isSome then s else left.authenticate request luck.tokens
  | .setup false => left.answer request (.error 500 "internal_error")
  | .login none => left.answer request (.error 500 "internal_error")
  | .login (some false) =>
    if s.lock.isSome then s
    else { left with inner := { left.inner with failed := some left.now } }.answer request
      (.error 401 "invalid_password")
  | .login (some true) => if s.lock.isSome then s else left.authenticate request luck.tokens
  | .change response => (s.put request none).answer request response

/-- The client disconnects: the handler is dropped, and with it the result of a finished job. -/
def disconnect (s : Server) (request : ℕ) (task : Task) : Server :=
  match task.job with
  | .finished (.change _) => s.put request none
  | .finished _ => { s.put request none with permit := none }
  | job => s.put request (some ⟨false, job⟩)

/-! ## Steps -/

/-- What may happen next: time goes by, a request comes, or something in flight goes on. -/
inductive Event
  | tick (duration : ℕ)
  | arrive (request : Request) (window : ℕ) (luck : Luck)
  | work (request : ℕ) (luck : Luck)
  | resume (request : ℕ) (luck : Luck)
  | disconnect (request : ℕ)
  | look_up (headers : Headers)

/-- One step of the server, for any choice of what goes on. -/
def step (panel : Panel)
    (pbkdf2_hmac : List UInt8 → List UInt8 → ℕ → (len : ℕ) → Except String (Vector UInt8 len))
    (s : Server) : Event → Server
  | .tick duration => { s with now := s.now + duration }
  | .arrive request window luck => arrive panel s request window luck
  | .work request luck =>
    match s.tasks request with
    | some task => work pbkdf2_hmac s request task luck
    | none => s
  | .resume request luck =>
    match s.tasks request with
    | some ⟨true, .finished result⟩ => resume s request result luck
    | _ => s
  | .disconnect request =>
    match s.tasks request with
    | some ⟨true, job⟩ => disconnect s request ⟨true, job⟩
    | _ => s
  | .look_up headers => if s.lock.isSome then s else s.look_up headers

end Gofro.Agent.Auth
