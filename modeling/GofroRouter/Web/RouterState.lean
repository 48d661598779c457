import GofroRouter.Lib.Crash
import GofroRouter.Lib.Text

/-!
# The state of the web panel

The store `RouterState` of `router-state.svelte.ts`. Its methods run up to an `await`; what follows
runs when the answer has come, and any other method or answer may come in between.

* `RouterState`: the fields of the store that its methods read or show.
* `Task`: what is left of a method that awaits something, with the counters it has captured.
* `step`: a method is called, the poll timer fires, an answer arrives or a method goes on after one
  that it has called; `log` records polls and ends of mutations, newest first.
-/

namespace Gofro.Web

open Text

/-! ## Data -/

/-- Which page the panel shows. -/
inductive AuthState | setup | login | authenticated
deriving DecidableEq

/-- The answer about the session. -/
structure AuthStatus where
  state : AuthState
  setup_method : Option String
  setup_window_seconds : Option ℕ
deriving DecidableEq

/-- The steps of the first setup. -/
inductive OnboardingStep | admin | wifi | wifi_applying | server | complete
deriving DecidableEq

/-- The answer about the first setup. -/
structure OnboardingStatus where
  step : OnboardingStep
  setup_window_seconds : Option ℕ
  error : Option String
deriving DecidableEq

/-- What the store reads of the router's status. -/
structure Status where
  vpn_enabled : Bool
  tunnel_active : Bool
  handshake_age_seconds : Option ℕ
  active_server_key : Option String
  device_exclusions : List String
deriving DecidableEq

inductive Discovery | complete | partly | unavailable
deriving DecidableEq

/-- The answer about the devices. -/
structure LanDevices where
  devices : List (String × Option String × List String)
  discovery : Discovery
deriving DecidableEq

/-- A rejected promise; `api` says that it is an `ApiError`. -/
structure Failure where
  api : Bool
  message : String
  status : Option ℕ
  committed : Bool
deriving DecidableEq

/-- What a request brings. -/
inductive Value
  | status (status : Status)
  | auth (auth : AuthStatus)
  | onboarding (onboarding : OnboardingStatus)
  | lanDevices (inventory : LanDevices)
  | other
deriving DecidableEq

/-- The checks of `deviceExclusionInputSchema` and `deviceExclusionsSchema`. -/
class Schemas where
  deviceExclusionInput : String → Bool → Except String (String × Bool)
  deviceExclusions : List String → Bool

/-- Said when the status is uncertain. -/
def refreshRequired : String :=
  "Состояние после изменения не подтверждено. Сначала обновите состояние; новая команда не отправлена."

/-- Said of a change whose refresh has failed. -/
def committedWarning : String :=
  "Изменение выполнено, но состояние не удалось обновить. Обновите состояние отдельно; повторять изменение не нужно."

/-- Said when the answer to a change of the password is lost. -/
def passwordUncertain : String :=
  "Результат смены пароля неизвестен. Запрос не повторён автоматически. Обновите страницу; если потребуется вход, попробуйте новый пароль."

/-- The fields of the store. -/
structure RouterState where
  currentStatus : Option Status
  pollInFlight : Bool
  statusVersion : ℕ
  interval : Option ℕ
  onboardingInFlight : Bool
  onboardingVersion : ℕ
  generation : ℕ
  authVersion : ℕ
  loading : Bool
  authLoading : Bool
  authState : AuthState
  auth : Option AuthStatus
  authError : String
  setupClosed : Bool
  onboardingLoading : Bool
  onboarding : Option OnboardingStatus
  pollError : String
  actionError : String
  actionWarning : String
  statusUncertain : Bool
  warningKind : String
  mutation : Option String
  lanDevices : LanDevices
  inventoryLoading : Bool
  inventoryError : String
deriving DecidableEq

/-- The store of a page that has just been loaded. -/
def RouterState.initial : RouterState where
  currentStatus := none
  pollInFlight := false
  statusVersion := 0
  interval := none
  onboardingInFlight := false
  onboardingVersion := 0
  generation := 0
  authVersion := 0
  loading := true
  authLoading := true
  authState := .login
  auth := none
  authError := ""
  setupClosed := false
  onboardingLoading := false
  onboarding := none
  pollError := ""
  actionError := ""
  actionWarning := ""
  statusUncertain := false
  warningKind := ""
  mutation := none
  lanDevices := ⟨[], .unavailable⟩
  inventoryLoading := false
  inventoryError := ""

/-! ## Reading and resetting -/

namespace RouterState

/-- The server that the last warning is about. -/
def warningServerKey (s : RouterState) : Option String := do
  let (kind, key) ← split_once ':' s.warningKind.toList
  guard (String.ofList kind ∈
    ["update", "restart", "warp", "friend-create", "friend-rename", "friend-revoke"])
  guard (key ≠ [] ∧ key.all fun c => !([10, 13, 0x2028, 0x2029].contains c.toNat))
  return String.ofList key

/-- One change at a time. -/
def busy (s : RouterState) : Bool := s.mutation.isSome

def hasStatus (s : RouterState) : Bool := s.currentStatus.isSome

/-- What a page may show as connected. -/
def connected (s : RouterState) : Bool :=
  !s.statusUncertain && s.currentStatus.any fun status =>
    status.vpn_enabled && status.tunnel_active && status.handshake_age_seconds.any (· ≤ 180)

/-- The text that is shown for an error. -/
def message (error : Failure) : String :=
  match error.message with
  | "password_too_short" => "Пароль администратора должен содержать не менее 8 символов."
  | "password_too_long" => "Пароль слишком длинный. Максимум 128 байт: кириллица занимает больше одного байта на символ."
  | "invalid_setup_code" => "Неверный одноразовый код установки."
  | "invalid_password" => "Неверный пароль администратора."
  | "invalid_current_password" => "Неверный текущий пароль."
  | "request_rejected" => "Проверка безопасности не пройдена. Обновите страницу и попробуйте снова."
  | "auth_busy" => "Уже выполняется проверка пароля. Подождите и попробуйте снова."
  | "setup_completed" => "Пароль уже создан. Обновите страницу и войдите."
  | "setup_closed" => "Время настройки истекло; запустите команду установки в консоли роутера повторно."
  | "onboarding_required" => "Сначала завершите мастер настройки."
  | "setup_required" => "Сначала создайте пароль администратора. Обновите страницу."
  | "login_throttled" => "Слишком частые попытки входа. Подождите секунду."
  | "session_expired" => "Сессия истекла. Войдите снова."
  | "internal_error" => "Не удалось выполнить вход. Попробуйте ещё раз."
  | text => text

def stopPolling (s : RouterState) : RouterState := { s with interval := none }

/-- `stop`: everything that is in flight belongs to an older generation from here on. -/
def stop (s : RouterState) : RouterState :=
  { s with
    generation := s.generation + 1
    authVersion := s.authVersion + 1
    statusUncertain := true
    onboardingVersion := s.onboardingVersion + 1
    interval := none
    pollInFlight := false
    onboardingInFlight := false
    onboardingLoading := false
    authLoading := false
    loading := false
    mutation := none
    actionWarning := ""
    lanDevices := ⟨[], .unavailable⟩
    inventoryLoading := false
    inventoryError := "" }

/-- An answer about the session. -/
def applyAuth (s : RouterState) (auth : AuthStatus) : RouterState :=
  { s with onboardingVersion := s.onboardingVersion + 1, authState := auth.state, auth := some auth,
           setupClosed := false }

/-- The session has expired. -/
def unauthorized (error : Failure) : Bool := error.api && error.status = some 401

/-- `handleAuthError` where it answers true. -/
def signOut (s : RouterState) : RouterState :=
  let s := s.stop
  { s with onboardingVersion := s.onboardingVersion + 1, statusVersion := s.statusVersion + 1,
           currentStatus := none, loading := false, authState := .login, auth := none,
           interval := none, onboarding := none }

/-- An expired session is a reset. -/
def handleAuthError (s : RouterState) (error : Failure) : Option RouterState :=
  if unauthorized error then some s.signOut else none

def clearActionError (s : RouterState) : RouterState := { s with actionError := "" }

/-- A warning about a server stays. -/
def clearWarning (s : RouterState) : RouterState :=
  if s.warningServerKey.isNone then { s with actionWarning := "" } else s

/-! ## What the methods write -/

def pollStarted (s : RouterState) : RouterState := { s with pollInFlight := true }

def pollFinished (s : RouterState) : RouterState := { s with loading := false, pollInFlight := false }

/-- A poll has brought a status. -/
def polled (s : RouterState) (nextStatus : Status) : RouterState :=
  { s with
    currentStatus := some nextStatus
    statusUncertain := false
    actionError := if s.actionError = refreshRequired then "" else s.actionError
    pollError := "" }.clearWarning

/-- The status stays as it was. -/
def pollFailed (s : RouterState) (error : Failure) : RouterState := { s with pollError := message error }

/-- Polls that were sent before are old from now on. -/
def mutationStarted (s : RouterState) (kind : String) : RouterState :=
  { s with statusVersion := s.statusVersion + 1, mutation := some kind, actionError := "" }

def mutationSucceeded (s : RouterState) : RouterState := { s with pollError := "", mutation := none }

/-- A committed change is a warning, not an error. -/
def mutationFailed (s : RouterState) (kind : String) (error : Failure) : RouterState :=
  if error.api && error.committed then
    { s with warningKind := kind, actionWarning := committedWarning, mutation := none }
  else { s with actionError := message error, mutation := none }

/-- A mutation has brought a status. -/
def mutated (s : RouterState) (result : Status) : RouterState :=
  { s with currentStatus := some result, statusUncertain := false }.clearWarning

def uncertain (s : RouterState) : RouterState := { s with statusUncertain := true }

def onboardingStarted (s : RouterState) : RouterState :=
  { s with onboardingInFlight := true, onboardingLoading := true }

def onboardingFinished (s : RouterState) : RouterState :=
  { s with onboardingLoading := false, onboardingInFlight := false }

/-- The polls stop until setup is complete. -/
def onboarded (s : RouterState) (onboarding : OnboardingStatus) : RouterState :=
  let s := { s with onboarding := some onboarding }
  if onboarding.step = .complete then s else s.stopPolling

def completed (s : RouterState) (onboarding : OnboardingStatus) : RouterState :=
  { s with onboarding := some onboarding }

def actionFailed (s : RouterState) (actionError : String) : RouterState :=
  { s with actionError := actionError }

/-- Whatever is in flight is of an older generation from now on. -/
def initializing (s : RouterState) : RouterState :=
  { s.stop with authLoading := true, authError := "" }

def signingIn (s : RouterState) : RouterState := { s.stop with authError := "" }

/-- The panel forgets what it knew. -/
def loggingOut (s : RouterState) : RouterState :=
  { s.stop with
    authLoading := true
    currentStatus := none
    authState := .login
    auth := none
    onboarding := none
    actionError := ""
    actionWarning := ""
    authError := "" }

def initialized (s : RouterState) (auth : AuthStatus) : RouterState :=
  { s.applyAuth auth with loading := decide (auth.state = .authenticated) }

/-- Without an answer the panel asks for the password. -/
def initializeFailed (s : RouterState) (error : Failure) : RouterState :=
  { s with authState := .login, auth := none, authError := message error, loading := false }

def authFinished (s : RouterState) : RouterState := { s with authLoading := false }

def signedIn (s : RouterState) (auth : AuthStatus) : RouterState :=
  { s.applyAuth auth with loading := s.loading || auth.state = .authenticated }

def authFailed (s : RouterState) (authError : String) : RouterState := { s with authError := authError }

/-- `setupAuth` also notes that the setup window is closed. -/
def signInFailed (s : RouterState) (setup : Bool) (error : Failure) : RouterState :=
  { s.authFailed (message error) with
    setupClosed := s.setupClosed || (setup && error.message = "setup_closed") }

/-- A change of the password is a mutation. -/
def passwordStarted (s : RouterState) : RouterState :=
  { s with authVersion := s.authVersion + 1, authLoading := false, mutation := some "password" }

/-- A new session goes on with the polls and the setup of the old one. -/
def passwordChanged (s : RouterState) (auth : AuthStatus) : RouterState :=
  { s with auth := some auth, authState := auth.state, authError := "", mutation := none }

/-- Without a text the error stays. -/
def passwordFailed (s : RouterState) (authError : Option String) : RouterState :=
  { s with authError := authError.getD s.authError, mutation := none }

def inventoryStarted (s : RouterState) : RouterState := { s with inventoryLoading := true }

def inventoryFinished (s : RouterState) : RouterState := { s with inventoryLoading := false }

/-- The devices of the last answer. -/
def inventoryLoaded (s : RouterState) (inventory : LanDevices) : RouterState :=
  { s with lanDevices := inventory, inventoryError := "" }

/-- The devices stay listed. -/
def inventoryFailed (s : RouterState) (error : Failure) : RouterState :=
  { s with lanDevices := { s.lanDevices with discovery := .unavailable }, inventoryError := message error }

end RouterState

/-! ## Tasks -/

/-- Who awaits a `mutateResult`, with the generation it has captured. -/
inductive After
  | caller
  | mutate
  | inspect (key : String)
  | completeOnboarding
deriving DecidableEq

/-- What is left of a method after an `await`. -/
inductive Task
  | refresh (version authVersion generation : ℕ)
  | mutation (kind : String) (generation : ℕ) (after : After)
  | mutated (value : Option Value) (generation : ℕ) (after : After)
  | onboarding (version generation authVersion : ℕ)
  | onboardingRefreshed (child : Option ℕ) (complete : Bool) (version generation : ℕ)
  | authStatus (authVersion generation : ℕ)
  | onboarded (child : Option ℕ) (authVersion generation : ℕ)
  | signIn (setup : Bool) (authVersion generation : ℕ)
  | logout (authVersion generation : ℕ)
  | changePassword (authVersion generation : ℕ)
  | lanDevices (authVersion generation : ℕ)
  | testRouting (authVersion generation : ℕ)
deriving DecidableEq

/-- The generation that a task has captured. -/
def Task.generation : Task → ℕ
  | .refresh _ _ g | .mutation _ g _ | .mutated _ g _ | .onboarding _ g _
  | .onboardingRefreshed _ _ _ g | .authStatus _ g | .onboarded _ _ g | .signIn _ _ g
  | .logout _ g | .changePassword _ g | .lanDevices _ g | .testRouting _ g => g

/-- A status request was sent, a mutation has ended; numbers are those of the tasks. -/
inductive Entry
  | polled (task : ℕ)
  | ended (task generation : ℕ)
deriving DecidableEq

/-- The state, what is in flight, and the log of polls. -/
structure Store where
  state : RouterState
  tasks : ℕ → Option Task
  next : ℕ
  log : List Entry

/-- The panel has just been loaded. -/
def Store.initial : Store := ⟨.initial, fun _ => none, 0, []⟩

namespace Store

def set (s : Store) (state : RouterState) : Store := { s with state := state }

/-- A method reaches an `await`. -/
def spawn (s : Store) (task : Task) : Store :=
  { s with tasks := Function.update s.tasks s.next (some task), next := s.next + 1 }

/-- The method whose task that was reaches its next `await`. -/
def put (s : Store) (id : ℕ) (task : Task) : Store :=
  { s with tasks := Function.update s.tasks id (some task) }

def drop (s : Store) (id : ℕ) : Store := { s with tasks := Function.update s.tasks id none }

def note (s : Store) (entry : Entry) : Store := { s with log := entry :: s.log }

/-! ## Methods up to their first `await` -/

/-- `refresh`, with the number of its request if it sends one. -/
def refresh (s : Store) : Store × Option ℕ :=
  if s.state.pollInFlight || s.state.mutation.isSome then (s, none)
  else
    (((s.set s.state.pollStarted).note (.polled s.next)).spawn
      (.refresh s.state.statusVersion s.state.authVersion s.state.generation), some s.next)

/-- A change of the router, unless there is one already. -/
def mutateResult (s : Store) (kind : String) (after : After) : Store :=
  if s.state.busy then s
  else
    (s.set (s.state.mutationStarted kind)).spawn (.mutation kind s.state.generation after)

/-- A change whose answer is the new status. -/
def mutate (s : Store) (kind : String) : Store := s.mutateResult kind .mutate

/-- A poll now, and then by the timer. -/
def startPolling (s : Store) : Store :=
  if s.state.interval.isSome then s
  else
    let s := s.refresh.1
    s.set { s.state with interval := some s.state.generation }

/-- `loadOnboarding`, with the number of its request if it sends one. -/
def loadOnboarding (s : Store) : Store × Option ℕ :=
  if s.state.authState ≠ .authenticated || s.state.onboardingInFlight then (s, none)
  else
    ((s.set s.state.onboardingStarted).spawn
      (.onboarding s.state.onboardingVersion s.state.generation s.state.authVersion), some s.next)

/-- The first request of the panel. -/
def initializeAuth (s : Store) : Store :=
  let s := s.set s.state.initializing
  s.spawn (.authStatus s.state.authVersion s.state.generation)

/-- A setup or a login. -/
def signIn (s : Store) (setup : Bool) : Store :=
  let s := s.set s.state.signingIn
  s.spawn (.signIn setup s.state.authVersion s.state.generation)

def setupAuth (s : Store) : Store := s.signIn true
def loginAuth (s : Store) : Store := s.signIn false

/-- The session ends whatever the answer. -/
def logoutAuth (s : Store) : Store :=
  let s := s.set s.state.loggingOut
  s.spawn (.logout s.state.authVersion s.state.generation)

/-- A mutation of its own kind. -/
def changePassword (s : Store) : Store :=
  if s.state.busy || s.state.authState ≠ .authenticated then s
  else
    let s := s.set s.state.passwordStarted
    s.spawn (.changePassword s.state.authVersion s.state.generation)

def fail (s : Store) (actionError : String) : Store := s.set (s.state.actionFailed actionError)

/-- With an uncertain status nothing is sent. -/
def requireFreshStatus (s : Store) : Store × Bool :=
  if !s.state.statusUncertain then (s, true) else (s.fail refreshRequired, false)

/-- The mode that there is already is not set again. -/
def setMode (s : Store) (vpnEnabled : Bool) : Store :=
  if s.state.busy then s
  else match s.requireFreshStatus with
    | (s, false) => s
    | (s, true) =>
      if s.state.currentStatus.any fun status =>
          status.vpn_enabled == vpnEnabled && (!vpnEnabled || status.tunnel_active) then s
      else s.mutate "mode"

/-- The server that is active already is not selected again. -/
def selectServer (s : Store) (publicKey : String) : Store :=
  if s.state.busy then s
  else match s.requireFreshStatus with
    | (s, false) => s
    | (s, true) =>
      if s.state.currentStatus.any (·.active_server_key = some publicKey) then s
      else s.mutate ("select:" ++ publicKey)

def startUpdate (s : Store) : Store := s.mutate "update"
def setAutoUpdate (s : Store) : Store := s.mutate "auto-update"
def importServer (s : Store) : Store := s.mutate "import-server"
def updateServer (s : Store) (previousPublicKey : String) : Store :=
  s.mutate ("edit:" ++ previousPublicKey)
def removeServer (s : Store) (publicKey : String) : Store := s.mutate ("delete:" ++ publicKey)
def bootstrapServer (s : Store) : Store := s.mutate "bootstrap-server"
def saveRouting (s : Store) : Store := s.mutate "routing"

def resetHostPin (s : Store) : Store := s.mutateResult "reset-host-pin" .caller

/-- The methods for managed servers leave the answer to their caller. -/
def checkServer (s : Store) (publicKey : String) : Store :=
  s.mutateResult ("check:" ++ publicKey) .caller
def updateManagedServer (s : Store) (publicKey : String) : Store :=
  s.mutateResult ("update:" ++ publicKey) .caller
def createFriendProfile (s : Store) (publicKey : String) : Store :=
  s.mutateResult ("profile:" ++ publicKey) .caller
def inspectServer (s : Store) (publicKey : String) : Store :=
  s.mutateResult ("inspect:" ++ publicKey) (.inspect publicKey)
def restartServer (s : Store) (publicKey : String) : Store :=
  s.mutateResult ("restart:" ++ publicKey) .caller
def setWarp (s : Store) (publicKey : String) : Store :=
  s.mutateResult ("warp:" ++ publicKey) .caller
def createFriend (s : Store) (publicKey : String) : Store :=
  s.mutateResult ("friend-create:" ++ publicKey) .caller
def renameFriend (s : Store) (publicKey : String) : Store :=
  s.mutateResult ("friend-rename:" ++ publicKey) .caller
def revokeFriend (s : Store) (publicKey : String) : Store :=
  s.mutateResult ("friend-revoke:" ++ publicKey) .caller
def friendProfile (s : Store) (publicKey : String) : Store :=
  s.mutateResult ("friend-profile:" ++ publicKey) .caller
def completeOnboarding (s : Store) : Store :=
  s.mutateResult "onboarding-complete" .completeOnboarding

/-- One inventory at a time. -/
def refreshLanDevices (s : Store) : Store :=
  if s.state.inventoryLoading || s.state.authState ≠ .authenticated then s
  else
    (s.set s.state.inventoryStarted).spawn (.lanDevices s.state.authVersion s.state.generation)

/-- A question that changes nothing. -/
def testRouting (s : Store) : Store :=
  s.spawn (.testRouting s.state.authVersion s.state.generation)

/-- The change needs a status that is certain. -/
def setDeviceExcluded [Schemas] (s : Store) (mac : String) (excluded : Bool) : Store :=
  if s.state.busy || s.state.authState ≠ .authenticated then s
  else match s.state.currentStatus with
    | none => s.fail refreshRequired
    | some status =>
      if s.state.pollError ≠ "" || s.state.statusUncertain then s.fail refreshRequired
      else match Schemas.deviceExclusionInput mac excluded with
        | .error issue => s.fail issue
        | .ok (mac, excluded) =>
          let saved := status.device_exclusions
          if excluded && !saved.contains mac && !Schemas.deviceExclusions (saved ++ [mac]) then
            s.fail "Можно сохранить не более 256 устройств."
          else s.mutate ("device-exclusion:" ++ mac)

/-! ## Answers -/

/-- `finally` of `refresh`. -/
def pollDone (s : Store) (generation : ℕ) : Store :=
  if generation = s.state.generation then s.set s.state.pollFinished else s

/-- `refresh` after its `await`. -/
def refreshed (s : Store) (version authVersion generation : ℕ) (answer : Except Failure Status) :
    Store :=
  match answer with
  | .ok nextStatus =>
    if generation = s.state.generation ∧ version = s.state.statusVersion then
      (s.set (s.state.polled nextStatus)).pollDone generation
    else s.pollDone generation
  | .error error =>
    if generation ≠ s.state.generation ∨ authVersion ≠ s.state.authVersion then s.pollDone generation
    else match s.state.handleAuthError error with
      | some state => s.set state
      | none =>
        if version = s.state.statusVersion then
          (s.set (s.state.pollFailed error)).pollDone generation
        else s.pollDone generation

/-- `mutateResult` after its `await`: its result goes to who awaits it. -/
def mutationEnded (s : Store) (id : ℕ) (kind : String) (generation : ℕ) (after : After)
    (answer : Except Failure Value) : Store :=
  if generation ≠ s.state.generation then s.put id (.mutated none generation after)
  else match answer with
    | .ok value => (s.set s.state.mutationSucceeded).put id (.mutated (some value) generation after)
    | .error error => match s.state.handleAuthError error with
      | some state => (s.set state).put id (.mutated none generation after)
      | none => (s.set (s.state.mutationFailed kind error)).put id (.mutated none generation after)

/-- What `mutate`, `inspectServer` and `completeOnboarding` do with a result. -/
def mutated (s : Store) (value : Option Value) (generation : ℕ) (after : After) : Store :=
  if generation ≠ s.state.generation then s
  else match after, value with
    | .caller, _ => s
    | .mutate, some (.status result) => s.set (s.state.mutated result)
    | .mutate, _ => s.set s.state.uncertain
    | .inspect key, some _ =>
      if s.state.warningServerKey = some key then s.set { s.state with actionWarning := "" } else s
    | .inspect _, none => s
    | .completeOnboarding, some (.onboarding result) => (s.set (s.state.completed result)).startPolling
    | .completeOnboarding, _ => s

/-- `finally` of `loadOnboarding`. -/
def onboardingDone (s : Store) (version generation : ℕ) : Store :=
  if generation = s.state.generation ∧ version = s.state.onboardingVersion then
    s.set s.state.onboardingFinished
  else s

/-- `loadOnboarding` after the poll that it has waited for. -/
def onboardingRefreshed (s : Store) (complete : Bool) (version generation : ℕ) : Store :=
  if generation ≠ s.state.generation then s
  else if complete then s.startPolling.onboardingDone version generation
  else s.onboardingDone version generation

/-- `loadOnboarding` after its first `await`. -/
def onboardingLoaded (s : Store) (id version generation authVersion : ℕ)
    (answer : Except Failure OnboardingStatus) : Store :=
  match answer with
  | .ok onboarding =>
    if generation ≠ s.state.generation ∨ version ≠ s.state.onboardingVersion ∨
        s.state.authState ≠ .authenticated then s.onboardingDone version generation
    else
      let s := s.set (s.state.onboarded onboarding)
      if onboarding.step = .server ∧ (!s.state.hasStatus || s.state.statusUncertain) then
        s.refresh.1.put id (.onboardingRefreshed s.refresh.2 false version generation)
      else s.onboardingRefreshed (onboarding.step = .complete) version generation
  | .error error =>
    if generation ≠ s.state.generation ∨ authVersion ≠ s.state.authVersion ∨
        version ≠ s.state.onboardingVersion ∨ s.state.authState ≠ .authenticated then
      s.onboardingDone version generation
    else match s.state.handleAuthError error with
      | some state => s.set state
      | none => (s.fail (RouterState.message error)).onboardingDone version generation

/-- The request belongs to an older generation or session. -/
def superseded (s : Store) (authVersion generation : ℕ) : Prop :=
  generation ≠ s.state.generation ∨ authVersion ≠ s.state.authVersion

instance (s : Store) (authVersion generation : ℕ) : Decidable (s.superseded authVersion generation) :=
  inferInstanceAs (Decidable (_ ∨ _))

/-- `finally` of `initializeAuth` and `logoutAuth`. -/
def authDone (s : Store) (authVersion generation : ℕ) : Store :=
  if s.superseded authVersion generation then s else s.set s.state.authFinished

/-- An error after which the session may be over. -/
def authFailed (s : Store) (state : RouterState) (error : Failure) : Store :=
  s.set ((state.handleAuthError error).getD state)

/-- `initializeAuth` after its `await`. -/
def authInitialized (s : Store) (id authVersion generation : ℕ) (answer : Except Failure AuthStatus) :
    Store :=
  if s.superseded authVersion generation then s
  else match answer with
    | .ok auth =>
      let s := s.set (s.state.initialized auth)
      if auth.state = .authenticated then
        s.loadOnboarding.1.put id (.onboarded s.loadOnboarding.2 authVersion generation)
      else s.authDone authVersion generation
    | .error error => (s.set (s.state.initializeFailed error)).authDone authVersion generation

/-- `setupAuth` and `loginAuth` after their `await`. -/
def signedIn (s : Store) (setup : Bool) (authVersion generation : ℕ)
    (answer : Except Failure AuthStatus) : Store :=
  if s.superseded authVersion generation then s
  else match answer with
    | .ok auth =>
      let s := s.set (s.state.signedIn auth)
      if auth.state = .authenticated then s.loadOnboarding.1 else s
    | .error error => s.authFailed (s.state.signInFailed setup error) error

/-- `logoutAuth` after its `await`. -/
def loggedOut (s : Store) (authVersion generation : ℕ) (answer : Except Failure AuthStatus) : Store :=
  if s.superseded authVersion generation then s
  else match answer with
    | .ok auth => (s.set (s.state.applyAuth auth)).authDone authVersion generation
    | .error error =>
      (s.authFailed (s.state.authFailed (RouterState.message error)) error).authDone authVersion
        generation

/-- `changePassword` after its `await`. -/
def passwordChanged (s : Store) (authVersion generation : ℕ) (answer : Except Failure AuthStatus) :
    Store :=
  if s.superseded authVersion generation then s
  else
    -- A reply in another state is an error of the same request.
    let failed (error : Failure) : Store :=
      let uncertain := error.api && (error.status.isNone || error.status.any (500 ≤ ·))
      let text := if uncertain then passwordUncertain else RouterState.message error
      match s.state.handleAuthError error with
      | some state => s.set (state.authFailed text)
      | none => s.set (s.state.passwordFailed (if uncertain then some text else none))
    match answer with
    | .ok auth =>
      if auth.state = .authenticated then s.set (s.state.passwordChanged auth)
      else failed ⟨true, "Unexpected password reply", none, false⟩
    | .error error => failed error

/-- `finally` of `refreshLanDevices`. -/
def inventoryDone (s : Store) (generation : ℕ) : Store :=
  if generation = s.state.generation then s.set s.state.inventoryFinished else s

/-- `refreshLanDevices` after its `await`. -/
def lanDevicesLoaded (s : Store) (authVersion generation : ℕ) (answer : Except Failure LanDevices) :
    Store :=
  if s.superseded authVersion generation then s.inventoryDone generation
  else match answer with
    | .ok inventory => (s.set (s.state.inventoryLoaded inventory)).inventoryDone generation
    | .error error => match s.state.handleAuthError error with
      | some state => s.set state
      | none => (s.set (s.state.inventoryFailed error)).inventoryDone generation

/-- `testRouting` after its `await`; a result goes to the page only. -/
def routingTested (s : Store) (authVersion generation : ℕ) (answer : Except Failure Unit) : Store :=
  match answer with
  | .ok _ => s
  | .error error =>
    if s.superseded authVersion generation then s else s.authFailed s.state error

/-! ## Steps -/

/-- The task is no longer in flight. -/
def finished (s : Store) (child : Option ℕ) : Bool := child.all fun id => (s.tasks id).isNone

/-- An answer reaches the task that awaits it; `s` is the store without the task. -/
def answer (s : Store) (id : ℕ) (task : Task) (response : Except Failure Value) : Option Store :=
  match task, response with
  | .refresh version authVersion generation, .ok (.status status) =>
    some (s.refreshed version authVersion generation (.ok status))
  | .refresh version authVersion generation, .error error =>
    some (s.refreshed version authVersion generation (.error error))
  | .mutation kind generation after, response =>
    some ((s.note (.ended id generation)).mutationEnded id kind generation after response)
  | .onboarding version generation authVersion, .ok (.onboarding onboarding) =>
    some (s.onboardingLoaded id version generation authVersion (.ok onboarding))
  | .onboarding version generation authVersion, .error error =>
    some (s.onboardingLoaded id version generation authVersion (.error error))
  | .authStatus authVersion generation, .ok (.auth auth) =>
    some (s.authInitialized id authVersion generation (.ok auth))
  | .authStatus authVersion generation, .error error =>
    some (s.authInitialized id authVersion generation (.error error))
  | .signIn setup authVersion generation, .ok (.auth auth) =>
    some (s.signedIn setup authVersion generation (.ok auth))
  | .signIn setup authVersion generation, .error error =>
    some (s.signedIn setup authVersion generation (.error error))
  | .logout authVersion generation, .ok (.auth auth) =>
    some (s.loggedOut authVersion generation (.ok auth))
  | .logout authVersion generation, .error error =>
    some (s.loggedOut authVersion generation (.error error))
  | .changePassword authVersion generation, .ok (.auth auth) =>
    some (s.passwordChanged authVersion generation (.ok auth))
  | .changePassword authVersion generation, .error error =>
    some (s.passwordChanged authVersion generation (.error error))
  | .lanDevices authVersion generation, .ok (.lanDevices inventory) =>
    some (s.lanDevicesLoaded authVersion generation (.ok inventory))
  | .lanDevices authVersion generation, .error error =>
    some (s.lanDevicesLoaded authVersion generation (.error error))
  | .testRouting authVersion generation, .ok .other =>
    some (s.routingTested authVersion generation (.ok ()))
  | .testRouting authVersion generation, .error error =>
    some (s.routingTested authVersion generation (.error error))
  | _, _ => none

/-- A method goes on after one that it has awaited has returned. -/
def resume (s : Store) (task : Task) : Option Store :=
  match task with
  | .mutated value generation after => some (s.mutated value generation after)
  | .onboardingRefreshed child complete version generation =>
    if s.finished child then some (s.onboardingRefreshed complete version generation) else none
  | .onboarded child authVersion generation =>
    if s.finished child then some (s.authDone authVersion generation) else none
  | _ => none

end Store

/-- A method that a page calls. -/
inductive Method
  | refresh | startPolling | stopPolling | stop | clearActionError | loadOnboarding
  | initializeAuth | setupAuth | loginAuth | logoutAuth | changePassword
  | setMode (vpnEnabled : Bool) | selectServer (publicKey : String) | startUpdate | setAutoUpdate
  | importServer | updateServer (publicKey : String) | removeServer (publicKey : String)
  | bootstrapServer | saveRouting | resetHostPin | checkServer (publicKey : String)
  | updateManagedServer (publicKey : String) | createFriendProfile (publicKey : String)
  | inspectServer (publicKey : String) | restartServer (publicKey : String)
  | setWarp (publicKey : String) | createFriend (publicKey : String)
  | renameFriend (publicKey : String) | revokeFriend (publicKey : String)
  | friendProfile (publicKey : String) | completeOnboarding | refreshLanDevices | testRouting
  | setDeviceExcluded (mac : String) (excluded : Bool)

/-- What a method does up to its first `await`. -/
def Store.call [Schemas] (s : Store) : Method → Store
  | .refresh => s.refresh.1
  | .startPolling => s.startPolling
  | .stopPolling => s.set s.state.stopPolling
  | .stop => s.set s.state.stop
  | .clearActionError => s.set s.state.clearActionError
  | .loadOnboarding => s.loadOnboarding.1
  | .initializeAuth => s.initializeAuth
  | .setupAuth => s.setupAuth
  | .loginAuth => s.loginAuth
  | .logoutAuth => s.logoutAuth
  | .changePassword => s.changePassword
  | .setMode vpnEnabled => s.setMode vpnEnabled
  | .selectServer key => s.selectServer key
  | .startUpdate => s.startUpdate
  | .setAutoUpdate => s.setAutoUpdate
  | .importServer => s.importServer
  | .updateServer key => s.updateServer key
  | .removeServer key => s.removeServer key
  | .bootstrapServer => s.bootstrapServer
  | .saveRouting => s.saveRouting
  | .resetHostPin => s.resetHostPin
  | .checkServer key => s.checkServer key
  | .updateManagedServer key => s.updateManagedServer key
  | .createFriendProfile key => s.createFriendProfile key
  | .inspectServer key => s.inspectServer key
  | .restartServer key => s.restartServer key
  | .setWarp key => s.setWarp key
  | .createFriend key => s.createFriend key
  | .renameFriend key => s.renameFriend key
  | .revokeFriend key => s.revokeFriend key
  | .friendProfile key => s.friendProfile key
  | .completeOnboarding => s.completeOnboarding
  | .refreshLanDevices => s.refreshLanDevices
  | .testRouting => s.testRouting
  | .setDeviceExcluded mac excluded => s.setDeviceExcluded mac excluded

/-- Methods are called, the timer fires, and answers come in any order. -/
inductive Event
  | call (method : Method)
  | timer
  | respond (task : ℕ) (response : Except Failure Value)
  | resume (task : ℕ)

/-- One step of the panel. -/
def step [Schemas] (s : Store) : Event → Store
  | .call method => s.call method
  | .timer => if s.state.interval = some s.state.generation then s.refresh.1 else s
  | .respond id response =>
    match s.tasks id with
    | some task => ((s.drop id).answer id task response).getD s
    | none => s
  | .resume id =>
    match s.tasks id with
    | some task => ((s.drop id).resume task).getD s
    | none => s

end Gofro.Web
