import Mathlib.Logic.Function.Basic
import HerdrMobile.Proto.Messages

/-!
# The connection of a Device

`RelayConnection` with the biometric gate. A step runs one handler, or one piece of a
`connect` call, of a pump of incoming frames or of a closing socket, from one `await` to the
next. Every attempt opens at most one socket, so a socket has the number of its attempt, and
so has the session on it.
-/
namespace HerdrMobile.App.Connection

open HerdrMobile.Proto.Messages

set_option autoImplicit false

/-- The relay origin and the routing handle. -/
structure Address where
  origin : Text
  handle : Text
  deriving DecidableEq

inductive Mode where
  | pairing
  | reconnect (remoteStaticPublicKey : Text)
  deriving DecidableEq

/-- `_ConnectParams`. -/
structure Params where
  address : Address
  pinnedHostKey : Text
  deriving DecidableEq

inductive RegistrationCode where
  | handleUnknown
  | handleTaken
  | hostInUse
  | pairingExpired
  deriving DecidableEq

/-- The `cause` of an `Err`: `connect` is a `RelayConnectException`, `locked` a
`NoiseSessionLockedException`, `notConnected` a `RelayNotConnectedException`. -/
inductive Cause where
  | connect
  | locked
  | notConnected
  | registration (code : RegistrationCode)
  deriving DecidableEq

/-- How `connect` ends: `cancelled` is the exception of a cancelled pairing, and `thrown` any
other throwable. -/
inductive Result where
  | ok
  | err (cause : Cause)
  | cancelled
  | thrown
  deriving DecidableEq

/-- Who calls `connect`: a person, the reconnect timer, or the return to the foreground. -/
inductive Caller where
  | person
  | timer
  | resume
  deriving DecidableEq

/-- What `connect` waits for. `failing` and `closing` are the two waits of its handlers of
exceptions; the caller has not seen a `returned` result yet. -/
inductive Phase where
  | unlocking
  | closingOld
  | opening
  | registering
  | handshake
  | hostInfo
  | mismatch
  | deviceInfo
  | failing (result : Result)
  | closing (result : Result)
  | returned (result : Result)
  | over (result : Result)
  deriving DecidableEq

/-- What a pump does after it has closed its socket. -/
inductive After where
  | reschedule
  | revoked
  deriving DecidableEq

/-- What `_pumpIncoming` waits for. -/
inductive Pump where
  | off
  | reading
  | decoding
  | closing (after : After)
  | done
  deriving DecidableEq

/-- `leaving` is that the `disconnect` frame of the socket is on its way and its close is to
follow. `asked` and `ended` are what the connection was asked for and whether it was ended
when the call was made, and `lockings` how often the app had been locked when the attempt took
its generation: they are kept for the statements, and no step reads them. -/
structure Attempt where
  caller : Caller
  address : Address
  mode : Mode
  generation : Nat
  lockGeneration : Nat
  phase : Phase
  cancelled : Bool
  opened : Bool
  installed : Bool
  leaving : Bool
  closeAsked : Bool
  pump : Pump
  asked : Option (Address × Mode)
  ended : Bool
  lockings : Nat

def Attempt.new (caller : Caller) (address : Address) (mode : Mode) (phase : Phase)
    (asked : Option (Address × Mode)) (ended : Bool) : Attempt where
  caller := caller
  address := address
  mode := mode
  generation := 0
  lockGeneration := 0
  phase := phase
  cancelled := false
  opened := false
  installed := false
  leaving := false
  closeAsked := false
  pump := .off
  asked := asked
  ended := ended
  lockings := 0

/-- `BiometricGate`: it holds a key exactly while `_locked` is false. -/
structure Gate where
  appLockEnabled : Bool
  locked : Bool
  lockGeneration : Nat
  deriving DecidableEq

def Gate.isLocked (g : Gate) : Bool := g.appLockEnabled && g.locked

/-- A timer that was cancelled but not set to null is `spent`. -/
inductive Timer where
  | idle
  | pending (params : Params)
  | spent
  deriving DecidableEq

structure Broadcast where
  generation : Nat
  session : Nat
  deriving DecidableEq

/-- A message that reached a listener, with the generation and the session that were current
then. -/
structure Delivery where
  generation : Nat
  session : Nat
  current : Option Nat
  isLocked : Bool
  lockings : Nat
  deriving DecidableEq

/-- The session has the number of its channel. `connected` are the attempts that have
published `RelayConnected`. `asked` is what the last explicit call of `connect` asked for,
`ended` that the person, a refusal or a revocation has ended the connection since, `stopped`
the same since the last session, and `lockings` how often the gate has told that it is locked:
no step reads these four. -/
structure RelayConnection where
  channel : Option Nat
  pendingChannel : Option Nat
  generation : Nat
  backgrounded : Bool
  disposed : Bool
  observed : Bool
  wasConnectedBeforeBackground : Bool
  lastParams : Option Params
  reconnectTimer : Timer
  gate : Gate
  attempt : Nat → Attempt
  made : Nat
  broadcasts : List Broadcast
  delivered : List Delivery
  connected : List Nat
  asked : Option (Address × Mode)
  ended : Bool
  stopped : Bool
  lockings : Nat

namespace RelayConnection

def start (appLockEnabled : Bool) : RelayConnection where
  channel := none
  pendingChannel := none
  generation := 0
  backgrounded := false
  disposed := false
  observed := false
  wasConnectedBeforeBackground := false
  lastParams := none
  reconnectTimer := .idle
  gate := ⟨appLockEnabled, true, 0⟩
  attempt := fun _ => .new .person ⟨[], []⟩ .pairing (.over .cancelled) none false
  made := 0
  broadcasts := []
  delivered := []
  connected := []
  asked := none
  ended := false
  stopped := false
  lockings := 0

def set (s : RelayConnection) (id : Nat) (a : Attempt) : RelayConnection :=
  { s with attempt := Function.update s.attempt id a }

section Set

variable (s : RelayConnection) (id : Nat) (a : Attempt)

theorem attempt_set : (s.set id a).attempt id = a := Function.update_self ..

theorem attempt_set_of_ne {id j : Nat} (h : j ≠ id) : (s.set id a).attempt j = s.attempt j :=
  Function.update_of_ne h ..

end Set

def goto (s : RelayConnection) (id : Nat) (phase : Phase) : RelayConnection :=
  s.set id { s.attempt id with phase := phase }

def turn (s : RelayConnection) (id : Nat) (pump : Pump) : RelayConnection :=
  s.set id { s.attempt id with pump := pump }

/-- `sink.close`. -/
def askClose (s : RelayConnection) (id : Nat) : RelayConnection :=
  s.set id { s.attempt id with closeAsked := true }

def isConnected (s : RelayConnection) : Bool := s.channel.isSome

/-- `_gate?.isLocked == true`. -/
def gateLocked (s : RelayConnection) : Bool := s.observed && s.gate.isLocked

/-- Whether a session is to be opened again on the return. -/
def remember (wasConnected : Bool) (s : RelayConnection) : RelayConnection :=
  { s with wasConnectedBeforeBackground := wasConnected }

/-- The sockets that are being opened are told as well; what comes of that is open. -/
def interruptPendingConnection (s : RelayConnection) : RelayConnection :=
  let s :=
    match s.pendingChannel with
    | none => s
    | some id => s.askClose id
  { s with generation := s.generation + 1, reconnectTimer := .idle, pendingChannel := none }

/-- Up to its first `await`: the `disconnect` frame comes before the close. -/
def closeCurrentSocket (sendDisconnectFrame : Bool) (s : RelayConnection) : RelayConnection :=
  match s.channel with
  | none => s
  | some id =>
    let s := { s with channel := none }
    if sendDisconnectFrame then s.set id { s.attempt id with leaving := true }
    else s.askClose id

def scheduleReconnect (s : RelayConnection) : RelayConnection :=
  match s.lastParams with
  | none => s
  | some params =>
    if s.disposed || s.backgrounded || s.gate.isLocked then s
    else { s with reconnectTimer := .pending params }

/-- The attempt is the current one from here on. -/
def take (id : Nat) (s : RelayConnection) : RelayConnection :=
  s.set id { s.attempt id with
    generation := s.generation
    lockGeneration := s.gate.lockGeneration
    lockings := s.lockings
    phase := .closingOld }

/-- A pairing forgets the computer before it. -/
def forgetFor (id : Nat) (s : RelayConnection) : RelayConnection :=
  if (s.attempt id).mode = .pairing then
    { s with lastParams := none, wasConnectedBeforeBackground := false }
  else s

/-- The rest of `connect` up to the close of the old socket, once a key was asked for. -/
def begin (id : Nat) (s : RelayConnection) : RelayConnection :=
  if (s.attempt id).cancelled then s.goto id (.returned .cancelled)
  else if s.gate.locked then s.goto id (.returned (.err .connect))
  else ((s.interruptPendingConnection.take id).forgetFor id).closeCurrentSocket false

/-- One more attempt. -/
def push (caller : Caller) (address : Address) (mode : Mode) (phase : Phase)
    (s : RelayConnection) : RelayConnection :=
  { s with made := s.made + 1 }.set s.made (.new caller address mode phase s.asked s.ended)

/-- The gate is asked for the key when it holds none. -/
def connect (caller : Caller) (address : Address) (mode : Mode) (s : RelayConnection) :
    RelayConnection :=
  if s.disposed || s.backgrounded || s.gate.isLocked then
    s.push caller address mode (.returned (.err .connect))
  else
    let t := { s with observed := true }.push caller address mode .unlocking
    if t.gate.locked then t else t.begin s.made

/-- `connect` for the saved computer. -/
def connectAgain (caller : Caller) (params : Params) (s : RelayConnection) : RelayConnection :=
  s.connect caller params.address (.reconnect params.pinnedHostKey)

/-- The timer is cancelled here and not set to null. -/
def resumed (s : RelayConnection) : RelayConnection :=
  let s := { s with backgrounded := false }
  match s.lastParams with
  | none => s
  | some params =>
    if !s.gate.isLocked && !s.isConnected && s.wasConnectedBeforeBackground then
      let s := { s with
        wasConnectedBeforeBackground := false
        reconnectTimer := if s.reconnectTimer = Timer.idle then .idle else .spent }
      s.connectAgain .resume params
    else s

def paused (s : RelayConnection) : RelayConnection :=
  let s := { s with backgrounded := true }.interruptPendingConnection
  if s.isConnected then
    (s.remember true).closeCurrentSocket true
  else s

/-- The gate has a listener from the first `connect` on until `dispose`. -/
def onGateChanged (s : RelayConnection) : RelayConnection :=
  if s.gate.isLocked then
    let wasConnected := s.wasConnectedBeforeBackground || s.isConnected ||
      (s.lastParams.isSome && s.pendingChannel.isSome)
    (s.remember wasConnected).interruptPendingConnection.closeCurrentSocket false
  else if !s.backgrounded && s.wasConnectedBeforeBackground then s.resumed
  else s

/-- `notifyListeners` of the gate. -/
def notify (s : RelayConnection) : RelayConnection :=
  let s := if s.gate.isLocked then { s with lockings := s.lockings + 1 } else s
  if s.observed && !s.disposed then s.onGateChanged else s

def onNetworkStable (s : RelayConnection) : RelayConnection :=
  if !s.disposed && !s.backgrounded && !s.gateLocked && s.lastParams.isSome && !s.isConnected &&
      s.reconnectTimer == Timer.idle then
    s.scheduleReconnect
  else s

def disconnect (s : RelayConnection) : RelayConnection :=
  let s := { s.remember false with ended := true, stopped := true }
  s.interruptPendingConnection.closeCurrentSocket true

/-- `checkAttempt`: what it throws. -/
def checkAttempt (s : RelayConnection) (id : Nat) : Option Result :=
  let a := s.attempt id
  if a.cancelled then some .cancelled
  else if s.disposed || s.backgrounded || s.gate.isLocked ||
      s.gate.lockGeneration != a.lockGeneration || a.generation != s.generation then
    some (.err .locked)
  else none

/-- `checkSession` of a frame that the attempt sends. -/
def mayUse (s : RelayConnection) (id : Nat) : Bool :=
  !s.disposed && !s.gateLocked && (s.attempt id).generation == s.generation &&
    (s.channel == some id || s.pendingChannel == some id)

/-- A piece of `connect` that runs only where the attempt is current. -/
def guarded (s : RelayConnection) (id : Nat) (next : RelayConnection) : RelayConnection :=
  match s.checkAttempt id with
  | some result => s.goto id (.failing result)
  | none => next

/-- The old socket is closed. -/
def oldClosed (id : Nat) (s : RelayConnection) : RelayConnection :=
  match s.checkAttempt id with
  | some result => s.goto id (.returned result)
  | none => s.goto id .opening

/-- The socket is open, or it could not be opened. -/
def opened (id : Nat) (success : Bool) (s : RelayConnection) : RelayConnection :=
  let a := s.attempt id
  if success then
    match s.checkAttempt id with
    | some result => s.set id { a with opened := true, phase := .failing result }
    | none =>
      { s with pendingChannel := some id }.set id { a with opened := true, phase := .registering }
  else
    let result :=
      if a.cancelled then .cancelled
      else if a.generation != s.generation || s.gate.isLocked then .err .locked
      else .err .connect
    s.goto id (.returned result)

/-- The answer of the relay. `unusable` is what is no text, and `unknown` what is no answer. -/
inductive Registration where
  | unusable
  | joined
  | refused (code : RegistrationCode)
  | unknown
  deriving DecidableEq

def registered (id : Nat) (answer : Registration) (s : RelayConnection) : RelayConnection :=
  match answer with
  | .unusable => s.goto id (.failing (.err .connect))
  | .joined => s.guarded id (s.goto id .handshake)
  | .refused code => s.guarded id (s.goto id (.failing (.err (.registration code))))
  | .unknown => s.guarded id (s.goto id (.failing (.err .connect)))

/-- `success` is that the handshake is complete. -/
def handshook (id : Nat) (success : Bool) (s : RelayConnection) : RelayConnection :=
  if success then s.guarded id (s.goto id .hostInfo)
  else s.goto id (.failing (.err .connect))

/-- The first frame of the Host. `closed` is the close code 4006, `unusable` any other end or
garbled frame, `other` another message, `newer` and `older` the protocol of the Host. -/
inductive FirstFrame where
  | closed
  | unusable
  | other
  | newer
  | older
  | good
  deriving DecidableEq

/-- The channel and the session become the current ones, and `device_info` is sent. -/
def install (id : Nat) (key : Text) (s : RelayConnection) : RelayConnection :=
  let s := { s with
    pendingChannel := none
    channel := some id
    stopped := false
    lastParams := some ⟨(s.attempt id).address, key⟩ }
  s.set id { s.attempt id with installed := true, phase := .deviceInfo }

def firstFrame (id : Nat) (frame : FirstFrame) (key : Text) (s : RelayConnection) : RelayConnection :=
  match frame with
  | .closed => s.goto id (.failing (.err (.registration .hostInUse)))
  | .unusable => s.goto id (.failing (.err .connect))
  | .other | .newer => s.guarded id (s.goto id (.failing (.err .connect)))
  | .older => s.guarded id (s.goto id .mismatch)
  | .good => s.guarded id (s.install id key)

/-- The error frame of a protocol mismatch is sent. -/
def mismatchSent (id : Nat) (s : RelayConnection) : RelayConnection :=
  s.goto id (.failing (.err (if s.mayUse id then .connect else .notConnected)))

/-- `device_info` is sent: `connect` has succeeded, and the pump begins. -/
def deviceInfoSent (id : Nat) (s : RelayConnection) : RelayConnection :=
  if s.mayUse id then
    s.guarded id
      ({ s with connected := id :: s.connected }.set id
        { s.attempt id with phase := .returned .ok, pump := .reading })
  else s.goto id (.failing (.err .notConnected))

/-- The `finally` of an attempt that had a socket. -/
def endAttempt (id : Nat) (result : Result) (s : RelayConnection) : RelayConnection :=
  { s with pendingChannel := if s.pendingChannel = some id then none else s.pendingChannel }.goto
    id (.returned result)

/-- The close of a failed attempt is done; a cancellation that came late is told instead. -/
def closed (id : Nat) (result : Result) (s : RelayConnection) : RelayConnection :=
  s.endAttempt id (if (s.attempt id).cancelled then .cancelled else result)

inductive ReconnectStep where
  | reuseHandle
  | stop
  deriving DecidableEq

/-- `staleSlot` is that the own link dropped a short while ago. -/
def afterFailure (cause : Cause) (staleSlot : Bool) : ReconnectStep :=
  match cause with
  | .registration .handleUnknown => .reuseHandle
  | .registration .hostInUse => if staleSlot then .reuseHandle else .stop
  | .registration _ => .stop
  | _ => .reuseHandle

/-- The caller goes on: only the timer looks at the result. -/
def returns (id : Nat) (result : Result) (staleSlot : Bool) (s : RelayConnection) : RelayConnection :=
  let s' := s.goto id (.over result)
  match (s.attempt id).caller, result with
  | .timer, .err cause =>
    match afterFailure cause staleSlot with
    | .reuseHandle => s'.scheduleReconnect
    | .stop => { s' with ended := true, stopped := true }
  | _, _ => s'

/-- A cancelled attempt that had got through has its session closed and forgotten. -/
def cancel (id : Nat) (s : RelayConnection) : RelayConnection :=
  let s := s.set id { s.attempt id with cancelled := true }
  if s.channel = some id then
    { s with
      lastParams := none, wasConnectedBeforeBackground := false, reconnectTimer := .idle,
      ended := true, stopped := true }.closeCurrentSocket false
  else if (s.attempt id).opened then s.askClose id
  else s

/-- The `finally` of a pump, which is all that is left to do when the stream has ended. -/
def pumpEnds (id : Nat) (revoked : Bool) (s : RelayConnection) : RelayConnection :=
  if s.channel = some id then
    { (s.closeCurrentSocket false).turn id (.closing (if revoked then .revoked else .reschedule))
      with
        ended := s.ended || revoked
        stopped := s.stopped || revoked }
  else s.turn id .done

/-- What a decoded fragment comes to. -/
inductive Decoded where
  | nothing
  | message
  | violation
  | fatal (revoked : Bool)
  deriving DecidableEq

def broadcast (id : Nat) (s : RelayConnection) : RelayConnection :=
  { s with broadcasts := s.broadcasts ++ [⟨s.generation, id⟩] }

/-- A pump that is no longer the current one, or finds the app locked, ends. -/
def received (id : Nat) (s : RelayConnection) : RelayConnection :=
  if s.channel = some id && !s.gateLocked then s.turn id .decoding else s.pumpEnds id false

def decoded (id : Nat) (outcome : Decoded) (s : RelayConnection) : RelayConnection :=
  if s.channel = some id && !s.gateLocked then
    match outcome with
    | .nothing => s.turn id .reading
    | .message => (s.broadcast id).turn id .reading
    | .violation => s.pumpEnds id false
    | .fatal revoked => (s.broadcast id).pumpEnds id revoked
  else s.pumpEnds id false

/-- The socket of a pump is closed. -/
def pumpClosed (id : Nat) (after : After) (s : RelayConnection) : RelayConnection :=
  let s := s.turn id .done
  match after with
  | .reschedule => s.scheduleReconnect
  | .revoked => { s with lastParams := none }

/-- A listener gets a message that still belongs to the generation it was decrypted in. Every
listener does so at its own time. -/
def deliver (m : Broadcast) (s : RelayConnection) : RelayConnection :=
  if !s.disposed && !s.gateLocked && m.generation == s.generation then
    { s with delivered := ⟨s.generation, m.session, s.channel, s.gate.isLocked, s.lockings⟩ ::
        s.delivered }
  else s

/-- `key` is the static key of the Host that the handshake has ended with. -/
inductive Event where
  | connect (address : Address) (mode : Mode)
  | timerFires
  | paused
  | resumed
  | networkStable
  | lock
  | unlock
  | setAppLockEnabled (value : Bool)
  | disconnect
  | cancel (id : Nat)
  | dispose
  | disposed
  | unlockEnded (id : Nat)
  | oldClosed (id : Nat)
  | opened (id : Nat) (success : Bool)
  | registered (id : Nat) (answer : Registration)
  | handshook (id : Nat) (success : Bool)
  | firstFrame (id : Nat) (frame : FirstFrame) (key : Text)
  | mismatchSent (id : Nat)
  | deviceInfoSent (id : Nat)
  | threw (id : Nat)
  | iteratorCancelled (id : Nat)
  | closed (id : Nat)
  | returns (id : Nat) (staleSlot : Bool)
  | received (id : Nat)
  | decoded (id : Nat) (outcome : Decoded)
  | timedOut (id : Nat)
  | streamClosed (id : Nat) (revoked : Bool)
  | pumpClosed (id : Nat)
  | disconnectSent (id : Nat)
  | deliver (index : Nat)

/-- The key of a handshake with a known Host is the key it was known by. -/
def knows (a : Attempt) (key : Text) : Bool :=
  match a.mode with
  | .pairing => true
  | .reconnect remoteStaticPublicKey => remoteStaticPublicKey == key

def whenAt (s : RelayConnection) (id : Nat) (phase : Phase) (next : RelayConnection) : Option RelayConnection :=
  if (s.attempt id).phase = phase then some next else none

def step (s : RelayConnection) : Event → Option RelayConnection
  | .connect address mode =>
    some ({ s with asked := some (address, mode), ended := false }.connect .person address mode)
  | .timerFires =>
    match s.reconnectTimer with
    | .pending params => some ({ s with reconnectTimer := .idle }.connectAgain .timer params)
    | _ => none
  | .paused => some s.paused
  | .resumed => some s.resumed
  | .networkStable => some s.onNetworkStable
  | .lock =>
    some ({ s with gate := ⟨s.gate.appLockEnabled, true, s.gate.lockGeneration + 1⟩ }.notify)
  | .unlock =>
    if s.gate.locked then some ({ s with gate := { s.gate with locked := false } }.notify)
    else some s
  | .setAppLockEnabled value =>
    if s.gate.appLockEnabled = value then some s
    else some ({ s with gate := { s.gate with appLockEnabled := value } }.notify)
  | .disconnect => some s.disconnect
  | .cancel id =>
    if id < s.made ∧ (s.attempt id).caller = .person then some (s.cancel id) else none
  | .dispose => some { s with disposed := true }.interruptPendingConnection
  | .disposed => if s.disposed then some (s.closeCurrentSocket false) else none
  | .unlockEnded id => s.whenAt id .unlocking (s.begin id)
  | .oldClosed id => s.whenAt id .closingOld (s.oldClosed id)
  | .opened id success => s.whenAt id .opening (s.opened id success)
  | .registered id answer => s.whenAt id .registering (s.registered id answer)
  | .handshook id success => s.whenAt id .handshake (s.handshook id success)
  | .firstFrame id frame key =>
    if knows (s.attempt id) key then s.whenAt id .hostInfo (s.firstFrame id frame key) else none
  | .mismatchSent id => s.whenAt id .mismatch (s.mismatchSent id)
  | .deviceInfoSent id => s.whenAt id .deviceInfo (s.deviceInfoSent id)
  | .threw id =>
    match (s.attempt id).phase with
    | .registering | .handshake | .hostInfo => some (s.endAttempt id .thrown)
    | _ => none
  | .iteratorCancelled id =>
    match (s.attempt id).phase with
    | .failing result => some ((s.askClose id).goto id (.closing result))
    | _ => none
  | .closed id =>
    match (s.attempt id).phase with
    | .closing result => some (s.closed id result)
    | _ => none
  | .returns id staleSlot =>
    match (s.attempt id).phase with
    | .returned result => some (s.returns id result staleSlot)
    | _ => none
  | .received id => if (s.attempt id).pump = .reading then some (s.received id) else none
  | .decoded id outcome =>
    if (s.attempt id).pump = .decoding then some (s.decoded id outcome) else none
  | .timedOut id => if (s.attempt id).pump = .reading then some (s.pumpEnds id false) else none
  | .streamClosed id revoked =>
    match (s.attempt id).pump with
    | .reading | .decoding => some (s.pumpEnds id revoked)
    | _ => none
  | .pumpClosed id =>
    match (s.attempt id).pump with
    | .closing after => some (s.pumpClosed id after)
    | _ => none
  | .disconnectSent id =>
    if (s.attempt id).leaving then
      some (s.set id { s.attempt id with leaving := false, closeAsked := true })
    else none
  | .deliver index => s.broadcasts[index]?.map fun m => s.deliver m

/-- What a step does, with what it has found. -/
inductive Moved (s : RelayConnection) : Event → RelayConnection → Prop
  | connect (address : Address) (mode : Mode) : Moved s (.connect address mode)
      ({ s with asked := some (address, mode), ended := false }.connect .person address mode)
  | timerFires (params : Params) : s.reconnectTimer = .pending params →
      Moved s .timerFires ({ s with reconnectTimer := .idle }.connectAgain .timer params)
  | paused : Moved s .paused s.paused
  | resumed : Moved s .resumed s.resumed
  | networkStable : Moved s .networkStable s.onNetworkStable
  | lock : Moved s .lock
      ({ s with gate := ⟨s.gate.appLockEnabled, true, s.gate.lockGeneration + 1⟩ }.notify)
  | unlock : Moved s .unlock ({ s with gate := { s.gate with locked := false } }.notify)
  | unlocked : Moved s .unlock s
  | setAppLockEnabled (value : Bool) : s.gate.appLockEnabled ≠ value →
      Moved s (.setAppLockEnabled value)
        ({ s with gate := { s.gate with appLockEnabled := value } }.notify)
  | appLockKept (value : Bool) : Moved s (.setAppLockEnabled value) s
  | disconnect : Moved s .disconnect s.disconnect
  | cancel (id : Nat) : Moved s (.cancel id) (s.cancel id)
  | dispose : Moved s .dispose { s with disposed := true }.interruptPendingConnection
  | disposed : s.disposed = true → Moved s .disposed (s.closeCurrentSocket false)
  | unlockEnded (id : Nat) : (s.attempt id).phase = .unlocking →
      Moved s (.unlockEnded id) (s.begin id)
  | oldClosed (id : Nat) : (s.attempt id).phase = .closingOld →
      Moved s (.oldClosed id) (s.oldClosed id)
  | opened (id : Nat) (success : Bool) : (s.attempt id).phase = .opening →
      Moved s (.opened id success) (s.opened id success)
  | registered (id : Nat) (answer : Registration) : (s.attempt id).phase = .registering →
      Moved s (.registered id answer) (s.registered id answer)
  | handshook (id : Nat) (success : Bool) : (s.attempt id).phase = .handshake →
      Moved s (.handshook id success) (s.handshook id success)
  | firstFrame (id : Nat) (frame : FirstFrame) (key : Text) : (s.attempt id).phase = .hostInfo →
      knows (s.attempt id) key = true →
      Moved s (.firstFrame id frame key) (s.firstFrame id frame key)
  | mismatchSent (id : Nat) : (s.attempt id).phase = .mismatch →
      Moved s (.mismatchSent id) (s.mismatchSent id)
  | deviceInfoSent (id : Nat) : (s.attempt id).phase = .deviceInfo →
      Moved s (.deviceInfoSent id) (s.deviceInfoSent id)
  | threw (id : Nat) : (s.attempt id).phase ∈ [.registering, .handshake, .hostInfo] →
      Moved s (.threw id) (s.endAttempt id .thrown)
  | iteratorCancelled (id : Nat) (result : Result) : (s.attempt id).phase = .failing result →
      Moved s (.iteratorCancelled id) ((s.askClose id).goto id (.closing result))
  | closed (id : Nat) (result : Result) : (s.attempt id).phase = .closing result →
      Moved s (.closed id) (s.closed id result)
  | returns (id : Nat) (staleSlot : Bool) (result : Result) :
      (s.attempt id).phase = .returned result →
      Moved s (.returns id staleSlot) (s.returns id result staleSlot)
  | received (id : Nat) : (s.attempt id).pump = .reading → Moved s (.received id) (s.received id)
  | decoded (id : Nat) (outcome : Decoded) : (s.attempt id).pump = .decoding →
      Moved s (.decoded id outcome) (s.decoded id outcome)
  | timedOut (id : Nat) : (s.attempt id).pump = .reading →
      Moved s (.timedOut id) (s.pumpEnds id false)
  | streamClosed (id : Nat) (revoked : Bool) : (s.attempt id).pump ∈ [.reading, .decoding] →
      Moved s (.streamClosed id revoked) (s.pumpEnds id revoked)
  | pumpClosed (id : Nat) (after : After) : (s.attempt id).pump = .closing after →
      Moved s (.pumpClosed id) (s.pumpClosed id after)
  | disconnectSent (id : Nat) : (s.attempt id).leaving = true → Moved s (.disconnectSent id)
      (s.set id { s.attempt id with leaving := false, closeAsked := true })
  | deliver (index : Nat) (m : Broadcast) : s.broadcasts[index]? = some m →
      Moved s (.deliver index) (s.deliver m)

variable {s t next : RelayConnection} {id : Nat} {phase : Phase} {e : Event}

theorem some_of_whenAt (h : s.whenAt id phase next = some t) :
    (s.attempt id).phase = phase ∧ next = t := by
  unfold whenAt at h
  split at h
  · exact ⟨‹_›, Option.some.inj h⟩
  · cases h

theorem moved_of_step (hs : s.step e = some t) : s.Moved e t := by
  cases e with
  | connect | paused | resumed | networkStable | lock | disconnect | dispose =>
    cases hs
    constructor
  | timerFires =>
    simp only [step] at hs
    split at hs
    · cases hs
      exact .timerFires _ ‹_›
    · cases hs
  | unlock =>
    simp only [step] at hs
    split at hs
    · cases hs
      exact .unlock
    · cases hs
      exact .unlocked
  | setAppLockEnabled value =>
    simp only [step] at hs
    split at hs
    · cases hs
      exact .appLockKept value
    · cases hs
      exact .setAppLockEnabled value ‹_›
  | cancel id =>
    simp only [step] at hs
    split at hs
    · cases hs
      exact .cancel id
    · cases hs
  | unlockEnded | oldClosed | opened | registered | handshook | mismatchSent | deviceInfoSent =>
    obtain ⟨hphase, rfl⟩ := some_of_whenAt hs
    constructor
    exact hphase
  | firstFrame id frame key =>
    simp only [step] at hs
    split at hs
    · obtain ⟨hphase, rfl⟩ := some_of_whenAt hs
      exact .firstFrame id frame key hphase ‹_›
    · cases hs
  | threw id =>
    simp only [step] at hs
    split at hs
    · cases hs
      exact .threw id (by simp [*])
    · cases hs
      exact .threw id (by simp [*])
    · cases hs
      exact .threw id (by simp [*])
    · cases hs
  | streamClosed id revoked =>
    simp only [step] at hs
    split at hs
    · cases hs
      exact .streamClosed id revoked (by simp [*])
    · cases hs
      exact .streamClosed id revoked (by simp [*])
    · cases hs
  | disposed | iteratorCancelled | closed | returns | received | decoded | timedOut | pumpClosed
  | disconnectSent =>
    simp only [step] at hs
    split at hs
    · cases hs
      constructor
      assumption
    · cases hs
  | deliver index =>
    obtain ⟨m, hm, rfl⟩ := Option.map_eq_some_iff.mp hs
    exact .deliver index m hm

end RelayConnection

end HerdrMobile.App.Connection
