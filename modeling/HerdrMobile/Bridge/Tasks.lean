import Mathlib.Logic.Function.Basic
import HerdrMobile.Lib.Run
import HerdrMobile.Bridge.Host

/-!
# The tasks of the Host bridge

One registration loop for each paired device, one loop for each pairing that was
opened, and the start of the bridge. A step takes one task over one critical
section, or handles one control command or one revocation a Device sent. A task
whose handle was aborted may go on until it waits for something, and ends there.
-/
namespace HerdrMobile.Bridge.Tasks

open Proto.Codes Bridge.Store Bridge.Registry Bridge.Host

set_option autoImplicit false

inductive Kind where
  | registration
  | pairing
  | startup (rest : List DeviceId)
  deriving DecidableEq

/-- Where a task stands. `registered` to `top` are the places of the two loops, `joined`
to `ending` those of `serve_session`, and the last three those of `spawn_registration`. -/
inductive Pc where
  | start
  | captured
  | top
  | waiting
  | registering
  | registered
  | sleeping
  | connected
  | claimed
  | enrolled
  | joined (session : SessionId)
  | serving (session : SessionId) (seen : Nat)
  | ending (session : SessionId)
  | lookUp (deviceId : DeviceId)
  | usable (deviceId : DeviceId)
  | spawned (deviceId : DeviceId) (task : TaskId)
  | ended
  deriving DecidableEq

/-- The places where a task waits, so where an aborted one is dropped. -/
def Pc.awaits : Pc → Bool
  | .start | .waiting | .registering | .registered | .sleeping | .claimed | .serving _ _
  | .ending _ => true
  | _ => false

/-- `deviceId` is `none` in a pairing loop until its device is enrolled. `seen` is the
version its `stop_rx` has seen, and `started` the time of the pass of the pairing loop. -/
structure Task where
  kind : Kind
  pc : Pc
  deviceId : Option DeviceId
  hostId : HostId
  handle : Handle
  started : Nat
  mintedAt : Nat
  seen : Nat
  again : Bool
  aborted : Bool

def Task.new (kind : Kind) (pc : Pc) (deviceId : Option DeviceId) : Task where
  kind := kind
  pc := pc
  deviceId := deviceId
  hostId := []
  handle := 0
  started := 0
  mintedAt := 0
  seen := 0
  again := false
  aborted := false

/-- The places where the `_claim` of a loop is in scope. -/
def Task.guard (task : Task) : Bool :=
  match task.kind, task.pc with
  | .startup _, _ => false
  | _, .claimed | _, .enrolled | _, .joined _ | _, .serving _ _ | _, .ending _ => true
  | .pairing, .lookUp _ | .pairing, .usable _ | .pairing, .spawned _ _ => true
  | _, _ => false

/-- The session whose requests are dispatched. -/
def Task.running (task : Task) : Option SessionId :=
  match task.pc with
  | .joined id | .serving id _ => some id
  | _ => none

/-- The loops subscribe once, and hold the receiver to their end. -/
def Task.listens (task : Task) : Bool :=
  match task.kind, task.pc with
  | .startup _, _ | _, .start | _, .captured | _, .ended => false
  | _, _ => true

/-- `owner` is kept for the proofs: the device a handle was enrolled for, if it was minted
at all. It is read only where a minted handle is a new one. -/
structure System where
  host : HostState
  task : TaskId → Task
  made : TaskId
  owner : Handle → Option (Option DeviceId)
  now : Nat

namespace System

def set (s : System) (t : TaskId) (task : Task) : System :=
  { s with task := Function.update s.task t task }

def goto (s : System) (t : TaskId) (pc : Pc) : System := s.set t { s.task t with pc := pc }

def abort (s : System) (ids : List TaskId) : System :=
  { s with task := fun u => if u ∈ ids then { s.task u with aborted := true } else s.task u }

/-- The claim of the task goes out of scope. -/
def drop (s : System) (t : TaskId) (pc : Pc) : System :=
  if (s.task t).guard then
    { s with host := releaseActive s.host (s.task t).handle }.goto t pc
  else s.goto t pc

def receivers (s : System) : Bool := (List.range s.made).any fun t => (s.task t).listens

/-- A task is spawned. -/
def spawn (s : System) (task : Task) : System :=
  { s with task := Function.update s.task s.made task, made := s.made + 1 }

/-- What follows a call of `spawn_registration`. -/
def after (s : System) (t : TaskId) : System :=
  match (s.task t).kind with
  | .startup [] => s.goto t .ended
  | .startup (deviceId :: rest) =>
    s.set t { s.task t with kind := .startup rest, pc := .lookUp deviceId }
  | _ => s.drop t (if (s.task t).again then .top else .ended)

end System

/-- What a task does next, with what it learns from outside. -/
inductive Act where
  | capture
  | subscribe
  | check
  | run
  | changed
  | accepted
  | refused (attempt : Nat) (error : String)
  | shaken
  | unshaken (attempt : Nat) (error : String)
  | elapsed
  | wake
  | claim
  | leave
  | overdue
  | enrol (deviceId : DeviceId) (hostId : HostId) (key : Bytes) (saved : Bool)
  | enter
  | listen
  | dispatch
  | closed
  | stopped
  | hangUp
  | finish
  | lookUp
  | spawn
  | store
  | die

/-- The capture of a registration loop, and of a pairing loop, which needs nothing. -/
def capture (s : System) (t : TaskId) : System :=
  let task := s.task t
  match task.kind with
  | .registration =>
    match task.deviceId.bind s.host.store.find with
    | some ⟨hostId, some handle, _, _⟩ =>
      s.set t { task with pc := .captured, hostId := hostId, handle := handle }
    | _ => s.goto t .ended
  | _ => s.goto t .captured

/-- The top of a loop: is the device still paired, is the pairing still open. -/
def check (s : System) (t : TaskId) : System :=
  let task := s.task t
  match task.kind with
  | .registration =>
    if (task.deviceId.bind s.host.store.find).isSome then s.goto t .waiting else s.goto t .ended
  | _ =>
    match s.host.openPairing with
    | none => s.goto t .ended
    | some pairing =>
      match pairing.session.handle s.now with
      | some handle =>
        s.set t { task with
          pc := .waiting, handle := handle, started := s.now, mintedAt := pairing.mintedAt }
      | none =>
        ({ s with host := { s.host with openPairing := none } }.goto t .ended).abort [pairing.task]

def accepted (s : System) (t : TaskId) : System :=
  let task := s.task t
  match task.kind with
  | .registration => { s with host := setIdle s.host }.goto t .registered
  | _ => { s with host := markRegistered s.host task.handle task.started }.goto t .registered

def unshaken (s : System) (t : TaskId) (attempt : Nat) (error : String) : System :=
  let task := s.task t
  match task.kind with
  | .registration => { s with host := setOffline s.host attempt error }.goto t .sleeping
  | _ => { s with host := recordFailedAttempt s.host task.handle task.started }.goto t .top

def claim (s : System) (t : TaskId) : System :=
  match claimActive s.host (s.task t).deviceId (s.task t).handle t with
  | some host => { s with host := host }.goto t .claimed
  | none => s.goto t .sleeping

def enrolDevice (s : System) (t : TaskId) (deviceId : DeviceId) (hostId : HostId) (key : Bytes)
    (saved : Bool) : System :=
  let task := s.task t
  let entry : PairedDevice := ⟨hostId, some task.handle, deviceId, key⟩
  match enrol s.host entry task.handle s.now (task.mintedAt + phraseLifetime) saved with
  | (.refused, _, _) => s.drop t .top
  | (.failed, host, aborts) =>
    ({ s with host := host }.set t { task with again := true, pc := .lookUp deviceId }).abort aborts
  | (.paired, host, aborts) =>
    ({ s with host := host, owner := Function.update s.owner task.handle (some (some deviceId)) }.set t
      { task with deviceId := some deviceId, hostId := hostId, again := false, pc := .enrolled }).abort
      aborts

/-- What follows `serve_session`: the claim is dropped, or the device's own loop starts. -/
def served (s : System) (t : TaskId) (deviceId : DeviceId) : System :=
  match (s.task t).kind with
  | .registration => s.drop t .top
  | _ => s.goto t (.lookUp deviceId)

def enter (s : System) (t : TaskId) (deviceId : DeviceId) : System :=
  match registerSession s.host (s.task t).hostId (s.task t).handle deviceId with
  | some (id, host) => { s with host := host }.goto t (.joined id)
  | none => served s t deviceId

def lookUp (s : System) (t : TaskId) (deviceId : DeviceId) : System :=
  if (s.host.store.find deviceId).any fun entry => entry.handle.isSome then s.goto t (.usable deviceId)
  else s.after t

def storeRegistration (s : System) (t : TaskId) (deviceId : DeviceId) (u : TaskId) : System :=
  let registrations := (deviceId, u) :: s.host.registrations.filter fun r => !(r.1 == deviceId)
  { s with host := { s.host with registrations := registrations } }.after t

/-- One step of task `t`. -/
def act (s : System) (t : TaskId) (a : Act) : Option System :=
  let task := s.task t
  match a, task.pc with
  | .capture, .start => some (capture s t)
  | .subscribe, .captured => some (s.set t { task with seen := s.host.stopTx.version, pc := .top })
  | .check, .top => some (check s t)
  | .run, .waiting => if s.host.stopTx.value then none else some (s.goto t .registering)
  | .changed, .waiting =>
    if task.seen = s.host.stopTx.version then none
    else some (s.set t { task with seen := s.host.stopTx.version })
  | .changed, .registering | .changed, .registered | .changed, .sleeping =>
    if task.seen = s.host.stopTx.version then none
    else some (s.set t { task with seen := s.host.stopTx.version, pc := .top })
  | .accepted, .registering => some (accepted s t)
  | .refused attempt error, .registering =>
    some ({ s with host := setOffline s.host attempt error }.goto t .sleeping)
  | .shaken, .registered => some (s.goto t .connected)
  | .unshaken attempt error, .registered => some (unshaken s t attempt error)
  | .elapsed, .registered =>
    match task.kind with
    | .pairing => some ({ s with host := expirePairing s.host task.handle task.started }.goto t .ended)
    | _ => none
  | .wake, .sleeping => some (s.goto t .top)
  | .claim, .connected => some (claim s t)
  | .leave, .claimed => some (s.drop t .top)
  | .overdue, .claimed =>
    match task.kind with
    | .pairing => some ({ s with host := expireMinted s.host task.mintedAt }.drop t .top)
    | _ => none
  | .enrol deviceId hostId key saved, .claimed =>
    match task.kind with
    | .pairing => some (enrolDevice s t deviceId hostId key saved)
    | _ => none
  | .enter, .claimed =>
    match task.kind with
    | .registration => task.deviceId.map (enter s t)
    | _ => none
  | .enter, .enrolled => task.deviceId.map (enter s t)
  | .listen, .joined id => some (s.goto t (.serving id s.host.stopTx.version))
  | .dispatch, .serving _ _ => some s
  | .closed, .serving id _ =>
    if s.host.registry.closes id = .waiting then none else some (s.goto t (.ending id))
  | .stopped, .serving id seen =>
    if seen = s.host.stopTx.version then none else some (s.goto t (.ending id))
  | .hangUp, .serving id _ => some (s.goto t (.ending id))
  | .finish, .ending _ => task.deviceId.map (served s t)
  | .lookUp, .lookUp deviceId => some (lookUp s t deviceId)
  | .spawn, .usable deviceId =>
    some ((s.spawn (.new .registration .start (some deviceId))).goto t (.spawned deviceId s.made))
  | .store, .spawned deviceId u => some (storeRegistration s t deviceId u)
  | .die, pc => if task.aborted && pc.awaits then some (s.drop t .ended) else none
  | _, _ => none

inductive Command where
  | status
  | openPairing (minted : Option Handle)
  | closePairing
  | revoke (deviceId : DeviceId) (saved : Bool)
  | revokeAll (saved : Bool) (rotated : Option Keypair)
  | stop

inductive Event where
  | advance (time : Nat)
  | task (t : TaskId) (a : Act)
  | control (command : Command)
  | wire (request : RevokeDevice) (saved rotated : Bool) (loaded : Option Keypair)

/-- A minted handle is random, so it is new. -/
def fresh (s : System) : Option Handle → Bool
  | none => true
  | some handle => (s.owner handle).isNone

def openPairingCommand (s : System) (minted : Option Handle) : System :=
  match openPairing s.host s.now minted s.made s.receivers with
  | (.ok true, host, aborts) =>
    let owner := match minted with
      | some handle => Function.update s.owner handle (some none)
      | none => s.owner
    ({ s with host := host, owner := owner }.spawn (.new .pairing .start none)).abort aborts
  | (_, host, aborts) => { s with host := host }.abort aborts

def control (s : System) : Command → Option System
  | .status =>
    let (host, aborts) := buildStatus s.host s.now
    some ({ s with host := host }.abort aborts)
  | .openPairing minted => if fresh s minted then some (openPairingCommand s minted) else none
  | .closePairing =>
    let (host, aborts) := closePairing s.host
    some ({ s with host := host }.abort aborts)
  | .revoke deviceId saved =>
    let (_, host, aborts) := revokeOne s.host deviceId saved
    some ({ s with host := host }.abort aborts)
  | .revokeAll saved rotated =>
    let (_, host, aborts) := revokeAll s.host saved rotated
    some ({ s with host := host }.abort aborts)
  | .stop => some { s with host := stop s.host s.receivers }

/-- The control listener is served once the start is over. -/
def step (s : System) : Event → Option System
  | .advance time => some { s with now := s.now + time }
  | .task t a => if t < s.made then act s t a else none
  | .control command =>
    match (s.task 0).pc with
    | .ended => control s command
    | _ => none
  | .wire request saved rotated loaded =>
    let (_, host, aborts) := wireRevoke s.host request saved rotated loaded
    some ({ s with host := host }.abort aborts)

/-- The list an earlier process left: each entry was minted a handle of its own. -/
structure SavedList where
  store : DeviceStore
  ownHandle : store.devices.Pairwise fun a b => ∀ handle, a.handle = some handle →
    b.handle ≠ some handle

def startup : List DeviceId → Task
  | [] => .new (.startup []) .ended none
  | deviceId :: rest => .new (.startup rest) (.lookUp deviceId) none

/-- `start`: task 0 spawns the loops of the saved list. -/
def System.start (saved : SavedList) (keypair : Keypair) : System where
  host :=
    { store := saved.store
      openPairing := none
      active := none
      link := linkIdle
      stopped := false
      keypair := keypair
      registry := .new
      registrations := []
      stopTx := ⟨false, 0⟩ }
  task := Function.update (fun _ => .new (.startup []) .ended none) 0
    (startup (saved.store.devices.map PairedDevice.deviceId))
  made := 1
  owner := fun handle =>
    (saved.store.devices.find? fun entry => entry.handle == some handle).map fun entry =>
      some entry.deviceId
  now := 0

end HerdrMobile.Bridge.Tasks
