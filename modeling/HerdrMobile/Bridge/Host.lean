import HerdrMobile.Bridge.Registry

/-!
# The shared state of the Host bridge

One mutex guards it. Each definition here is what one task or one command does
while it holds that mutex; the tasks whose handles are aborted are returned with
the new state. The outcomes of disk writes and the minted handle are arguments.
-/
namespace HerdrMobile.Bridge.Host

open Proto.Codes Bridge.Store Bridge.Registry

set_option autoImplicit false

abbrev TaskId := Nat

abbrev Keypair := Nat

/-- R-13-022: 600 seconds. -/
def phraseLifetime : Nat := 600 * 1000000000

/-- R-13-023. -/
def maxAttempts : Nat := 3

inductive PairingSession where
  | live (handle : Handle) (generatedAt failedAttempts : Nat)
  | expired
  | spent

namespace PairingSession

def applyExpiry (now : Nat) : PairingSession → PairingSession
  | .live handle generatedAt failedAttempts =>
    if phraseLifetime < now - generatedAt then .expired else .live handle generatedAt failedAttempts
  | session => session

def liveHandle : PairingSession → Option Handle
  | .live handle _ _ => some handle
  | _ => none

def handle (session : PairingSession) (now : Nat) : Option Handle :=
  (session.applyExpiry now).liveHandle

def isLive (session : PairingSession) (now : Nat) : Bool := (session.handle now).isSome

def recordFailedAttempt (session : PairingSession) (now : Nat) : PairingSession :=
  match session.applyExpiry now with
  | .live handle generatedAt failedAttempts =>
    if maxAttempts ≤ failedAttempts + 1 then .spent
    else .live handle generatedAt (failedAttempts + 1)
  | session => session

end PairingSession

structure OpenPairing where
  session : PairingSession
  mintedAt : Nat
  registered : Bool
  task : TaskId

/-- `claimant` is the task whose claim it is. Nothing in the code tells it. -/
structure ActiveSession where
  deviceId : Option DeviceId
  handle : Handle
  claimant : TaskId

inductive LinkState where
  | connected
  | idle
  | offline
  | stopped
  deriving DecidableEq

structure LinkStatus where
  state : LinkState
  attempt : Nat
  error : Option String

def linkIdle : LinkStatus := ⟨.idle, 0, none⟩

def linkConnected : LinkStatus := ⟨.connected, 0, none⟩

def linkStopped : LinkStatus := ⟨.stopped, 0, none⟩

/-- The watch channel of `stop`: its value, and the version a receiver compares with
the one it has seen. -/
structure StopChannel where
  value : Bool
  version : Nat

/-- `send` keeps nothing when no receiver is left. -/
def StopChannel.send (c : StopChannel) (receivers value : Bool) : StopChannel :=
  if receivers then ⟨value, c.version + 1⟩ else c

inductive ErrorCode where
  | badRequest
  | notFound

structure HostState where
  store : DeviceStore
  openPairing : Option OpenPairing
  active : Option ActiveSession
  link : LinkStatus
  stopped : Bool
  keypair : Keypair
  registry : SessionRegistry
  registrations : List (DeviceId × TaskId)
  stopTx : StopChannel

variable {h h' : HostState} {handle : Handle} {deviceId : DeviceId} {task : TaskId}

/-- A pairing past its lifetime or its attempts is destroyed. -/
def buildStatus (h : HostState) (now : Nat) : HostState × List TaskId :=
  match h.openPairing with
  | none => (h, [])
  | some pairing =>
    if pairing.session.isLive now then (h, [])
    else ({ h with openPairing := none }, [pairing.task])

def closePairing (h : HostState) : HostState × List TaskId :=
  match h.openPairing with
  | none => (h, [])
  | some pairing => ({ h with openPairing := none }, [pairing.task])

def stop (h : HostState) (receivers : Bool) : HostState :=
  { h with stopped := true, link := linkStopped, stopTx := h.stopTx.send receivers true }

/-- The part of `open_pairing` after an expired pairing is gone. `minted` is `none` where
minting a session fails, and `task` is the loop spawned for the one minted. -/
def mintPairing (h : HostState) (now : Nat) (minted : Option Handle) (task : TaskId)
    (receivers : Bool) : Except ErrorCode Bool × HostState :=
  match minted with
  | none => (.error .badRequest, h)
  | some handle =>
    let h := if h.stopped then
        { h with stopped := false, link := linkIdle, stopTx := h.stopTx.send receivers false }
      else h
    (.ok true, { h with openPairing := some ⟨.live handle now 0, now, false, task⟩ })

/-- Whether a pairing loop is spawned, the new state, and the tasks to abort. -/
def openPairing (h : HostState) (now : Nat) (minted : Option Handle) (task : TaskId)
    (receivers : Bool) : Except ErrorCode Bool × HostState × List TaskId :=
  match h.openPairing with
  | none =>
    let (reply, h) := mintPairing h now minted task receivers
    (reply, h, [])
  | some pairing =>
    if pairing.session.isLive now then (.ok false, h, [])
    else
      let (reply, h) := mintPairing { h with openPairing := none } now minted task receivers
      (reply, h, [pairing.task])

def activeId (h : HostState) : Option DeviceId := h.active.bind ActiveSession.deviceId

/-- `HashMap::remove`, the handle to abort if there was one. -/
def removeRegistration (h : HostState) (deviceId : DeviceId) : HostState × List TaskId :=
  ({ h with registrations := h.registrations.filter fun r => !(r.1 == deviceId) },
    (h.registrations.filter fun r => r.1 == deviceId).map Prod.snd)

/-- `HashMap::drain`, which spares the loop of the active device. -/
def drainRegistrations (h : HostState) : HostState × List TaskId :=
  ({ h with registrations := [] },
    (h.registrations.filter fun r => !(some r.1 == activeId h)).map Prod.snd)

def idleUnlessStopped (h : HostState) : HostState :=
  if h.stopped then h else { h with link := linkIdle }

def revokeOne (h : HostState) (deviceId : DeviceId) (saved : Bool) :
    Except ErrorCode Unit × HostState × List TaskId :=
  match h.store.revoke deviceId saved with
  | none => (.error .badRequest, h, [])
  | some (none, _) => (.error .notFound, h, [])
  | some (some _, store) =>
    let sessionLive := activeId h == some deviceId
    let h := { h with
      store := store
      registry := h.registry.closeForRevocation ⟨[deviceId], false⟩ }
    if sessionLive then (.ok (), idleUnlessStopped { h with active := none }, [])
    else
      let (h, aborts) := removeRegistration h deviceId
      (.ok (), h, aborts)

/-- `rotated` is the new keypair, or `none` where the rotation fails. -/
def revokeAll (h : HostState) (saved : Bool) (rotated : Option Keypair) :
    Except ErrorCode Unit × HostState × List TaskId :=
  match h.store.clearAll saved with
  | none => (.error .badRequest, h, [])
  | some (cleared, store) =>
    let h := { h with
      store := store
      registry := h.registry.closeForRevocation ⟨cleared.map PairedDevice.deviceId, true⟩ }
    let (h, drained) := drainRegistrations h
    let (h, closed) := closePairing h
    let h := idleUnlessStopped { h with active := none }
    (.ok (), { h with keypair := rotated.getD h.keypair }, drained ++ closed)

structure RevokeDevice where
  deviceId : Option DeviceId
  all : Option Bool

inductive DeviceError where
  | invalidRevokeRequest
  | store
  | keys

/-- The list is cleared before the keypair is rotated, and stays so when that fails. -/
def revokeDevice (store : DeviceStore) (request : RevokeDevice) (saved rotated : Bool) :
    Except DeviceError RevokeResult × DeviceStore :=
  match request.deviceId, request.all == some true with
  | none, true =>
    match store.clearAll saved with
    | none => (.error .store, store)
    | some (cleared, store) =>
      if rotated then (.ok ⟨cleared.map PairedDevice.deviceId, true⟩, store)
      else (.error .keys, store)
  | some deviceId, false =>
    match store.revoke deviceId saved with
    | none => (.error .store, store)
    | some (removed, store) =>
      (.ok ⟨removed.toList.map PairedDevice.deviceId, false⟩, store)
  | _, _ => (.error .invalidRevokeRequest, store)

/-- The loop over the revoked ids, which spares the active device. -/
def removeRevoked (active : Option DeviceId) (h : HostState) : List DeviceId → HostState × List TaskId
  | [] => (h, [])
  | deviceId :: rest =>
    if some deviceId == active then removeRevoked active h rest
    else
      let (h, aborts) := removeRegistration h deviceId
      let (h, more) := removeRevoked active h rest
      (h, aborts ++ more)

/-- `loaded` is the keypair found on disk, or `none` where that fails. -/
def finishWireRevoke (h : HostState) (result : RevokeResult) (loaded : Option Keypair) :
    HostState × List TaskId :=
  if result.all then
    let (h, drained) := drainRegistrations h
    let (h, closed) := closePairing h
    ({ h with keypair := loaded.getD h.keypair }, drained ++ closed)
  else removeRevoked (activeId h) h result.revoked

/-- The `RevokeDevice` arm of the bridge thread. -/
def wireRevoke (h : HostState) (request : RevokeDevice) (saved rotated : Bool)
    (loaded : Option Keypair) : Except DeviceError RevokeResult × HostState × List TaskId :=
  match revokeDevice h.store request saved rotated with
  | (.error err, store) => (.error err, { h with store := store }, [])
  | (.ok result, store) =>
    let h := { h with store := store, registry := h.registry.closeForRevocation result }
    let (h, aborts) := finishWireRevoke h result loaded
    (.ok result, h, aborts)

/-- R-10-069. -/
def claimActive (h : HostState) (deviceId : Option DeviceId) (handle : Handle) (task : TaskId) :
    Option HostState :=
  if h.active.isSome || h.stopped then none
  else some { h with active := some ⟨deviceId, handle, task⟩, link := linkConnected }

def releaseActive (h : HostState) (handle : Handle) : HostState :=
  let h := { h with registry := h.registry.unregister handle }
  if h.active.any fun active => active.handle == handle then
    { h with active := none, link := if h.stopped then linkStopped else linkIdle }
  else h

def setIdle (h : HostState) : HostState :=
  if h.active.isNone && !h.stopped then { h with link := linkIdle } else h

def setOffline (h : HostState) (attempt : Nat) (error : String) : HostState :=
  if h.active.isNone && !h.stopped then { h with link := ⟨.offline, attempt, some error⟩ } else h

def registerSession (h : HostState) (hostId : HostId) (handle : Handle) (deviceId : DeviceId) :
    Option (SessionId × HostState) :=
  if h.stopped || !(h.store.find deviceId).any (fun entry =>
      entry.hostId == hostId && entry.handle == some handle) then none
  else
    let (id, registry) := h.registry.register handle (some deviceId)
    some (id, { h with registry := registry })

/-- The pairing with the handle of a handshake, as `now` sees it. -/
def pairingOf (h : HostState) (handle : Handle) (now : Nat) : Option OpenPairing :=
  h.openPairing.filter fun pairing => pairing.session.handle now == some handle

def markRegistered (h : HostState) (handle : Handle) (now : Nat) : HostState :=
  match pairingOf h handle now with
  | none => h
  | some pairing => { h with openPairing := some { pairing with registered := true } }

def recordFailedAttempt (h : HostState) (handle : Handle) (now : Nat) : HostState :=
  match pairingOf h handle now with
  | none => h
  | some pairing =>
    let session := pairing.session.recordFailedAttempt now
    { h with openPairing := some { pairing with session := session } }

def expirePairing (h : HostState) (handle : Handle) (now : Nat) : HostState :=
  match pairingOf h handle now with
  | none => h
  | some _ => { h with openPairing := none }

/-- The deadline of `serve_new_pairing`, which knows the pairing by its time. -/
def expireMinted (h : HostState) (mintedAt : Nat) : HostState :=
  if h.openPairing.any fun pairing => pairing.mintedAt == mintedAt then
    { h with openPairing := none }
  else h

/-- The enrolment of `serve_new_pairing`. -/
inductive Enrolled where
  | refused
  | failed
  | paired

def enrol (h : HostState) (entry : PairedDevice) (handle : Handle) (now deadline : Nat)
    (saved : Bool) : Enrolled × HostState × List TaskId :=
  if h.stopped || decide (deadline ≤ now) || (pairingOf h handle now).isNone then (.refused, h, [])
  else
    let (h, aborts) := removeRegistration h entry.deviceId
    match h.store.add entry saved with
    | none => (.failed, h, aborts)
    | some store =>
      (.paired,
        { h with
          store := store
          openPairing := none
          active := h.active.map fun active =>
            if active.handle == handle then { active with deviceId := some entry.deviceId }
            else active },
        aborts)

end HerdrMobile.Bridge.Host
