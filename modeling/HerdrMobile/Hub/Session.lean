import Mathlib.Data.List.AList
import HerdrMobile.Lib.Channel
import HerdrMobile.Proto.Codes
import HerdrMobile.Hub.Limits

/-!
# The handle map

`SessionMap` routes by handle to a room with a Host and a Device slot. A slot
holds the sender of the connection's outbound queue, and a queue is named by the
number of the registration that made it, so equal numbers are `same_channel`.
Each operation runs under the map's lock and is one step here.
-/
namespace HerdrMobile.Hub.Session

open Lib.Channel Proto.Codes Hub.Limits

set_option autoImplicit false

/-- The 16 bytes of a routing handle. -/
abbrev Handle := BitVec 128

structure CloseFrame where
  code : UInt16
  reason : String
  deriving DecidableEq

inductive Message where
  | text (text : String)
  | binary (bytes : Bytes)
  | ping
  | pong
  | close (frame : Option CloseFrame)
  deriving DecidableEq

def outboundQueueDepth : Nat := 32

/-- R-11-120: 600 seconds. -/
def pairingWindow : Nat := 600 * second

abbrev OutboundTx := Nat

abbrev Outbound := Chan outboundQueueDepth OutboundTx Message

inductive Role where
  | host
  | device
  deriving DecidableEq

def Role.other : Role → Role
  | .host => .device
  | .device => .host

inductive RegisterError where
  | handleTaken
  | hostInUse
  | handleUnknown
  | pairingExpired
  | handleRateLimited
  | tooManyHandles
  deriving DecidableEq

structure Room where
  host : Option OutboundTx
  device : Option OutboundTx
  hostRegisteredAt : Nat
  pairing : Bool
  deriving DecidableEq

def Room.new (hostTx : OutboundTx) (pairing : Bool) (now : Nat) : Room :=
  ⟨some hostTx, none, now, pairing⟩

def Room.slot (room : Room) : Role → Option OutboundTx
  | .host => room.host
  | .device => room.device

structure SessionMap where
  rooms : AList fun _ : Handle => Room
  chan : OutboundTx → Outbound
  made : OutboundTx

namespace SessionMap

def new : SessionMap := ⟨∅, fun _ => Chan.bounded _ _ _, 0⟩

def activeHandles (m : SessionMap) : Nat := m.rooms.entries.length

def setChan (m : SessionMap) (tx : OutboundTx) (c : Outbound) : SessionMap :=
  { m with chan := fun t => if t = tx then c else m.chan t }

def isClosed (m : SessionMap) (tx : OutboundTx) : Bool := (m.chan tx).closed

/-- `try_send` with its result discarded. -/
def trySend (m : SessionMap) (tx : OutboundTx) (msg : Message) : SessionMap :=
  m.setChan tx ((m.chan tx).attempt msg)

def closePeer (m : SessionMap) (peer : OutboundTx) (gone : Role) : SessionMap :=
  let reason := match gone with
    | .host => "the Host is gone"
    | .device => "the Device is gone"
  m.trySend peer (.close (some ⟨CloseCode.goingAway.code, reason⟩))

/-- The role whose connection is gone, if any; a room with one is doomed. -/
def closedRole (m : SessionMap) (room : Room) : Option Role :=
  if room.host.any m.isClosed then some .host
  else if room.device.any m.isClosed then some .device
  else none

def removeRoom (m : SessionMap) (handle : Handle) : SessionMap :=
  { m with rooms := m.rooms.erase handle }

/-- The part of `register` that finishes the teardown of a doomed room. -/
def finishTeardown (m : SessionMap) (handle : Handle) : SessionMap :=
  match m.rooms.lookup handle with
  | none => m
  | some room =>
    match m.closedRole room with
    | none => m
    | some gone =>
      match room.slot gone.other with
      | none => m.removeRoom handle
      | some peer => (m.removeRoom handle).closePeer peer gone

def putRoom (m : SessionMap) (handle : Handle) (room : Room) : SessionMap :=
  { m with rooms := m.rooms.insert handle room }

/-- The rest of `register`: `tx` is the sender of the fresh queue. -/
def place (m : SessionMap) (tx : OutboundTx) (handle : Handle) (role : Role) (ip : IpAddr)
    (handleLimiter : IpRateLimiter) (maxHandles : Nat) (pairing : Bool) (now : Nat) :
    Except RegisterError Bool × SessionMap × IpRateLimiter :=
  match role, m.rooms.lookup handle with
  | .host, some _ => (.error .handleTaken, m, handleLimiter)
  | .host, none =>
    match handleLimiter.allow ip now with
    | (false, l) => (.error .handleRateLimited, m, l)
    | (true, l) =>
      if maxHandles ≤ m.activeHandles then (.error .tooManyHandles, m, l)
      else (.ok true, m.putRoom handle (Room.new tx pairing now), l)
  | .device, none => (.error .handleUnknown, m, handleLimiter)
  | .device, some room =>
    if room.pairing ∧ pairingWindow < now - room.hostRegisteredAt then
      (.error .pairingExpired, m, handleLimiter)
    else if room.device.isSome then (.error .hostInUse, m, handleLimiter)
    else (.ok false, m.putRoom handle { room with device := some tx }, handleLimiter)

/-- `register`: the new sender is `m.made`; the flag says that the handle is new.
A refused caller drops both ends of the queue. -/
def register (m : SessionMap) (handle : Handle) (role : Role) (ip : IpAddr)
    (handleLimiter : IpRateLimiter) (maxHandles : Nat) (pairing : Bool) (now : Nat) :
    Except RegisterError (OutboundTx × Bool) × SessionMap × IpRateLimiter :=
  let tx := m.made
  let m := { m.setChan tx (Chan.bounded _ _ _) with made := tx + 1 }
  match (m.finishTeardown handle).place tx handle role ip handleLimiter maxHandles pairing now with
  | (.ok isNew, m, l) => (.ok (tx, isNew), m, l)
  | (.error err, m, l) => (.error err, m.setChan tx (m.chan tx).close, l)

def peerOf (m : SessionMap) (handle : Handle) (role : Role) : Option OutboundTx :=
  match m.rooms.lookup handle with
  | none => none
  | some room => room.slot role.other

/-- The identity check of `disconnect`. -/
def ownsSlot (m : SessionMap) (handle : Handle) (role : Role) (mine : OutboundTx) : Bool :=
  match m.rooms.lookup handle with
  | none => false
  | some room => room.slot role == some mine

def isApplicationCode (frame : CloseFrame) : Bool := 4000 ≤ frame.code && frame.code ≤ 4999

def disconnect (m : SessionMap) (handle : Handle) (role : Role) (mine : OutboundTx)
    (peerClose : Option CloseFrame) : SessionMap :=
  if m.ownsSlot handle role mine then
    match m.peerOf handle role with
    | none => m.removeRoom handle
    | some peer =>
      match peerClose.filter isApplicationCode with
      | some frame => (m.removeRoom handle).trySend peer (.close (some frame))
      | none => (m.removeRoom handle).closePeer peer role
  else m

end SessionMap

end HerdrMobile.Hub.Session
