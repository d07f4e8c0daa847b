import HerdrMobile.Hub.Session
import HerdrMobile.Lib.Run

/-!
# The byte pump

Every joined connection has one task in `run_peer`. A task is in one phase of
its loop at a time and every await point of the source is a phase, so other
tasks can take any number of steps while it stays there. The state of the hub is
the handle map, the handle limiter and the tasks.

The `select!` picks any ready branch: which one is the choice of the event.
Metrics and log lines are not modelled.
-/
namespace HerdrMobile.Hub.Relay

open Lib.Channel Lib.Run Proto.Codes Hub.Limits Hub.Session

set_option autoImplicit false

def maxFrameBytes : Nat := 1048576

/-- R-11-023: how long a peer has to answer a ping. -/
def pongTimeout : Nat := 10 * second

structure Config where
  maxHandles : Nat
  frameRatePerSec : Nat

inductive Phase where
  /-- `announce_and_log_joined`, before `run_peer`. -/
  | announcing
  /-- At the `select!`. -/
  | select
  /-- In `forward`: `peer_of` gave this queue and its `send` was not polled yet. -/
  | forward (peer : OutboundTx) (bytes : Bytes)
  /-- In `forward`: suspended until the queue hands over a permit. -/
  | awaitSpace (peer : OutboundTx) (bytes : Bytes)
  /-- In `send` on the socket. -/
  | sending (msg : Message)
  /-- In `send_close` on the socket, with `break` behind it. -/
  | sendClose (frame : CloseFrame)
  /-- Out of the loop, with `inbound` alive. -/
  | exited
  /-- `inbound` is dropped and `disconnect` has not run. -/
  | dropped
  | finished
  deriving DecidableEq

structure Task where
  handle : Handle
  role : Role
  phase : Phase
  limiter : FrameRateLimiter
  awaitingPongSince : Option Nat
  peerClose : Option CloseFrame
  /-- What the loop took from its own queue so far, oldest first. The source
  keeps no such list; the properties speak of it. -/
  taken : List Message
  deriving DecidableEq

/-- What `stream.next()` yields. `accepted` is the answer of `push.receive`. -/
inductive Incoming where
  | binary (bytes : Bytes)
  | text (text : String) (accepted : Bool)
  | ping
  | pong
  | close (frame : Option CloseFrame)
  | ended

inductive HeartbeatEvent where
  | pingDue
  | pongOverdue

inductive Event where
  | register (handle : Handle) (role : Role) (ip : IpAddr) (pairing : Bool) (now : Nat)
  | joined (c : OutboundTx) (now : Nat)
  | read (c : OutboundTx) (frame : Incoming) (now : Nat)
  | pollForward (c : OutboundTx)
  | recv (c : OutboundTx)
  | heartbeat (c : OutboundTx) (event : HeartbeatEvent) (now : Nat)
  | sinkDone (c : OutboundTx) (ok : Bool) (now : Nat)
  | dropInbound (c : OutboundTx)
  | disconnect (c : OutboundTx)

structure HubState where
  sessions : SessionMap
  handleLimiter : IpRateLimiter
  task : OutboundTx → Option Task

def HubState.start (handleRatePerSec : Nat) : HubState :=
  ⟨SessionMap.new, IpRateLimiter.new handleRatePerSec, fun _ => none⟩

def HubState.setTask (s : HubState) (c : OutboundTx) (t : Task) : HubState :=
  { s with task := fun d => if d = c then some t else s.task d }

def errorFrame (code message : String) : String :=
  "\x7b\"type\":\"error\",\"code\":\"" ++ code ++ "\",\"message\":\"" ++ message ++ "\"\x7d"

namespace Task

def goto (t : Task) (phase : Phase) : Task := { t with phase := phase }

def closeWith (t : Task) (code : CloseCode) (reason : String) : Task :=
  t.goto (.sendClose ⟨code.code, reason⟩)

/-- The size and rate checks in front of both frame branches. -/
def allowFrame (t : Task) (len : Nat) (tooLarge : String) (now : Nat) : Bool × Task :=
  if maxFrameBytes < len then (false, t.closeWith .frameTooLarge tooLarge)
  else
    match t.limiter.allow now with
    | (false, l) => (false, { t with limiter := l }.closeWith .rateLimited "frame rate limit exceeded")
    | (true, l) => (true, { t with limiter := l })

def onText (t : Task) (text : String) (accepted : Bool) (now : Nat) : Task :=
  match t.allowFrame text.utf8ByteSize "frame exceeds 1 MiB limit" now with
  | (false, t) => t
  | (true, t) =>
    if accepted then t
    else t.goto (.sending (.text (errorFrame "invalid_frame" "invalid push frame")))

def onHeartbeat (t : Task) (event : HeartbeatEvent) (now : Nat) : Option Task :=
  match event with
  | .pingDue => some (t.goto (.sending .ping))
  | .pongOverdue =>
    match t.awaitingPongSince with
    | none => none
    | some since => if since + pongTimeout ≤ now then some (t.goto .exited) else none

/-- A socket send ended: a failed one leaves the loop, and only a sent ping
starts the pong deadline. -/
def onSinkDone (t : Task) (ok : Bool) (now : Nat) : Option Task :=
  match t.phase with
  | .sending msg =>
    if ok then
      let t := t.goto .select
      some (if msg = .ping then { t with awaitingPongSince := some now } else t)
    else some (t.goto .exited)
  | .sendClose _ => some (t.goto .exited)
  | _ => none

end Task

/-- The binary branch after its checks: `forward` up to its first poll. -/
def HubState.lookupPeer (s : HubState) (t : Task) (bytes : Bytes) : Task :=
  match s.sessions.peerOf t.handle t.role with
  | none => t
  | some peer => t.goto (.forward peer bytes)

def HubState.onRead (s : HubState) (t : Task) (frame : Incoming) (now : Nat) : Task :=
  match frame with
  | .binary bytes =>
    match t.allowFrame bytes.length "frame exceeds the 1 MiB limit" now with
    | (false, t) => t
    | (true, t) => s.lookupPeer t bytes
  | .text text accepted => t.onText text accepted now
  | .ping => t
  | .pong => { t with awaitingPongSince := none }
  | .close frame => { t with peerClose := frame }.goto .exited
  | .ended => t.goto .exited

def HubState.register (cfg : Config) (s : HubState) (handle : Handle) (role : Role) (ip : IpAddr)
    (pairing : Bool) (now : Nat) : HubState :=
  match s.sessions.register handle role ip s.handleLimiter cfg.maxHandles pairing now with
  | (.error _, m, l) => { s with sessions := m, handleLimiter := l }
  | (.ok (tx, _), m, l) =>
    { s with sessions := m, handleLimiter := l }.setTask tx
      ⟨handle, role, .announcing, .new cfg.frameRatePerSec now, none, none, []⟩

/-- A poll of the `send` in `forward`. Its result is discarded. -/
def HubState.pollForward (s : HubState) (c : OutboundTx) (t : Task) : Option HubState :=
  match t.phase with
  | .forward peer bytes =>
    match (s.sessions.chan peer).send c (.binary bytes) with
    | (.pending, q) => some ({ s with sessions := s.sessions.setChan peer q }.setTask c
        (t.goto (.awaitSpace peer bytes)))
    | (_, q) => some ({ s with sessions := s.sessions.setChan peer q }.setTask c (t.goto .select))
  | .awaitSpace peer bytes =>
    match (s.sessions.chan peer).resume c (.binary bytes) with
    | (.pending, _) => none
    | (_, q) => some ({ s with sessions := s.sessions.setChan peer q }.setTask c (t.goto .select))
  | _ => none

def HubState.recv (s : HubState) (c : OutboundTx) (t : Task) : Option HubState :=
  match (s.sessions.chan c).recv with
  | none => none
  | some (msg, q) => some ({ s with sessions := s.sessions.setChan c q }.setTask c
      ({ t with taken := t.taken ++ [msg] }.goto (.sending msg)))

def step (cfg : Config) (s : HubState) (e : Event) : Option HubState :=
  match e with
  | .register handle role ip pairing now => some (s.register cfg handle role ip pairing now)
  | .joined c now => (s.task c).bind fun t =>
      if t.phase = .announcing then
        some (s.setTask c ({ t with limiter := .new cfg.frameRatePerSec now }.goto .select))
      else none
  | .read c frame now => (s.task c).bind fun t =>
      if t.phase = .select then some (s.setTask c (s.onRead t frame now)) else none
  | .pollForward c => (s.task c).bind fun t => s.pollForward c t
  | .recv c => (s.task c).bind fun t => if t.phase = .select then s.recv c t else none
  | .heartbeat c event now => (s.task c).bind fun t =>
      if t.phase = .select then (t.onHeartbeat event now).map (s.setTask c) else none
  | .sinkDone c ok now => (s.task c).bind fun t => (t.onSinkDone ok now).map (s.setTask c)
  | .dropInbound c => (s.task c).bind fun t =>
      if t.phase = .exited then
        some ({ s with sessions := s.sessions.setChan c (s.sessions.chan c).close }.setTask c
          (t.goto .dropped))
      else none
  | .disconnect c => (s.task c).bind fun t =>
      if t.phase = .dropped then
        some ({ s with sessions := s.sessions.disconnect t.handle t.role c t.peerClose }.setTask c
          (t.goto .finished))
      else none

/-- `run_peer` has not left its loop. -/
def Phase.inLoop : Phase → Bool
  | .exited | .dropped | .finished => false
  | _ => true

/-- The queue a phase sends to. -/
def Phase.target : Phase → Option OutboundTx
  | .forward peer _ => some peer
  | .awaitSpace peer _ => some peer
  | _ => none

/-- The frame that a poll in this state puts on a queue, if it does. -/
def HubState.delivery (s : HubState) : Event → Option (OutboundTx × OutboundTx × Bytes)
  | .pollForward c => (s.task c).bind fun t =>
      match t.phase with
      | .forward peer bytes =>
        if ((s.sessions.chan peer).send c (.binary bytes)).1 = .delivered then
          some (c, peer, bytes) else none
      | .awaitSpace peer bytes =>
        if ((s.sessions.chan peer).resume c (.binary bytes)).1 = .delivered then
          some (c, peer, bytes) else none
      | _ => none
  | _ => none

end HerdrMobile.Hub.Relay
