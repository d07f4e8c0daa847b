import HerdrMobile.Lib.Run
import HerdrMobile.Proto.Messages

/-!
# The requests that a Device waits for

Every service of the Device listens to all messages that come in. A request for an input or
a probe has its reply told by the correlation id; every other one takes the next message of
a kind that it knows. Which request a message answers is known to the Host.
-/
namespace HerdrMobile.App.Requests

open HerdrMobile.Lib.Run HerdrMobile.Proto.Messages

set_option autoImplicit false

/-- `status` is all that no request waits for. -/
inductive Incoming where
  | watchAck (paneId : PaneId)
  | scrollResponse (paneId : PaneId)
  | treeSnapshot
  | actionList
  | hostActionAck (pluginInvoke success : Bool)
  | deviceList
  | revokeResult
  | sendInputAck (paneId : PaneId) (accepted queued : Bool)
  | pong
  | error
  | status
  deriving DecidableEq

/-- The callers of `_awaitReply`. -/
inductive Listener where
  | fetchTreeSnapshot
  | fetchActionList
  | sendHostAction
  | invokeAction
  | fetchDeviceList
  | revoke
  deriving DecidableEq

/-- What a caller makes of a message: a value, an error, or nothing. -/
def Listener.onMessage : Listener → Incoming → Option Bool
  | _, .error => some false
  | .fetchTreeSnapshot, .treeSnapshot => some true
  | .fetchActionList, .actionList => some true
  | .sendHostAction, .hostActionAck _ _ => some true
  | .invokeAction, .hostActionAck true true => some true
  | .fetchDeviceList, .deviceList => some true
  | .revoke, .revokeResult => some true
  | _, _ => none

/-- Whether the caller gives up after a while. -/
def Listener.hasTimeout : Listener → Bool
  | .fetchDeviceList | .revoke => true
  | _ => false

inductive Request where
  | attach (paneId : PaneId)
  | scrollback (paneId : PaneId)
  | listen (listener : Listener)
  | input (paneId : Option PaneId)
  deriving DecidableEq

/-- `message` names the request that the message answers, when it answers one. -/
inductive Cause where
  | message (answers : Option Nat) (incoming : Incoming)
  | timeout
  | dropped
  | cancelled
  deriving DecidableEq

structure Settled where
  id : Nat
  request : Request
  ok : Bool
  cause : Cause
  deriving DecidableEq

structure Fetch where
  id : Nat
  paneId : PaneId
  epoch : Nat
  deriving DecidableEq

/-- `abandoned` are the attaches that a later one has replaced: only their timeouts are left.
The settled requests are listed newest first. -/
structure Device where
  paneId : Option PaneId
  attachCompleter : Option (Nat × PaneId)
  abandoned : List (Nat × PaneId)
  scrollCompleter : Option Fetch
  scrollEpoch : Nat
  pendingReplies : List (Nat × Option PaneId)
  listeners : List (Nat × Listener)
  nextId : Nat
  settled : List Settled
  deriving DecidableEq

namespace Device

def start : Device where
  paneId := none
  attachCompleter := none
  abandoned := []
  scrollCompleter := none
  scrollEpoch := 0
  pendingReplies := []
  listeners := []
  nextId := 0
  settled := []

def settle (s : Settled) (d : Device) : Device := { d with settled := s :: d.settled }

def cancelScrollback (d : Device) : Device :=
  let d := { d with scrollEpoch := d.scrollEpoch + 1 }
  match d.scrollCompleter with
  | none => d
  | some fetch =>
    { d with scrollCompleter := none }.settle
      { id := fetch.id, request := .scrollback fetch.paneId, ok := false, cause := .cancelled }

def attach (paneId : PaneId) (d : Device) : Device :=
  let d := d.cancelScrollback
  { d with
    attachCompleter := some (d.nextId, paneId)
    abandoned := d.attachCompleter.toList ++ d.abandoned
    nextId := d.nextId + 1 }

def detach (d : Device) : Device := { d.cancelScrollback with paneId := none }

def endAttach (ok : Bool) (cause : Cause) (d : Device) : Device :=
  match d.attachCompleter with
  | none => d
  | some (id, paneId) =>
    { d with attachCompleter := none }.settle
      { id := id, request := .attach paneId, ok := ok, cause := cause }

/-- The rest of `_fetchScrollback`. A reader who has left gets no window. -/
def endFetch (ok : Bool) (cause : Cause) (d : Device) : Device :=
  match d.scrollCompleter with
  | none => d
  | some fetch =>
    let here := fetch.epoch = d.scrollEpoch ∧ d.paneId = some fetch.paneId
    { d with scrollCompleter := none }.settle
      { id := fetch.id, request := .scrollback fetch.paneId, ok := ok && decide here,
        cause := cause }

def requestScrollback (d : Device) : Device :=
  match d.scrollCompleter, d.paneId with
  | none, some paneId =>
    { d with
      scrollEpoch := d.scrollEpoch + 1
      scrollCompleter := some { id := d.nextId, paneId := paneId, epoch := d.scrollEpoch + 1 }
      nextId := d.nextId + 1 }
  | _, _ => d

/-- The pane of an input or a probe that waits under this correlation id. -/
def reply (d : Device) (corr : Nat) : Option (Option PaneId) :=
  (d.pendingReplies.find? fun p => p.1 == corr).map Prod.snd

def finishReply (id : Nat) (accepted : Bool) (cause : Cause) (d : Device) : Device :=
  match d.reply id with
  | none => d
  | some paneId =>
    { d with pendingReplies := d.pendingReplies.filter fun p => p.1 != id }.settle
      { id := id, request := .input paneId, ok := accepted, cause := cause }

/-- `_onMessage` of the terminal. The correlation id of an input is its id. -/
def terminalOnMessage (answers : Option Nat) (incoming : Incoming) (d : Device) : Device :=
  let cause := Cause.message answers incoming
  match incoming with
  | .watchAck paneId =>
    if d.attachCompleter.map Prod.snd = some paneId then
      { d.endAttach true cause with paneId := some paneId }
    else d
  | .scrollResponse paneId => if d.paneId = some paneId then d.endFetch true cause else d
  | .sendInputAck paneId accepted queued =>
    match answers with
    | none => d
    | some corr =>
      if d.reply corr = some (some paneId) then
        if accepted && queued then d else d.finishReply corr accepted cause
      else d
  | .pong =>
    match answers with
    | none => d
    | some corr => if d.reply corr = some none then d.finishReply corr true cause else d
  | .error =>
    match answers.filter fun corr => (d.reply corr).isSome with
    | some corr => d.finishReply corr false cause
    | none => (d.endAttach false cause).endFetch false cause
  | _ => d

/-- The calls of `_awaitReply` that end with this message. -/
def listenersOnMessage (answers : Option Nat) (incoming : Incoming) (d : Device) : Device :=
  { d with
    listeners := d.listeners.filter fun l => (l.2.onMessage incoming).isNone
    settled := (d.listeners.filterMap fun l => (l.2.onMessage incoming).map fun ok =>
      { id := l.1, request := .listen l.2, ok := ok, cause := .message answers incoming }) ++
        d.settled }

def onMessage (answers : Option Nat) (incoming : Incoming) (d : Device) : Device :=
  (d.terminalOnMessage answers incoming).listenersOnMessage answers incoming

/-- The link is no longer connected. -/
def drop (d : Device) : Device :=
  { d with
    pendingReplies := []
    listeners := []
    settled :=
      (d.pendingReplies.map fun p =>
        { id := p.1, request := .input p.2, ok := false, cause := .dropped }) ++
      (d.listeners.map fun l =>
        { id := l.1, request := .listen l.2, ok := false, cause := .dropped }) ++ d.settled }

inductive Event where
  | attach (paneId : PaneId)
  | attachTimeout
  | abandonedTimeout (id : Nat)
  | detach
  | requestScrollback
  | scrollTimeout
  | leaveHistory
  | input (paneId : Option PaneId)
  | inputTimeout (id : Nat)
  | listen (listener : Listener)
  | listenTimeout (id : Nat)
  | message (answers : Option Nat) (incoming : Incoming)
  | drop
  deriving DecidableEq

/-- A reader who leaves history lets the reply of the Host go by. -/
def step (d : Device) : Event → Option Device
  | .attach paneId => some (d.attach paneId)
  | .attachTimeout => some (d.endAttach false .timeout)
  | .abandonedTimeout id =>
    match d.abandoned.find? fun a => a.1 == id with
    | none => none
    | some (_, paneId) =>
      some ({ d with abandoned := d.abandoned.filter fun a => a.1 != id }.settle
        { id := id, request := .attach paneId, ok := false, cause := .timeout })
  | .detach => some d.detach
  | .requestScrollback => some d.requestScrollback
  | .scrollTimeout => some (d.endFetch false .timeout)
  | .leaveHistory => some { d with scrollEpoch := d.scrollEpoch + 1 }
  | .input paneId =>
    some { d with
      pendingReplies := (d.nextId, paneId) :: d.pendingReplies, nextId := d.nextId + 1 }
  | .inputTimeout id => some (d.finishReply id false .timeout)
  | .listen listener =>
    some { d with listeners := (d.nextId, listener) :: d.listeners, nextId := d.nextId + 1 }
  | .listenTimeout id =>
    match d.listeners.find? fun l => l.1 == id && l.2.hasTimeout with
    | none => none
    | some (_, listener) =>
      some ({ d with listeners := d.listeners.filter fun l => l.1 != id }.settle
        { id := id, request := .listen listener, ok := false, cause := .timeout })
  | .message answers incoming => some (d.onMessage answers incoming)
  | .drop => some d.drop

end Device

end HerdrMobile.App.Requests
