import HerdrMobile.Lib.Run
import HerdrMobile.App.Composer
import HerdrMobile.Host.Watch

/-!
# A Device and its Host

The composer at one end of an in-order channel and the bridge of its session at the
other. A connection that is lost takes with it what was on its way to the Device; the
Host may still serve what has reached it, until the Device is back and a new session
starts. The lines of the panes outlive the sessions.
-/
namespace HerdrMobile.App.Link

open HerdrMobile.Proto.Messages HerdrMobile.Host.Keys HerdrMobile.Host.Herdr
open HerdrMobile.Host.Input HerdrMobile.Host.Held HerdrMobile.Host.Coalesce HerdrMobile.Host.Watch
open HerdrMobile.App.Composer

set_option autoImplicit false

variable {Hash : Type}

/-- What the composer hears of the Host. -/
inductive FromHost where
  | watchAck (ack : WatchAck)
  | inputAck (ack : SendInputAck) (corr : Option Tag)
  deriving DecidableEq

/-- An Enter that went to the pane: the request it was for, and the line of the pane
at that moment. -/
structure Forwarded where
  corr : Option Tag
  line : Text
  deriving DecidableEq

/-- `typed` is the last edit since Send was pressed. -/
structure System (Hash : Type) where
  device : Device
  bridge : Bridge Hash Tag
  shared : Shared
  toHost : List (BridgeRequest Tag)
  toDevice : List FromHost
  typed : Option Text
  forwarded : List Forwarded

/-- `serve` is one turn of the bridge thread, with that many requests in its queue;
`answer` is the arrival of a message at the Device. -/
inductive Event where
  | changed (text : Text)
  | pressSend (whenIdle : Bool)
  | answer
  | replyTimeout
  | disconnect
  | reconnect
  | serve (now : Nat) (arrived : Nat)
  | agentStatus (now : Nat) (status : Option Text)
  deriving DecidableEq

def newBridge (config : RelayConfig) : Bridge Hash Tag := ⟨config, none, none, none, some true, []⟩

/-- The pane gets an Enter. -/
def entersPane (paneId : PaneId) : Entry → Bool
  | .sent (.sendInput p _ (some keys)) true =>
    p == paneId && keys.any fun key => eqIgnoreAsciiCase key "Enter".toList
  | _ => false

/-- The line of the pane at each Enter among the calls that follow a log. -/
def enters (joins : Graphemes) (paneId : PaneId) : Log → Log → List Text
  | _, [] => []
  | log, e :: calls =>
    (if entersPane paneId e then [remote joins log paneId] else []) ++
      enters joins paneId (log ++ [e]) calls

def forwardedFor (joins : Graphemes) (paneId : PaneId) (corr : Option Tag) (before after : Log) :
    List Forwarded :=
  (enters joins paneId before (after.drop before.length)).map (⟨corr, ·⟩)

def inputAcks (replies : List (Reply Tag)) : List FromHost :=
  replies.map fun (ack, corr) => .inputAck ack corr

def lineOf : BridgeRequest Tag → Option Text
  | .sendInput request _ => request.line
  | _ => none

section Step

variable (joins : Graphemes) (herdr : HerdrCalls) (frameHash : FrameHash Hash)
  (config : RelayConfig) (paneId : PaneId)

/-- The Device attaches to the pane. -/
def System.start : System Hash where
  device := .start
  bridge := newBridge config
  shared := .start
  toHost := [.watchPane paneId none]
  toDevice := []
  typed := none
  forwarded := []

/-- The Device has acted and put requests on the channel. -/
def System.acted (s : System Hash) (acted : Device × List (BridgeRequest Tag)) : System Hash :=
  { s with device := acted.1, toHost := s.toHost ++ acted.2 }

def step (s : System Hash) : Event → Option (System Hash)
  | .changed text =>
    let s' := s.acted (s.device.changed paneId text)
    some (if !s.device.enabled || s.device.queued then s' else { s' with typed := some text })
  | .pressSend whenIdle =>
    let s' := s.acted (s.device.pressSend paneId whenIdle)
    some (if s.device.canSend then { s' with typed := none } else s')
  | .answer =>
    if !s.device.connected then none
    else
      match s.toDevice with
      | [] => none
      | .watchAck ack :: rest =>
        some { s.acted (s.device.onWatchAck paneId ack) with toDevice := rest }
      | .inputAck ack corr :: rest =>
        some { s.acted (s.device.onSendInputAck paneId ack corr) with toDevice := rest }
  | .replyTimeout => some { s with device := s.device.replyTimeout }
  | .disconnect =>
    if !s.device.connected then none
    else some { s with device := s.device.disconnect, toDevice := [] }
  | .reconnect =>
    if s.device.connected then none
    else
      let (device, out) := s.device.resume paneId
      some { s with device := device, bridge := newBridge config, toHost := out, toDevice := [] }
  | .serve now arrived =>
    match s.toHost.take arrived with
    | .watchPane id _ :: queue =>
      let (result, bridge, shared) := watchPane herdr frameHash now id s.bridge s.shared
      let out := match result with
        | .ok (ack, _) => [.watchAck ack]
        | .error _ => []
      some { s with
        bridge := bridge
        shared := shared
        toHost := queue ++ s.toHost.drop arrived
        toDevice := s.toDevice ++ out }
    | .sendInput request corr :: queue =>
      let (replies, left, bridge, shared) :=
        serveQueued joins herdr now request corr queue s.bridge s.shared
      some { s with
        bridge := bridge
        shared := shared
        toHost := left ++ s.toHost.drop arrived
        toDevice := s.toDevice ++ inputAcks replies
        forwarded := s.forwarded ++ forwardedFor joins paneId corr s.shared.log shared.log }
    | _ => none
  | .agentStatus now status =>
    let corr := s.bridge.pendingInput.bind PendingInput.corr
    let (bridge, shared) := handleSubscriptionLine joins herdr now
      (.paneAgentStatusChanged paneId status) s.bridge s.shared
    let (replies, bridge) := takeInputReplies bridge
    some { s with
      bridge := bridge
      shared := shared
      toDevice := s.toDevice ++ inputAcks replies
      forwarded := s.forwarded ++ forwardedFor joins paneId corr s.shared.log shared.log }

/-- The line of the pane at the Herdr end. -/
def System.line (s : System Hash) : Text := remote joins s.shared.log paneId

/-- The line of the pane once the lines on their way have arrived. -/
def System.settled (s : System Hash) : Text :=
  (s.toHost.filterMap lineOf).getLast?.getD (s.line joins paneId)

/-- Each Enter went out when the line of the pane was the text at its Send, and what has
been typed since the last Send is in the line of the pane once nothing is on its way. -/
structure SubmitsExactly (s : System Hash) : Prop where
  submitted : ∀ f ∈ s.forwarded, f.corr.map Tag.pressed = some f.line
  kept : ∀ text, s.typed = some text → text ≠ [] → s.device.connected = true → s.toHost = [] →
    s.toDevice = [] → s.line joins paneId = text

/-- The steps that keep a submit apart from what is typed after it: the line of a submit
is accepted before anything else is typed; no line arrives while the Host holds a
submit; an empty composer is submitted only when the pane has an empty line; and after
a lost connection the composer or the pane has what was typed last. -/
def apart (s : System Hash) : Event → Bool
  | .answer =>
    match s.toDevice with
    | .inputAck ack corr :: _ =>
      !(s.device.submit.any (fun d => !d.entering && Device.awaits corr d) && ack.accepted)
        || s.typed.isNone
    | _ => true
  | .serve _ arrived =>
    match s.toHost.take arrived with
    | .sendInput request _ :: _ => request.line.isNone || s.bridge.pendingInput.isNone
    | _ => true
  | .pressSend _ =>
    !(s.device.canSend && s.device.text.isEmpty) || (s.settled joins paneId).isEmpty
  | .reconnect =>
    s.typed.all fun text =>
      text.isEmpty || s.device.text == text || s.line joins paneId == text
  | _ => true

end Step

end HerdrMobile.App.Link
