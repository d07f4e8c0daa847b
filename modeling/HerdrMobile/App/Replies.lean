import HerdrMobile.Proto.Messages
import HerdrMobile.Lib.Run
import Mathlib.Data.List.AList

/-!
# The replies that the terminal service waits for

Every input and every probe goes out under a correlation id with a timer, and a submit is
also a future that its reply completes. A history, newest entry first, keeps what the
requests were for and what came back.
-/
namespace HerdrMobile.App.Replies

open HerdrMobile.Proto.Messages

set_option autoImplicit false

/-- `terminal` is one of `_freshCorr`. The key row brings ids of its own, and those start
with another word. -/
inductive Corr where
  | terminal (number : Nat)
  | caller (name : Text)
  deriving DecidableEq

inductive Message where
  | sendInput (payload : SendInput)
  | ping
  deriving DecidableEq

structure PendingReply where
  paneId : Option PaneId
  timer : Nat
  deriving DecidableEq

/-- Where the body of `sendComposerSubmit` stands: it waits for the line or for the Enter. -/
inductive Stage where
  | line (awaited : Nat)
  | enter (awaited : Nat)
  deriving DecidableEq

def Stage.awaited : Stage → Nat
  | .line f => f
  | .enter f => f

/-- A call of `sendComposerSubmit` that has not returned. -/
structure ComposerCall where
  future : Nat
  paneId : PaneId
  line : Text
  whenIdle : Bool
  generation : Nat
  stage : Stage
  deriving DecidableEq

/-- What a request of a composer call is for. -/
structure Purpose where
  call : Nat
  paneId : PaneId
  line : Text
  deriving DecidableEq

def ComposerCall.purpose (call : ComposerCall) : Purpose where
  call := call.future
  paneId := call.paneId
  line := call.line

/-- `issued` is a request that the future waits for; `handed` is the request that the future
waits for from then on. -/
inductive Entry where
  | issued (future : Nat) (corr : Corr) (input : SendInput) (purpose : Option Purpose)
  | handed (future : Nat) (previous corr : Corr) (paneId : PaneId)
  | sent (corr : Corr) (message : Message)
  | acknowledged (corr : Corr) (ack : SendInputAck)
  | completed (future : Nat) (value : Bool)
  | lost
  deriving DecidableEq

/-- `queuedCorr` is `_queuedCorr`; the live timers are listed with the reply they end. -/
structure Service where
  pendingReplies : AList fun _ : Corr => PendingReply
  submits : AList fun _ : Corr => Nat
  timers : List (Nat × Corr)
  nextTimer : Nat
  corrSequence : Nat
  nextFuture : Nat
  disposed : Bool
  connectionGeneration : Nat
  composerQueued : Bool
  queuedCorr : Option Corr
  calls : List ComposerCall
  history : List Entry

namespace Service

def start : Service where
  pendingReplies := ∅
  submits := ∅
  timers := []
  nextTimer := 0
  corrSequence := 0
  nextFuture := 0
  disposed := false
  connectionGeneration := 0
  composerQueued := false
  queuedCorr := none
  calls := []
  history := []

def note (entry : Entry) (s : Service) : Service := { s with history := entry :: s.history }

def cancelTimer (timer : Nat) (s : Service) : Service :=
  { s with timers := s.timers.filter fun t => t.1 != timer }

def freshCorr (s : Service) : Service × Corr :=
  ({ s with corrSequence := s.corrSequence + 1 }, .terminal s.corrSequence)

/-- A future that is complete from the start. -/
def futureValue (value : Bool) (s : Service) : Service × Nat :=
  ({ s with nextFuture := s.nextFuture + 1 }.note (.completed s.nextFuture value), s.nextFuture)

def clearQueued (corr : Corr) (s : Service) : Service :=
  if s.queuedCorr = some corr then { s with queuedCorr := none, composerQueued := false } else s

def completeSubmit (corr : Corr) (accepted : Bool) (s : Service) : Service :=
  match s.submits.lookup corr with
  | none => s
  | some f => { s with submits := s.submits.erase corr }.note (.completed f accepted)

def finishReply (corr : Corr) (accepted : Bool) (s : Service) : Service :=
  match s.pendingReplies.lookup corr with
  | none => s
  | some pending =>
    let s := { s with pendingReplies := s.pendingReplies.erase corr }.cancelTimer pending.timer
    (s.clearQueued corr).completeSubmit corr accepted

def requestPane : Message → Option PaneId
  | .sendInput payload => some payload.paneId
  | .ping => none

/-- A new timer for a reply. -/
def await (corr : Corr) (paneId : Option PaneId) (s : Service) : Service :=
  { s with
    pendingReplies := s.pendingReplies.insert corr { paneId := paneId, timer := s.nextTimer }
    timers := (s.nextTimer, corr) :: s.timers
    nextTimer := s.nextTimer + 1 }

/-- `throws` is whether the connection refuses the message. -/
def send (message : Message) (corr : Corr) (throws : Bool) (s : Service) : Service :=
  if s.disposed then s
  else
    let s := s.await corr (requestPane message)
    if throws then s.finishReply corr false else s.note (.sent corr message)

/-- The future is of the completer, or of the value that stands in for it after a throw. -/
def sendAndWait (input : SendInput) (purpose : Option Purpose) (throws : Bool) (s : Service) :
    Service × Nat :=
  if s.disposed then s.futureValue false
  else
    let (s, corr) := s.freshCorr
    let f := s.nextFuture
    let s := { s with nextFuture := f + 1, submits := s.submits.insert corr f }
    let s := s.note (.issued f corr input purpose)
    let s := s.send (.sendInput input) corr throws
    if throws then s.futureValue false else (s, f)

/-- `send` of the probe of the link and of the key row, whose requests nobody waits for. -/
def sendMessage (message : Message) (corr : Option Text) (throws : Bool) (s : Service) : Service :=
  if s.disposed then s
  else
    match corr with
    | none =>
      let (s, corr) := s.freshCorr
      s.send message corr throws
    | some name => s.send message (.caller name) throws

def lineRequest (paneId : PaneId) (line : Text) : SendInput where
  paneId := paneId
  line := some line

def sendComposerLine (paneId : PaneId) (line : Text) (throws : Bool) (s : Service) : Service :=
  s.sendMessage (.sendInput (lineRequest paneId line)) none throws

def enterRequest (paneId : PaneId) (whenIdle : Bool) : SendInput where
  paneId := paneId
  keys := some ["Enter".toList]
  defer := if whenIdle then some .untilIdle else none

/-- The end of `sendComposerSubmit` from the Enter on. -/
def sendEnter (call : ComposerCall) (throws : Bool) (s : Service) : Service :=
  let (s, f) := s.sendAndWait (enterRequest call.paneId call.whenIdle) (some call.purpose) throws
  { s with calls := { call with stage := .enter f } :: s.calls }

def sendComposerSubmit (paneId : PaneId) (line : Text) (whenIdle throws : Bool) (s : Service) :
    Service :=
  let call : ComposerCall :=
    { future := s.nextFuture
      paneId := paneId
      line := line
      whenIdle := whenIdle
      generation := s.connectionGeneration
      stage := .line s.nextFuture }
  let s := { s with nextFuture := s.nextFuture + 1 }
  if line = [] then s.sendEnter call throws
  else
    let (s, f) := s.sendAndWait (lineRequest paneId line) (some call.purpose) throws
    { s with calls := { call with stage := .line f } :: s.calls }

def answerRequest (paneId : PaneId) (text : Text) : SendInput where
  paneId := paneId
  text := if text = [] then none else some text
  keys := some ["Enter".toList]
  bypassLine := some true

def sendAnswerSubmit (paneId : PaneId) (text : Text) (throws : Bool) (s : Service) : Service :=
  (s.sendAndWait (answerRequest paneId text) none throws).1

def cancelComposerSubmit (paneId : PaneId) (throws : Bool) (s : Service) : Service :=
  (s.sendAndWait { paneId := paneId, defer := some .cancel } none throws).1

/-- The future of the held Enter waits for a second Enter from then on. -/
def sendQueuedComposerNow (paneId : PaneId) (throws : Bool) (s : Service) : Service :=
  match s.queuedCorr with
  | none => s
  | some previous =>
    match s.pendingReplies.lookup previous, s.submits.lookup previous with
    | some pending, some f =>
      if s.disposed ∨ pending.paneId ≠ some paneId then s
      else
        let s := { s with
          submits := s.submits.erase previous
          queuedCorr := none
          composerQueued := false }
        let s := s.await previous (some paneId)
        let (s, corr) := s.freshCorr
        let s := { s with submits := s.submits.insert corr f }
        let s := s.note (.handed f previous corr paneId)
        s.send (.sendInput { paneId := paneId, keys := some ["Enter".toList] }) corr throws
    | _, _ => s

/-- The timer of a queued reply is stopped: the Host may hold it for long. -/
def onQueued (corr : Corr) (pending : PendingReply) (s : Service) : Service :=
  if corr ∈ s.submits then
    { s.cancelTimer pending.timer with queuedCorr := some corr, composerQueued := true }
  else s

def onSendInputAck (corr : Corr) (ack : SendInputAck) (s : Service) : Service :=
  let s := s.note (.acknowledged corr ack)
  match s.pendingReplies.lookup corr with
  | none => s
  | some pending =>
    if pending.paneId = some ack.paneId then
      if ack.accepted && ack.queued then s.onQueued corr pending
      else s.finishReply corr ack.accepted
    else s

def onPong (corr : Corr) (s : Service) : Service :=
  match s.pendingReplies.lookup corr with
  | none => s
  | some pending => if pending.paneId = none then s.finishReply corr true else s

def onError (corr : Corr) (s : Service) : Service := s.finishReply corr false

def disconnect (s : Service) : Service :=
  let s := { s with connectionGeneration := s.connectionGeneration + 1 }
  (s.pendingReplies.keys.foldl (fun s corr => s.finishReply corr false) s).note .lost

def dispose (s : Service) : Service := { s with disposed := true }.disconnect

/-- The value that a future was completed with. -/
def valueOf : List Entry → Nat → Option Bool
  | [], _ => none
  | .completed g value :: rest, f => if g = f then some value else valueOf rest f
  | _ :: rest, f => valueOf rest f

/-- The body of a call goes on with the value that it waited for. -/
def resume (call : ComposerCall) (value : Bool) (throws : Bool) (s : Service) : Service :=
  match call.stage with
  | .line _ =>
    if value = false ∨ call.generation ≠ s.connectionGeneration then
      s.note (.completed call.future false)
    else s.sendEnter call throws
  | .enter _ => s.note (.completed call.future value)

inductive Event where
  | sendComposerLine (paneId : PaneId) (line : Text) (throws : Bool)
  | sendMessage (message : Message) (corr : Option Text) (throws : Bool)
  | sendComposerSubmit (paneId : PaneId) (line : Text) (whenIdle throws : Bool)
  | sendAnswerSubmit (paneId : PaneId) (text : Text) (throws : Bool)
  | cancelComposerSubmit (paneId : PaneId) (throws : Bool)
  | sendQueuedComposerNow (paneId : PaneId) (throws : Bool)
  | sendInputAck (corr : Corr) (ack : SendInputAck)
  | pong (corr : Corr)
  | error (corr : Corr)
  | timeout (timer : Nat)
  | resume (call : ComposerCall) (throws : Bool)
  | disconnect
  | dispose
  deriving DecidableEq

/-- A message comes in only before `dispose`, and a call goes on once what it waits for is
complete. -/
def step (s : Service) : Event → Option Service
  | .sendComposerLine paneId line throws => some (s.sendComposerLine paneId line throws)
  | .sendMessage message corr throws => some (s.sendMessage message corr throws)
  | .sendComposerSubmit paneId line whenIdle throws =>
    some (s.sendComposerSubmit paneId line whenIdle throws)
  | .sendAnswerSubmit paneId text throws => some (s.sendAnswerSubmit paneId text throws)
  | .cancelComposerSubmit paneId throws => some (s.cancelComposerSubmit paneId throws)
  | .sendQueuedComposerNow paneId throws => some (s.sendQueuedComposerNow paneId throws)
  | .sendInputAck corr ack => if s.disposed then none else some (s.onSendInputAck corr ack)
  | .pong corr => if s.disposed then none else some (s.onPong corr)
  | .error corr => if s.disposed then none else some (s.onError corr)
  | .timeout timer =>
    match s.timers.find? fun t => t.1 == timer with
    | none => none
    | some (_, corr) =>
      some ({ s with timers := s.timers.filter fun t => t.1 != timer }.finishReply corr false)
  | .resume call throws =>
    if call ∈ s.calls then
      match valueOf s.history call.stage.awaited with
      | none => none
      | some value => some ({ s with calls := s.calls.erase call }.resume call value throws)
    else none
  | .disconnect => some s.disconnect
  | .dispose => some s.dispose

end Service

end HerdrMobile.App.Replies
