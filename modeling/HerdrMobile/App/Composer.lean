import HerdrMobile.Host.Coalesce

/-!
# The composer of the Device

The text field of the terminal screen and the requests that the terminal service
sends for it. At most one submit is under way. The answer page and the accepted
keys of the key panel, which also write the field, are not part of it.
-/
namespace HerdrMobile.App.Composer

open HerdrMobile.Proto.Messages HerdrMobile.Host.Coalesce

set_option autoImplicit false

/-- A correlation id, with the line it is about: of a submit, the text that the
composer held when Send was pressed. -/
structure Tag where
  number : Nat
  pressed : Text
  deriving DecidableEq

/-- A submit under way: it waits for the line or, when `entering`, for the Enter. -/
structure Submit where
  line : Text
  whenIdle : Bool
  generation : Nat
  corr : Nat
  entering : Bool
  queued : Bool
  deriving DecidableEq

structure Device where
  text : Text
  edited : Bool
  submit : Option Submit
  receivedWatchAck : Bool
  connected : Bool
  connectionGeneration : Nat
  corrSequence : Nat
  deriving DecidableEq

namespace Device

def start : Device where
  text := []
  edited := false
  submit := none
  receivedWatchAck := false
  connected := true
  connectionGeneration := 0
  corrSequence := 0

/-- The grid is live. -/
def enabled (d : Device) : Bool := d.connected && d.receivedWatchAck

/-- `composerQueued`, which makes the field read-only. -/
def queued (d : Device) : Bool := d.submit.any Submit.queued

def canSend (d : Device) : Bool := d.enabled && d.submit.isNone

/-- Seed the Host line only before the first local edit. -/
def seedLine (line : Text) (d : Device) : Device :=
  if d.edited || d.submit.isSome || !d.text.isEmpty then d else { d with text := line }

/-- A request with a fresh correlation id. -/
def send (request : SendInput) (pressed : Text) (d : Device) : Device × List (BridgeRequest Tag) :=
  ({ d with corrSequence := d.corrSequence + 1 },
    [.sendInput request (some ⟨d.corrSequence, pressed⟩)])

def sendComposerLine (paneId : PaneId) (line : Text) (d : Device) :
    Device × List (BridgeRequest Tag) :=
  d.send { paneId := paneId, line := some line } line

/-- An edit of the person. The field takes none while it is disabled or read-only. -/
def changed (paneId : PaneId) (text : Text) (d : Device) : Device × List (BridgeRequest Tag) :=
  if !d.enabled || d.queued then (d, [])
  else sendComposerLine paneId text { d with text := text, edited := true }

def enterRequest (paneId : PaneId) (whenIdle : Bool) : SendInput where
  paneId := paneId
  keys := some ["Enter".toList]
  defer := if whenIdle then some .untilIdle else none

/-- The second half of `sendComposerSubmit`. -/
def sendEnter (paneId : PaneId) (s : Submit) (d : Device) : Device × List (BridgeRequest Tag) :=
  let s := { s with corr := d.corrSequence, entering := true, queued := false }
  ({ d with submit := some s }).send (enterRequest paneId s.whenIdle) s.line

/-- `_submit` up to its first wait. -/
def pressSend (paneId : PaneId) (whenIdle : Bool) (d : Device) :
    Device × List (BridgeRequest Tag) :=
  if !d.canSend then (d, [])
  else
    let s : Submit :=
      { line := d.text
        whenIdle := whenIdle
        generation := d.connectionGeneration
        corr := d.corrSequence
        entering := false
        queued := false }
    let d := if whenIdle then d else { d with text := [] }
    if s.line.isEmpty then sendEnter paneId s d
    else ({ d with submit := some s }).send { paneId := paneId, line := some s.line } s.line

/-- The end of `_submit`: a line that was not accepted goes back into an empty field. -/
def finish (accepted : Bool) (d : Device) : Device :=
  match d.submit with
  | none => d
  | some s =>
    let text :=
      if accepted then if s.whenIdle then [] else d.text
      else if !s.whenIdle && d.text.isEmpty then s.line else d.text
    { d with submit := none, text := text }

/-- The submit waits for the answer with this correlation id. -/
def awaits (corr : Option Tag) (s : Submit) : Bool := corr.any (·.number == s.corr)

def onSendInputAck (paneId : PaneId) (ack : SendInputAck) (corr : Option Tag) (d : Device) :
    Device × List (BridgeRequest Tag) :=
  match d.submit with
  | none => (d, [])
  | some s =>
    if awaits corr s && ack.paneId == paneId then
      if ack.accepted && ack.queued then ({ d with submit := some { s with queued := true } }, [])
      else if s.entering then (d.finish ack.accepted, [])
      else if ack.accepted && s.generation == d.connectionGeneration then d.sendEnter paneId s
      else (d.finish false, [])
    else (d, [])

/-- The first acknowledgement of the watch seeds the field; after a later one the
Device sends its own line again, unless it is empty. -/
def onWatchAck (paneId : PaneId) (ack : WatchAck) (d : Device) : Device × List (BridgeRequest Tag) :=
  if ack.paneId ≠ paneId then (d, [])
  else if !d.receivedWatchAck then (({ d with receivedWatchAck := true }).seedLine ack.line, [])
  else if d.text.isEmpty then (d, [])
  else sendComposerLine paneId d.text d

/-- No answer within `_replyTimeout`. The timer stops when the submit is queued. -/
def replyTimeout (d : Device) : Device := if d.queued then d else d.finish false

def disconnect (d : Device) : Device :=
  { d.finish false with
    connected := false
    connectionGeneration := d.connectionGeneration + 1 }

/-- The relay is connected again and watches the same pane. -/
def resume (paneId : PaneId) (d : Device) : Device × List (BridgeRequest Tag) :=
  ({ d with connected := true }, [.watchPane paneId none])

end Device

end HerdrMobile.App.Composer
