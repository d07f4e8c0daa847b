import HerdrMobile.App.Terminal

/-!
# One terminal, many panes

The terminal of a Device while panes are attached one after the other, with its reader of
history. The rest of `attach` runs with the message that answers it, before the next message
comes in: the connection decrypts each message on its own.
-/
namespace HerdrMobile.App.Panes

open HerdrMobile.Proto.Messages HerdrMobile.Host.Watch

set_option autoImplicit false

/-- What is done to the grid: the resize of a `watch_ack`, a feed, with the pane that the
state names, and the rows of a scroll reply. -/
inductive Drawn where
  | watchAck (ack : WatchAck)
  | frame (paneId : Option PaneId) (frame : PaneFrame)
  | history (text : Text)
  deriving DecidableEq

/-- A call of `_fetchScrollback` that waits for its reply. -/
structure Fetch where
  paneId : PaneId
  epoch : Nat
  deriving DecidableEq

/-- `attachingPaneId` and `scrollCompleter` are there while their completers wait, and the
drawings are listed newest first. -/
structure TerminalService where
  paneId : Option PaneId
  attachingPaneId : Option PaneId
  pendingFrame : Option PaneFrame
  lastLiveFrame : Option PaneFrame
  lastAppliedRevision : Option Nat
  coalesceTimer : Bool
  slow : Bool
  selectionLive : Bool
  scrollOffset : Int
  readingScrollback : Bool
  showingScrollback : Bool
  scrollEpoch : Nat
  scrollCompleter : Option Fetch
  drawn : List Drawn
  deriving DecidableEq

namespace TerminalService

def start : TerminalService where
  paneId := none
  attachingPaneId := none
  pendingFrame := none
  lastLiveFrame := none
  lastAppliedRevision := none
  coalesceTimer := false
  slow := false
  selectionLive := false
  scrollOffset := 0
  readingScrollback := false
  showingScrollback := false
  scrollEpoch := 0
  scrollCompleter := none
  drawn := []

def frozen (t : TerminalService) : Bool :=
  t.selectionLive || decide (0 < t.scrollOffset) || t.readingScrollback

def cancelScrollback (t : TerminalService) : TerminalService :=
  { t with
    scrollEpoch := t.scrollEpoch + 1
    readingScrollback := false
    showingScrollback := false
    scrollCompleter := none }

/-- What `attach` and `detach` drop. -/
def reset (t : TerminalService) : TerminalService :=
  { t.cancelScrollback with
    coalesceTimer := false
    pendingFrame := none
    lastAppliedRevision := none
    lastLiveFrame := none
    scrollOffset := 0
    selectionLive := false }

def attach (t : TerminalService) (paneId : PaneId) : TerminalService :=
  { t.reset with attachingPaneId := some paneId }

def detach (t : TerminalService) : TerminalService := { t.reset with paneId := none }

def attachFailed (t : TerminalService) : TerminalService := { t with attachingPaneId := none }

def applyWatchAck (t : TerminalService) (ack : WatchAck) : TerminalService :=
  { t with
    attachingPaneId := none
    paneId := some ack.paneId
    drawn := .watchAck ack :: t.drawn }

def onWatchAck (t : TerminalService) (ack : WatchAck) : TerminalService :=
  if t.attachingPaneId = some ack.paneId then t.applyWatchAck ack else t

/-- `currentBest` of `_onPaneFrame`. -/
def currentBest (t : TerminalService) : Option Nat :=
  (t.pendingFrame.map PaneFrame.revision).or t.lastAppliedRevision

/-- `tripped` is whether this feed was measured to be slow once too often. -/
def flushPendingFrame (t : TerminalService) (tripped : Bool) : TerminalService :=
  let t := { t with coalesceTimer := false }
  match t.pendingFrame with
  | none => t
  | some frame =>
    if t.frozen then t
    else
      { t with
        pendingFrame := none
        lastAppliedRevision := some frame.revision
        lastLiveFrame := some frame
        drawn := .frame t.paneId frame :: t.drawn
        slow := t.slow || tripped }

def older (t : TerminalService) (frame : PaneFrame) : Bool :=
  t.currentBest.any (frame.revision < ·)

def onPaneFrame (t : TerminalService) (frame : PaneFrame) (tripped : Bool) : TerminalService :=
  if t.paneId ≠ some frame.paneId then t
  else if t.older frame then t
  else
    let t := { t with pendingFrame := some frame }
    if t.frozen || t.coalesceTimer then t
    else if t.slow then { t with coalesceTimer := true }
    else t.flushPendingFrame tripped

/-- A reader who returns sees the last frame again, unless a newer one is held. -/
def leaveHistory (t : TerminalService) : TerminalService :=
  if t.showingScrollback then
    { t with showingScrollback := false, pendingFrame := t.pendingFrame.or t.lastLiveFrame }
  else t

def onFreezeConditionChanged (t : TerminalService) (tripped : Bool) : TerminalService :=
  if t.frozen then t
  else ({ t with coalesceTimer := false }.leaveHistory).flushPendingFrame tripped

def setSelectionLive (t : TerminalService) (live tripped : Bool) : TerminalService :=
  if t.selectionLive = live then t
  else { t with selectionLive := live }.onFreezeConditionChanged tripped

def setScrollOffset (t : TerminalService) (offsetAboveBottom : Int) (tripped : Bool) :
    TerminalService :=
  let wasLive := decide (t.scrollOffset ≤ 0)
  let isLive := decide (offsetAboveBottom ≤ 0)
  let t := { t with scrollOffset := offsetAboveBottom }
  if isLive && t.readingScrollback then
    { t with readingScrollback := false, scrollEpoch := t.scrollEpoch + 1
      }.onFreezeConditionChanged tripped
  else if wasLive = isLive then t
  else t.onFreezeConditionChanged tripped

def requestScrollback (t : TerminalService) (tripped : Bool) : TerminalService :=
  match t.scrollCompleter, t.paneId with
  | none, some paneId =>
    let epoch := t.scrollEpoch + 1
    { { t with scrollEpoch := epoch, readingScrollback := true }.onFreezeConditionChanged tripped
      with scrollCompleter := some { paneId := paneId, epoch := epoch } }
  | _, _ => t

/-- `proven` is whether the rows could be put above a selection. -/
def showHistory (t : TerminalService) (text : Text) (proven : Bool) : TerminalService :=
  { t with
    showingScrollback := true
    drawn := if t.selectionLive && !proven then t.drawn else .history text :: t.drawn }

/-- The rest of `_fetchScrollback`: the reply, or none. -/
def endFetch (t : TerminalService) (fetch : Fetch) (reply : Option Text) (proven tripped : Bool) :
    TerminalService :=
  let t := { t with scrollCompleter := none }
  if fetch.epoch ≠ t.scrollEpoch ∨ some fetch.paneId ≠ t.paneId then t
  else
    match reply with
    | some text => t.showHistory text proven
    | none => { t with readingScrollback := false }.onFreezeConditionChanged tripped

def onScrollResponse (t : TerminalService) (paneId : PaneId) (text : Text)
    (proven tripped : Bool) : TerminalService :=
  match t.scrollCompleter with
  | some fetch =>
    if t.paneId = some paneId then t.endFetch fetch (some text) proven tripped else t
  | none => t

def scrollTimeout (t : TerminalService) (tripped : Bool) : TerminalService :=
  match t.scrollCompleter with
  | some fetch => t.endFetch fetch none false tripped
  | none => t

/-- `answersReply` is whether the error is the reply to an input or a probe. -/
def onError (t : TerminalService) (answersReply tripped : Bool) : TerminalService :=
  if answersReply then t else t.attachFailed.scrollTimeout tripped

end TerminalService

/-- `attached` is the pane whose attach has succeeded with none begun since, and `received`
are the frames of it that have come in since its `watch_ack`, newest first. -/
structure Watch where
  service : TerminalService
  attached : Option PaneId
  received : List PaneFrame
  deriving DecidableEq

inductive Event where
  | attach (paneId : PaneId)
  | detach
  | attachTimeout
  | watchAck (ack : WatchAck)
  | paneFrame (frame : PaneFrame) (tripped : Bool)
  | setSelectionLive (live tripped : Bool)
  | setScrollOffset (offsetAboveBottom : Int) (tripped : Bool)
  | requestScrollback (tripped : Bool)
  | scrollResponse (paneId : PaneId) (text : Text) (proven tripped : Bool)
  | scrollTimeout (tripped : Bool)
  | error (answersReply tripped : Bool)
  | timer (tripped : Bool)
  | disconnect
  deriving DecidableEq

namespace Watch

def start : Watch where
  service := .start
  attached := none
  received := []

def onWatchAck (w : Watch) (ack : WatchAck) : Watch :=
  if w.service.attachingPaneId = some ack.paneId then
    { service := w.service.onWatchAck ack, attached := some ack.paneId, received := [] }
  else w

def onPaneFrame (w : Watch) (frame : PaneFrame) (tripped : Bool) : Watch :=
  { w with
    service := w.service.onPaneFrame frame tripped
    received := if w.attached = some frame.paneId then frame :: w.received else w.received }

/-- A lost connection touches no frame. -/
def step (w : Watch) : Event → Option Watch
  | .attach paneId =>
    some { service := w.service.attach paneId, attached := none, received := [] }
  | .detach => some { service := w.service.detach, attached := none, received := [] }
  | .attachTimeout => some { w with service := w.service.attachFailed }
  | .watchAck ack => some (w.onWatchAck ack)
  | .paneFrame frame tripped => some (w.onPaneFrame frame tripped)
  | .setSelectionLive live tripped =>
    some { w with service := w.service.setSelectionLive live tripped }
  | .setScrollOffset offset tripped =>
    some { w with service := w.service.setScrollOffset offset tripped }
  | .requestScrollback tripped => some { w with service := w.service.requestScrollback tripped }
  | .scrollResponse paneId text proven tripped =>
    some { w with service := w.service.onScrollResponse paneId text proven tripped }
  | .scrollTimeout tripped => some { w with service := w.service.scrollTimeout tripped }
  | .error answersReply tripped =>
    some { w with service := w.service.onError answersReply tripped }
  | .timer tripped =>
    if w.service.coalesceTimer then
      some { w with service := w.service.flushPendingFrame tripped }
    else none
  | .disconnect => some w

end Watch

/-- The text that the grid was last fed. -/
def gridOf : List Drawn → Option Text
  | [] => none
  | .watchAck _ :: rest => gridOf rest
  | .frame _ frame :: _ => some frame.text
  | .history text :: _ => some text

namespace TerminalService

/-- The terminal as it is for who does not read history. -/
def plain (t : TerminalService) : Terminal.TerminalService where
  paneId := t.paneId
  attachingPaneId := t.attachingPaneId
  pendingFrame := t.pendingFrame
  lastAppliedRevision := t.lastAppliedRevision
  coalesceTimer := t.coalesceTimer
  slow := t.slow
  frozen := t.frozen
  grid := gridOf t.drawn

variable (t : TerminalService)

theorem plain_onWatchAck (ack : WatchAck) :
    (t.onWatchAck ack).plain = t.plain.onWatchAck ack := by
  unfold onWatchAck Terminal.TerminalService.onWatchAck
  have hsame : t.plain.attachingPaneId = t.attachingPaneId := rfl
  rw [hsame]
  split <;> rfl

end TerminalService

end HerdrMobile.App.Panes
