import HerdrMobile.Lib.Newest
import HerdrMobile.Lib.Run
import HerdrMobile.Host.HeldSteps

/-!
# The terminal of a Device

The frames of the attached pane on their way to the grid, and the Host that sends
them, at the two ends of an in-order channel. The reader of history is not part of it:
the grid is frozen by a selection or by scrolling only.
-/
namespace HerdrMobile.App.Terminal

open HerdrMobile.Lib.Newest HerdrMobile.Proto.Messages HerdrMobile.Host.Herdr HerdrMobile.Host.Input
open HerdrMobile.Host.Watch HerdrMobile.Host.Session

set_option autoImplicit false

variable {Hash : Type}

/-- `attachingPaneId` is there while the completer of an attach waits for its
`watch_ack`; `coalesceTimer` is whether the timer runs; `slow` is whether a slow render
has ever been measured. The grid is the text it was last fed. -/
structure TerminalService where
  paneId : Option PaneId
  attachingPaneId : Option PaneId
  pendingFrame : Option PaneFrame
  lastAppliedRevision : Option Nat
  coalesceTimer : Bool
  slow : Bool
  frozen : Bool
  grid : Option Text
  deriving DecidableEq

namespace TerminalService

def start : TerminalService where
  paneId := none
  attachingPaneId := none
  pendingFrame := none
  lastAppliedRevision := none
  coalesceTimer := false
  slow := false
  frozen := false
  grid := none

/-- What `attach` and `detach` drop. -/
def reset (t : TerminalService) : TerminalService :=
  { t with
    pendingFrame := none
    lastAppliedRevision := none
    coalesceTimer := false
    frozen := false }

def attach (t : TerminalService) (paneId : PaneId) : TerminalService :=
  { t.reset with attachingPaneId := some paneId }

def detach (t : TerminalService) : TerminalService := { t.reset with paneId := none }

/-- The attach that waits is over without its `watch_ack`: no answer in time, or an error. -/
def attachFailed (t : TerminalService) : TerminalService := { t with attachingPaneId := none }

def onWatchAck (t : TerminalService) (ack : WatchAck) : TerminalService :=
  if t.attachingPaneId = some ack.paneId then
    { t with attachingPaneId := none, paneId := some ack.paneId }
  else t

/-- `currentBest` of `_onPaneFrame`. -/
def currentBest (t : TerminalService) : Option Nat :=
  (t.pendingFrame.map PaneFrame.revision).or t.lastAppliedRevision

/-- `tripped` is whether this feed was measured to be slow once too often. -/
def flushPendingFrame (t : TerminalService) (tripped : Bool) : TerminalService :=
  let t := { t with coalesceTimer := false }
  match t.pendingFrame with
  | none => t
  | some frame =>
    if t.frozen then t
    else
      { t with
        pendingFrame := none
        lastAppliedRevision := some frame.revision
        grid := some frame.text
        slow := t.slow || tripped }

/-- The frame is older than what is painted or held. -/
def older (t : TerminalService) (frame : PaneFrame) : Bool :=
  t.currentBest.any (frame.revision < ·)

def onPaneFrame (t : TerminalService) (frame : PaneFrame) (tripped : Bool) : TerminalService :=
  if t.paneId ≠ some frame.paneId then t
  else if t.older frame then t
  else
    let t := { t with pendingFrame := some frame }
    if t.frozen || t.coalesceTimer then t
    else if t.slow then { t with coalesceTimer := true }
    else t.flushPendingFrame tripped

/-- A selection or a scroll offset appears, or the last of them is gone. -/
def setFrozen (t : TerminalService) (frozen tripped : Bool) : TerminalService :=
  if frozen then { t with frozen := true }
  else if t.frozen then
    ({ t with frozen := false, coalesceTimer := false }).flushPendingFrame tripped
  else t

variable {t : TerminalService} {frame : PaneFrame} {tripped : Bool}

/-- The text of the frame that is held, else of the one that is painted. -/
def shown (t : TerminalService) : Option Text := (t.pendingFrame.map PaneFrame.text).or t.grid

/-- A frame is held while the grid is frozen or the timer runs, and not otherwise. -/
def Holds (t : TerminalService) : Prop :=
  t.pendingFrame.isSome = true → t.frozen = true ∨ t.coalesceTimer = true

/-- The same pane, the same best revision and the same text. -/
structure Same (t t' : TerminalService) : Prop where
  paneId : t'.paneId = t.paneId
  attaching : t'.attachingPaneId = t.attachingPaneId
  best : t'.currentBest = t.currentBest
  shown : t'.shown = t.shown

theorem flush_same (t : TerminalService) (tripped : Bool) : Same t (t.flushPendingFrame tripped) := by
  unfold flushPendingFrame
  simp only
  split
  · exact ⟨rfl, rfl, rfl, rfl⟩
  · rename_i frame hf
    split
    · exact ⟨rfl, rfl, rfl, rfl⟩
    · refine ⟨rfl, rfl, ?_, ?_⟩
      · simp [currentBest, hf]
      · simp [shown, hf]

theorem flush_holds (t : TerminalService) (tripped : Bool) : (t.flushPendingFrame tripped).Holds := by
  unfold flushPendingFrame
  simp only
  split
  · rename_i hf
    intro h
    simp [hf] at h
  · split
    · rename_i hfrozen
      exact fun _ => Or.inl hfrozen
    · intro h
      cases h

theorem setFrozen_same (t : TerminalService) (frozen tripped : Bool) :
    Same t (t.setFrozen frozen tripped) := by
  unfold setFrozen
  split
  · exact ⟨rfl, rfl, rfl, rfl⟩
  · split
    · have h := flush_same { t with frozen := false, coalesceTimer := false } tripped
      exact ⟨h.paneId, h.attaching, h.best, h.shown⟩
    · exact ⟨rfl, rfl, rfl, rfl⟩

theorem setFrozen_holds (frozen : Bool) (h : t.Holds) : (t.setFrozen frozen tripped).Holds := by
  unfold setFrozen
  split
  · exact fun _ => Or.inl rfl
  · split
    · exact flush_holds _ _
    · exact h

/-- A frame of the pane that is not older becomes the best one. -/
theorem onPaneFrame_newest (tripped : Bool) (hp : t.paneId = some frame.paneId) (ho : t.older frame = false) :
    (t.onPaneFrame frame tripped).paneId = t.paneId ∧
      (t.onPaneFrame frame tripped).attachingPaneId = t.attachingPaneId ∧
      (t.onPaneFrame frame tripped).currentBest = some frame.revision ∧
      (t.onPaneFrame frame tripped).shown = some frame.text := by
  unfold onPaneFrame
  rw [if_neg (not_not.mpr hp), ho]
  simp only [Bool.false_eq_true, if_false]
  split
  · exact ⟨rfl, rfl, rfl, rfl⟩
  · split
    · exact ⟨rfl, rfl, rfl, rfl⟩
    · have h := flush_same { t with pendingFrame := some frame } tripped
      exact ⟨h.paneId, h.attaching, h.best, h.shown⟩

theorem onPaneFrame_other (hp : t.paneId ≠ some frame.paneId) :
    t.onPaneFrame frame tripped = t := by
  unfold onPaneFrame
  rw [if_pos hp]

theorem onPaneFrame_holds (h : t.Holds) : (t.onPaneFrame frame tripped).Holds := by
  unfold onPaneFrame
  split
  · exact h
  · split
    · exact h
    · simp only
      split
      · rename_i hheld
        exact fun _ => (Bool.or_eq_true_iff.mp hheld)
      · split
        · exact fun _ => Or.inr rfl
        · exact flush_holds _ _

theorem older_eq_false : t.older frame = false ↔ Below t.currentBest (some frame.revision) := by
  rw [below_some]
  unfold older
  cases t.currentBest with
  | none => simp
  | some best => simp

end TerminalService

inductive ToHost where
  | watchPane (paneId : PaneId)
  | unwatchPane (paneId : PaneId)
  deriving DecidableEq

inductive FromHost where
  | watchAck (ack : WatchAck)
  | paneFrame (frame : PaneFrame)
  | error
  deriving DecidableEq

/-- `attached` is the pane whose attach has succeeded with none begun since, `sent` the
last frame that the Host has sent for a pane since its `watch_ack`, and `discarded` the
frames of the attached pane that the Device took for older ones. -/
structure View (Hash : Type) where
  terminal : TerminalService
  thread : Thread Hash
  toHost : List ToHost
  toDevice : List FromHost
  attached : Option PaneId
  sent : PaneId → Option PaneFrame
  discarded : List PaneFrame

/-- `serve` is the next request at the Host, `host` anything else that reaches its thread;
`deliver` is the arrival of a message at the Device. -/
inductive ViewEvent where
  | attach (paneId : PaneId)
  | detach
  | attachTimeout
  | freeze (frozen tripped : Bool)
  | timer (tripped : Bool)
  | deliver (tripped : Bool)
  | serve (now : Nat)
  | host (e : Event)

namespace View

def start (config : RelayConfig) : View Hash where
  terminal := .start
  thread := .start config
  toHost := []
  toDevice := []
  attached := none
  sent := fun _ => none
  discarded := []

def send (v : View Hash) (frame : PaneFrame) : View Hash :=
  { v with
    toDevice := v.toDevice ++ [.paneFrame frame]
    sent := Function.update v.sent frame.paneId (some frame) }

def sendAck (v : View Hash) (ack : WatchAck) : View Hash :=
  { v with toDevice := v.toDevice ++ [.watchAck ack] }

/-- A message arrives. -/
def receive (v : View Hash) (tripped : Bool) : FromHost → View Hash
  | .watchAck ack =>
    { v with
      terminal := v.terminal.onWatchAck ack
      attached :=
        if v.terminal.attachingPaneId = some ack.paneId then some ack.paneId else v.attached }
  | .paneFrame frame =>
    { v with
      terminal := v.terminal.onPaneFrame frame tripped
      discarded :=
        if v.attached = some frame.paneId ∧ v.terminal.older frame then v.discarded ++ [frame]
        else v.discarded }
  | .error => { v with terminal := v.terminal.attachFailed }

section Step

variable [DecidableEq Hash] (joins : Graphemes) (herdr : HerdrCalls) (frameHash : FrameHash Hash)

/-- The requests of the Device that reach the thread do so through the channel. -/
def request : Event → Bool
  | .watchPane _ _ | .unwatchPane _ => true
  | _ => false

/-- A window of the subscription ends with an empty slot, and requests are served
between windows. -/
def step (v : View Hash) : ViewEvent → Option (View Hash)
  | .attach paneId =>
    some { v with
      terminal := v.terminal.attach paneId
      attached := none
      toHost := v.toHost ++ [.watchPane paneId] }
  | .detach =>
    some { v with
      terminal := v.terminal.detach
      attached := none
      toHost := v.toHost ++ (v.terminal.paneId.map .unwatchPane).toList }
  | .attachTimeout => some { v with terminal := v.terminal.attachFailed }
  | .freeze frozen tripped => some { v with terminal := v.terminal.setFrozen frozen tripped }
  | .timer tripped =>
    if v.terminal.coalesceTimer then
      some { v with terminal := v.terminal.flushPendingFrame tripped }
    else none
  | .deliver tripped =>
    match v.toDevice with
    | [] => none
    | message :: rest => some ({ v with toDevice := rest }.receive tripped message)
  | .serve now =>
    if v.thread.slot.isSome then none
    else
      match v.toHost with
      | [] => none
      | .unwatchPane paneId :: rest =>
        some { v with
          thread := Host.Session.step joins herdr frameHash v.thread (.unwatchPane paneId)
          toHost := rest }
      | .watchPane paneId :: rest =>
        let served := { v with
          thread := Host.Session.step joins herdr frameHash v.thread (.watchPane now paneId)
          toHost := rest }
        match (watchPane herdr frameHash now paneId v.thread.bridge v.thread.shared).1 with
        | .ok (ack, frame) => some ((served.sendAck ack).send frame)
        | .error _ => some { served with toDevice := served.toDevice ++ [FromHost.error] }
  | .host e =>
    if request e then none
    else
      let stepped := { v with thread := Host.Session.step joins herdr frameHash v.thread e }
      match e, v.thread.slot with
      | .drain, some frame => some (stepped.send frame)
      | _, _ => some stepped

end Step

end View

end HerdrMobile.App.Terminal
