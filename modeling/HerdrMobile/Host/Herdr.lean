import HerdrMobile.Lib.Segment
import HerdrMobile.Host.Keys

/-!
# The socket of Herdr

Every call the bridge makes goes into one log with what came back, and what
Herdr answers may depend on the whole log: so any call may fail, and what a read
shows may change at any time. The line of a pane at the Herdr end is what the
sends that succeeded have made of it.
-/
namespace HerdrMobile.Host.Herdr

open HerdrMobile.Lib.Segment HerdrMobile.Proto.Messages HerdrMobile.Host.Keys

set_option autoImplicit false

/-- Extended grapheme boundaries: whether a character joins the grapheme before it. -/
abbrev Graphemes := Text → Char → Bool

inductive Send where
  | sendText (paneId : PaneId) (text : Text)
  | sendInput (paneId : PaneId) (text : Option Text) (keys : Option (List Text))
  deriving DecidableEq

def Send.paneId : Send → PaneId
  | .sendText paneId _ => paneId
  | .sendInput paneId _ _ => paneId

/-- A call with what came of it: `none` where it failed. -/
inductive Entry where
  | sent (send : Send) (ok : Bool)
  | snapshot (ok : Bool)
  | layout (paneId : PaneId) (width : Option Nat)
  | read (paneId : PaneId) (text : Option Text)
  deriving DecidableEq

/-- The calls so far, oldest first. -/
abbrev Log := List Entry

inductive WatchError where
  | herdr
  | paneNotInSnapshot (paneId : PaneId)
  | missingField (method field : String)
  | malformed (method : String)
  | notWatching (paneId : PaneId)
  | invalidInput (reason : String)
  | rejectedKey (key : RejectedKey)
  deriving DecidableEq

structure PaneScrollState where
  offsetFromBottom : Nat
  maxOffsetFromBottom : Nat
  viewportRows : Nat
  deriving DecidableEq

structure RawPane where
  paneId : PaneId
  revision : Nat
  scroll : PaneScrollState
  deriving DecidableEq

structure RawAgent where
  paneId : PaneId
  agentStatus : Text
  deriving DecidableEq

structure RawSnapshot where
  panes : List RawPane
  agents : List RawAgent
  deriving DecidableEq

/-- An entry of `panes` in a `pane.layout` response. -/
structure LayoutPane where
  paneId : Option PaneId
  width : Option Nat
  deriving DecidableEq

/-- What Herdr answers after the calls of a log. -/
structure HerdrCalls where
  send : Log → Send → Bool
  sessionSnapshot : Log → Except WatchError RawSnapshot
  paneLayout : Log → PaneId → Option (List LayoutPane)
  paneReadVisible : Log → PaneId → Option (Option Text)

/-- `rect.width` of a pane in a `pane.layout` response. -/
def layoutWidth (paneId : PaneId) (layout : Option (List LayoutPane)) : Except WatchError Nat :=
  match layout with
  | none => .error .herdr
  | some panes =>
    match (panes.find? fun p => p.paneId == some paneId).bind LayoutPane.width with
    | none => .error (.missingField "pane.layout" "rect.width")
    | some width => .ok (width % 2 ^ 32)

/-- `text` of a `pane.read` response. -/
def readText (read : Option (Option Text)) : Except WatchError Text :=
  match read with
  | none => .error .herdr
  | some none => .error (.missingField "pane.read" "text")
  | some (some text) => .ok text

namespace HerdrCalls

def call (herdr : HerdrCalls) (send : Send) (log : Log) : Bool × Log :=
  let ok := herdr.send log send
  (ok, log ++ [.sent send ok])

def fetchSnapshot (herdr : HerdrCalls) (log : Log) : Except WatchError RawSnapshot × Log :=
  let snapshot := herdr.sessionSnapshot log
  (snapshot, log ++ [.snapshot snapshot.isOk])

def fetchWidth (herdr : HerdrCalls) (paneId : PaneId) (log : Log) : Except WatchError Nat × Log :=
  let width := layoutWidth paneId (herdr.paneLayout log paneId)
  (width, log ++ [.layout paneId width.toOption])

def fetchVisibleText (herdr : HerdrCalls) (paneId : PaneId) (log : Log) :
    Except WatchError Text × Log :=
  let text := readText (herdr.paneReadVisible log paneId)
  (text, log ++ [.read paneId text.toOption])

end HerdrCalls

section Remote

variable {joins : Graphemes} {log : Log} {p : PaneId} {send : Send} {ok : Bool}

/-- The key names that end a composer line (R-10-076). -/
def endsLine (key : Text) : Bool :=
  eqIgnoreAsciiCase key "Enter".toList || eqIgnoreAsciiCase key "Return".toList
    || eqIgnoreAsciiCase key "ctrl+c".toList

def isBackspace (key : Text) : Bool := eqIgnoreAsciiCase key "Backspace".toList

def press (joins : Graphemes) (line key : Text) : Text :=
  if endsLine key then [] else if isBackspace key then eraseLast joins line else line

/-- What a send makes of the line of its pane. -/
def Send.effect (joins : Graphemes) (line : Text) : Send → Text
  | .sendText _ text => line ++ text
  | .sendInput _ text keys => (keys.getD []).foldl (press joins) (line ++ text.getD [])

def Entry.apply (joins : Graphemes) (lines : PaneId → Text) : Entry → PaneId → Text
  | .sent send true => Function.update lines send.paneId (send.effect joins (lines send.paneId))
  | _ => lines

/-- The line of each pane after the sends of a log that succeeded. -/
def remote (joins : Graphemes) (log : Log) : PaneId → Text :=
  log.foldl (Entry.apply joins) fun _ => []

theorem remote_snoc (log : Log) (e : Entry) :
    remote joins (log ++ [e]) = e.apply joins (remote joins log) := by
  unfold remote
  rw [List.foldl_append]
  rfl

end Remote

end HerdrMobile.Host.Herdr
