import Mathlib.Algebra.Ring.Nat
import HerdrMobile.Bridge.Control

/-!
# The pairing pane

The pane holds the last status that the bridge has answered and the state of its own screen. A key
press is given what the bridge answers and what the clipboard tool reports; a draw is given the
size of the pane and decides which regions fit. The texts of the lines are left out where nothing
depends on them.
-/
namespace HerdrMobile.Bridge.Popup

open Bridge.Control
open Proto.Messages (Text)

set_option autoImplicit false

def quietZone : Nat := 4
def floorCols : Nat := 28
def pairingFloorRows : Nat := 12
def idleFloorRows : Nat := 6

def second : Nat := 1000000000

/-- What the pane takes from outside: the width of a text in cells, the width of the code that
encodes a text, and the rows that a split leaves between a top and a bottom region. -/
structure Terminal where
  cellWidth : Text → Nat
  qrWidth : Text → Option Nat
  middle : Nat → Nat → Nat → Nat
  middle_fits : ∀ height top bottom, top + bottom ≤ height →
    middle height top bottom = height - (top + bottom)

inductive RowState where
  | connected
  | idle
  | unknown

/-- R-31-16-19. -/
def RowState.compute (link : LinkStatus) (connected : Bool) : RowState :=
  if connected then .connected
  else
    match link.state with
    | .offline | .stopped => .unknown
    | .connected | .idle => .idle

inductive PendingAction where
  | removeOne (deviceId deviceName : Text)
  | removeAll (count : Nat)
  | stop
  deriving DecidableEq

def PendingAction.question : PendingAction → Text
  | .removeOne _ deviceName =>
    "remove ".toList ++ deviceName ++ "? 1 phone loses access. y/n".toList
  | .removeAll count =>
    let noun := if count = 1 then "phone" else "phones"
    let verb := if count = 1 then "loses" else "lose"
    "remove every phone? ".toList ++ (toString count).toList ++ " ".toList ++ noun.toList ++
      " ".toList ++ verb.toList ++ " access at once. y/n".toList
  | .stop =>
    "stop the relay? this phone list is kept, and no phone can connect. y/n".toList

structure PairingCredential where
  uri : Text
  handle : Text
  words : Text
  qr : Option Nat

/-- `remaining` in nanoseconds. -/
structure PairingView where
  remaining : Nat
  credential : Option PairingCredential

structure App where
  status : Option Status
  bridgeDown : Bool
  statusFetchedAt : Nat
  expiryNoticed : Bool
  selected : Nat
  confirm : Option PendingAction
  notice : Option Text
  noticeShown : Bool
  loading : Bool
  tableVisible : Bool

inductive KeyOutcome where
  | proceed
  | quit
  deriving DecidableEq

inductive KeyCode where
  | up
  | down
  | esc
  | char (c : Char)
  | other
  deriving DecidableEq

/-- What the calls of one key press give, and when its `refresh` asks. -/
structure Answers where
  sent : Except ClientError Unit
  status : Except ClientError Status
  copied : Except Text Unit
  refreshedAt : Nat

/-- The text of an error; it names no token and no path. -/
def errorText : ClientError → Text
  | .notRunning => "the bridge is not running".toList
  | .io => "the control connection failed".toList
  | .protocol message => "the bridge reply failed the protocol: ".toList ++ message.toList
  | .rejected code =>
    let name := match code with
      | .unauthorized => "Unauthorized"
      | .badRequest => "BadRequest"
      | .unknownCommand => "UnknownCommand"
      | .notFound => "NotFound"
    "the bridge rejected the command (".toList ++ name.toList ++ ")".toList

namespace App

def new (now : Nat) : App :=
  ⟨none, false, now, false, 0, none, none, false, false, false⟩

def devices (app : App) : List DeviceRow := (app.status.map Status.devices).getD []

def stopped (app : App) : Bool := app.status.any fun status => status.link.state = .stopped

def pairingOpen (app : App) : Bool := app.status.any fun status => status.pairing.isSome

/-- The pairing to draw, while its countdown runs. -/
def pairingView (X : Terminal) (app : App) (now : Nat) : Option PairingView :=
  (app.status.bind Status.pairing).bind fun pairing =>
    let lifetime := pairing.expiresInS.toNat * second
    if now - app.statusFetchedAt ≤ lifetime then
      some {
        remaining := lifetime - (now - app.statusFetchedAt)
        credential :=
          if pairing.registered then
            match pairing.uri, pairing.handle, pairing.phrase with
            | some uri, some handle, some words => some ⟨uri, handle, words, X.qrWidth uri⟩
            | _, _, _ => none
          else none }
    else none

def setNotice (app : App) (text : Text) : App :=
  { app with notice := some text, noticeShown := false }

def selectedDevice (app : App) : Option DeviceRow := app.devices[app.selected]?

def clampSelection (app : App) : App :=
  if app.devices.length = 0 then { app with selected := 0 }
  else if app.devices.length ≤ app.selected then
    { app with selected := app.devices.length - 1 }
  else app

/-- A phrase was spent: the pairing is gone before its time and no phone came or went. -/
def spent (X : Terminal) (app : App) (status : Status) (now : Nat) : Bool :=
  app.status.any fun old =>
    old.pairing.isSome && (app.pairingView X now).isSome && status.pairing.isNone &&
      decide (status.devices.length = old.devices.length)

def refreshAt (X : Terminal) (app : App) (answer : Except ClientError Status) (now : Nat) : App :=
  match answer with
  | .ok status =>
    let spent := app.spent X status now
    let app := { app with
      statusFetchedAt := now, status := some status, bridgeDown := false }.clampSelection
    if spent then app.setNotice "phrase spent - press p for a new one".toList else app
  | .error .notRunning => { app with status := none, bridgeDown := true }
  | .error err => app.setNotice (errorText err)

/-- What is left of the pane after a command, and whether the bridge has accepted it. -/
def sendCommand (app : App) (sent : Except ClientError Unit) : App × Bool :=
  match sent with
  | .ok () => (app, true)
  | .error .notRunning => ({ app with status := none, bridgeDown := true }, false)
  | .error err => (app.setNotice (errorText err), false)

def refresh (X : Terminal) (app : App) (a : Answers) : App := app.refreshAt X a.status a.refreshedAt

def copyPairing (X : Terminal) (app : App) (now : Nat) (copied : Except Text Unit) : App :=
  match (app.pairingView X now).bind PairingView.credential with
  | none => app.setNotice "press p first - there is nothing to copy yet".toList
  | some _ =>
    match copied with
    | .ok () =>
      app.setNotice "copied - paste it into the phone app with Paste from clipboard".toList
    | .error message => app.setNotice ("copy failed: ".toList ++ message)

def moveSelection (app : App) (delta : Int) : App :=
  if !app.tableVisible || app.devices.isEmpty then app
  else
    { app with
      selected := (max 0 (min (app.selected + delta) (app.devices.length - 1 : Int))).toNat }

end App

def PendingAction.command : PendingAction → Command
  | .removeOne deviceId _ => .revoke deviceId
  | .removeAll _ => .revokeAll
  | .stop => .stop

namespace App

def confirmAction (X : Terminal) (app : App) (pending : PendingAction) (a : Answers) : App :=
  let (app, accepted) := app.sendCommand a.sent
  match pending with
  | .removeOne _ deviceName =>
    if accepted then (app.refresh X a).setNotice (deviceName ++ " lost access".toList) else app
  | .removeAll _ =>
    if accepted then (app.refresh X a).setNotice "every phone lost access".toList else app
  | .stop => app.refresh X a

/-- The question that a key asks. -/
def asks (app : App) (key : KeyCode) : Option PendingAction :=
  match key with
  | .char 'd' =>
    if app.tableVisible then
      app.selectedDevice.map fun device => .removeOne device.deviceId device.deviceName
    else none
  | .char 'r' => if 0 < app.devices.length then some (.removeAll app.devices.length) else none
  | .char 's' => if app.stopped then none else some .stop
  | _ => none

def ask (app : App) (key : KeyCode) : App :=
  match app.asks key with
  | some pending => { app with confirm := some pending }
  | none => app

/-- `q` hides the credential at once. -/
def quit (app : App) (a : Answers) : App :=
  if app.pairingOpen then
    let app := (app.sendCommand a.sent).1
    { app with status := app.status.map fun status => { status with pairing := none } }
  else app

/-- The pane after a key press, whether it stays, and the command that was sent. -/
def handleKey (X : Terminal) (app : App) (key : KeyCode) (now : Nat) (a : Answers) :
    App × KeyOutcome × Option Command :=
  match app.confirm with
  | some pending =>
    let app := { app with confirm := none }
    if key = .char 'y' then (app.confirmAction X pending a, .proceed, some pending.command)
    else (app, .proceed, none)
  | none =>
    match key with
    | .up | .char 'k' => (app.moveSelection (-1), .proceed, none)
    | .down | .char 'j' => (app.moveSelection 1, .proceed, none)
    | .char 'p' => ((app.sendCommand a.sent).1.refresh X a, .proceed, some .openPairing)
    | .char 'c' => (app.copyPairing X now a.copied, .proceed, none)
    | .char 'd' | .char 'r' | .char 's' => (app.ask key, .proceed, none)
    | .char 'f' =>
      ({ { app with loading := true }.refresh X a with loading := false }, .proceed, none)
    | .char 'q' | .esc =>
      (app.quit a, .quit, if app.pairingOpen then some .closePairing else none)
    | _ => (app, .proceed, none)

end App

/-- Greedy word wrap; a word is never broken. -/
def wrapAtSpaces (X : Terminal) (text : Text) (width : Nat) : List Text :=
  let (lines, current) := (text.splitOn ' ').foldl (fun (lines, current) word =>
    let candidate :=
      if current = [] then X.cellWidth word else X.cellWidth current + 1 + X.cellWidth word
    let (lines, current) :=
      if current ≠ [] ∧ width < candidate then (lines ++ [current], []) else (lines, current)
    (lines, if current ≠ [] then current ++ ' ' :: word else current ++ word)) ([], [])
  if current ≠ [] ∨ lines = [] then lines ++ [current] else lines

def pad (X : Terminal) (text : Text) (width : Nat) : Text :=
  if width ≤ X.cellWidth text then text
  else text ++ List.replicate (width - X.cellWidth text) ' '

/-- The rows of one label and its value. -/
def credentialLines (X : Terminal) (label : String) (value : Text) (width : Nat) : Nat :=
  let line := List.replicate 4 ' ' ++ pad X (label.toList ++ [':']) 10
  if X.cellWidth (line ++ value) ≤ width then 1
  else 1 + (wrapAtSpaces X value (max (width - 6) 1)).length

/-- Columns and printed rows of a code, with its quiet zone. -/
def qrRegionSize (modules : Nat) : Nat × Nat :=
  let padded := modules + 2 * quietZone
  (padded + 2, (padded + 1) / 2)

/-- The rows of the table that are visible, the selected one among them. -/
def visibleWindow (total visible selected : Nat) : Nat × Nat :=
  if total = 0 ∨ visible = 0 then (0, 0)
  else
    let visible := min visible total
    let start := min (selected - (visible - 1)) (total - visible)
    (start, start + visible)

inductive DetailKind where
  | selected (device : DeviceRow)
  | offline (error : Text) (attempt : UInt32)
  | stopped

structure FooterAvailability where
  scroll : Bool
  copy : Bool
  removeOne : Bool
  removeAll : Bool

/-- The regions that are drawn. -/
structure Regions where
  qr : Bool
  detail : Bool
  table : Bool
  deriving DecidableEq

structure Normal where
  pairing : Option PairingView
  regions : Regions
  detail : Option DetailKind
  footer : FooterAvailability
  notice : Option Text
  /-- The rows between the top and the bottom region. -/
  tableRows : Nat
  /-- The rows of the table that are drawn, and whether each is the selected one. -/
  rows : List (DeviceRow × RowState × Bool)

inductive Screen where
  | tooSmall
  | confirm (question : Text)
  | notRunning
  | normal (view : Normal)

/-- The first of the droppable regions goes, until the rest fits. -/
def fitRegions (height : Regions → Nat) (rows : Nat) (r : Regions) : Regions :=
  if height r ≤ rows then r
  else
    let r := { r with qr := false }
    if height r ≤ rows then r
    else
      let r := { r with detail := false }
      if height r ≤ rows then r else { r with table := false }

namespace App

def floorRows (app : App) : Nat := if app.pairingOpen then pairingFloorRows else idleFloorRows

def markNoticeShown (app : App) : App :=
  if app.notice.isSome then { app with noticeShown := true } else app

/-- A notice that an earlier draw has shown goes. -/
def clearNotice (app : App) : App :=
  if app.noticeShown then { app with notice := none, noticeShown := false } else app

/-- The countdown of the open pairing is over. -/
def expires (X : Terminal) (app : App) (now : Nat) : Bool :=
  app.pairingOpen && (app.pairingView X now).isNone

def expiredNotice : Text := "phrase expired - press p for a new one".toList

def noteExpiry (X : Terminal) (app : App) (now : Nat) : App :=
  if app.expires X now && !app.expiryNoticed then
    { app with expiryNoticed := true }.setNotice expiredNotice
  else app

def originText (app : App) : Text :=
  ((app.status.map Status.relayOrigin).filter fun origin =>
    Lib.Strings.trim origin ≠ []).getD "(not configured)".toList

def linkState (app : App) : LinkState :=
  (app.status.map fun status => status.link.state).getD .offline

def useEmptyMessage (app : App) (view : Option PairingView) : Bool :=
  app.devices.isEmpty && view.isNone && app.linkState = .idle

def detailKind (app : App) (view : Option PairingView) : Option DetailKind :=
  if app.stopped then some .stopped
  else if app.linkState = .offline then
    app.status.map fun status =>
      .offline (status.link.error.getD "connect failed".toList) status.link.attempt
  else if app.useEmptyMessage view then none
  else app.selectedDevice.map .selected

def idleHint (app : App) (view : Option PairingView) : Bool :=
  view.isNone && !app.devices.isEmpty && app.linkState = .idle

/-- The rows that the regions are taken to need. -/
def totalHeight (app : App) (view : Option PairingView) (r : Regions) : Nat :=
  let qr := (view.bind PairingView.credential).bind PairingCredential.qr
  let credential := view.map PairingView.credential
  2 + (if view.isSome then 2 else 0) +
    (if r.qr then (qr.map fun modules => (qrRegionSize modules).2).getD 0 else 0) +
    (match credential with
      | none => 0
      | some none => 1
      | some (some _) => 5 + if r.qr then 0 else 1) +
    (if app.useEmptyMessage view then 2 else 0) + (if r.table then 2 else 0) +
    (if r.detail then 3 else 0) + 2 + (if app.notice.isSome || app.idleHint view then 1 else 0)

/-- The rows of the top region as it is built. -/
def topHeight (X : Terminal) (app : App) (view : Option PairingView) (r : Regions) (width : Nat) :
    Nat :=
  2 + (match view with
      | none => 0
      | some view =>
        2 + match view.credential with
        | none => 1
        | some credential =>
          (match r.qr, credential.qr with
            | true, some modules => (qrRegionSize modules).2
            | _, _ => 1) + 1 + credentialLines X "relay" app.originText width +
            credentialLines X "computer" credential.handle width +
            credentialLines X "phrase" credential.words width + 1) +
    (if app.useEmptyMessage view then 2 else 0) + (if r.table then 2 else 0)

/-- The rows of the bottom region as it is built. -/
def bottomHeight (app : App) (view : Option PairingView) (r : Regions) : Nat :=
  (if r.detail && (app.detailKind view).isSome then 3 else 0) + 2 +
    (if app.notice.isSome || app.idleHint view then 1 else 0)

def regions (app : App) (view : Option PairingView) (width height : Nat) : Regions :=
  let qr := (view.bind PairingView.credential).bind PairingCredential.qr
  fitRegions (app.totalHeight view) height {
    qr := view.isSome && qr.any fun modules => (qrRegionSize modules).1 ≤ width
    detail := (app.detailKind view).isSome
    table := !app.devices.isEmpty && !app.useEmptyMessage view }

/-- The normal screen of a pane that has a status. -/
def normalScreen (X : Terminal) (app : App) (link : LinkStatus) (width height now : Nat) : Normal :=
  let view := app.pairingView X now
  let r := app.regions view width height
  let tableRows := X.middle height (app.topHeight X view r width) (app.bottomHeight view r)
  let window := visibleWindow app.devices.length tableRows app.selected
  { pairing := view
    regions := r
    detail := if r.detail then app.detailKind view else none
    footer := {
      scroll := r.table && 1 < app.devices.length
      copy := (view.bind PairingView.credential).isSome
      removeOne := r.table && !app.devices.isEmpty
      removeAll := !app.devices.isEmpty }
    notice := app.notice
    tableRows
    rows := if r.table then
        ((app.devices.zipIdx.drop window.1).take (window.2 - window.1)).map fun (device, index) =>
          (device, RowState.compute link device.connected, index == app.selected)
      else [] }

def draw (X : Terminal) (app : App) (width height now : Nat) : App × Screen :=
  let app := app.clearNotice
  if width < floorCols ∨ height < app.floorRows then
    ({ app with tableVisible := false }.markNoticeShown, .tooSmall)
  else
    match app.confirm with
    | some pending => (app.markNoticeShown, .confirm pending.question)
    | none =>
      match (if app.bridgeDown then none else app.status) with
      | none => ({ app with tableVisible := false }.markNoticeShown, .notRunning)
      | some status =>
        let app := app.noteExpiry X now
        let view := app.normalScreen X status.link width height now
        ({ app with tableVisible := view.regions.table }.markNoticeShown, .normal view)

end App

inductive Event where
  | draw (width height now : Nat)
  /-- The poll of the loop. -/
  | poll (answer : Except ClientError Status) (now : Nat)
  | key (key : KeyCode) (now : Nat) (answers : Answers)

/-- The loop ends with a key that quits, so no event comes after one. -/
def step (X : Terminal) (app : App) : Event → Option App
  | .draw width height now => some (app.draw X width height now).1
  | .poll answer now => some (app.refreshAt X answer now)
  | .key key now answers => some (app.handleKey X key now answers).1

end HerdrMobile.Bridge.Popup
