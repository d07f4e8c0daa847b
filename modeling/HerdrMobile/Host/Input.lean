import Mathlib.Logic.Function.Basic
import HerdrMobile.Host.Herdr
import HerdrMobile.Host.Scheduler

/-!
# Terminal input

The state of one Device session's bridge and its `send_input`. The line shadows
and Herdr are shared with every other session, so they are a state of their own.
-/
namespace HerdrMobile.Host.Input

open HerdrMobile.Lib.Segment HerdrMobile.Proto.Messages
open HerdrMobile.Host.Keys HerdrMobile.Host.Herdr HerdrMobile.Host.Scheduler

set_option autoImplicit false

variable {Hash Corr : Type}

structure RelayConfig where
  debounceMs : Nat
  pollMs : Nat
  inputReadMs : List Nat
  maxReadsPerSecond : Nat

structure WatchedPane (Hash : Type) where
  paneId : PaneId
  lastRevision : Nat
  viewportRows : Nat
  width : Nat
  lastFrameHash : Hash

structure PendingInput (Corr : Type) where
  paneId : PaneId
  keys : List Text
  corr : Option Corr
  deriving DecidableEq

/-- A reply on its way to the Device, with the correlation id it echoes. -/
abbrev Reply (Corr : Type) := SendInputAck × Option Corr

structure Bridge (Hash Corr : Type) where
  config : RelayConfig
  watched : Option (WatchedPane Hash)
  scheduler : Option PaneScheduler
  pendingInput : Option (PendingInput Corr)
  sessionActive : Option Bool
  inputReplies : List (Reply Corr)

/-- What the sessions share: `input_lines` and Herdr. A pane without an entry has
the empty line. -/
structure Shared where
  inputLines : PaneId → Text
  log : Log

def Shared.start : Shared := ⟨fun _ => [], []⟩

namespace Bridge

def requireWatched (b : Bridge Hash Corr) (paneId : PaneId) : Except WatchError Unit :=
  match b.watched with
  | some watched => if watched.paneId = paneId then .ok () else .error (.notWatching paneId)
  | none => .error (.notWatching paneId)

def watches (b : Bridge Hash Corr) (paneId : PaneId) : Bool := b.watched.any (·.paneId == paneId)

theorem requireWatched_iff {b : Bridge Hash Corr} {paneId : PaneId} :
    b.requireWatched paneId = .ok () ↔ b.watches paneId = true := by
  unfold requireWatched watches
  cases b.watched with
  | none => simp
  | some w => by_cases h : w.paneId = paneId <;> simp [h]

/-- Cancels the session's held submit without sending terminal input. -/
def cancelPendingInputs (b : Bridge Hash Corr) : Bridge Hash Corr :=
  match b.pendingInput with
  | none => b
  | some pending =>
    { b with
      pendingInput := none
      inputReplies := b.inputReplies ++ [(⟨pending.paneId, false, false⟩, pending.corr)] }

def onInputSent (b : Bridge Hash Corr) (now : Nat) : Bridge Hash Corr :=
  { b with scheduler := b.scheduler.map (·.onInputSent now) }

/-- R-10-071: a write restarts the read schedule. -/
def afterInput (b : Bridge Hash Corr) (written : Bool) (now : Nat) : Bridge Hash Corr :=
  if written then b.onInputSent now else b

section AfterInput

variable (b : Bridge Hash Corr) (written : Bool) (now : Nat)

@[simp] theorem afterInput_watched : (b.afterInput written now).watched = b.watched := by
  cases written with
  | false => rfl
  | true => rfl

@[simp] theorem afterInput_pendingInput :
    (b.afterInput written now).pendingInput = b.pendingInput := by
  cases written with
  | false => rfl
  | true => rfl

@[simp] theorem afterInput_inputReplies :
    (b.afterInput written now).inputReplies = b.inputReplies := by
  cases written with
  | false => rfl
  | true => rfl

@[simp] theorem afterInput_sessionActive :
    (b.afterInput written now).sessionActive = b.sessionActive := by
  cases written with
  | false => rfl
  | true => rfl

end AfterInput

end Bridge

/-- R-11-054 steps 1 to 3. -/
def validateSendInput (request : SendInput) : Except WatchError Unit :=
  if request.bypassLine = some true ∧ (request.line.isSome ∨ request.defer.isSome) then
    .error (.invalidInput "bypass_line cannot include line or defer")
  else if request.defer.isSome then
    .error (.invalidInput "deferred input requires the deferred handler")
  else if request.line.isSome then
    if request.text.isSome ∨ request.keys.isSome then
      .error (.invalidInput "line cannot include text or keys")
    else .ok ()
  else if request.text.isNone ∧ (request.keys.getD []).isEmpty then
    .error (.invalidInput "send_input carried neither text nor keys")
  else
    match (request.keys.getD []).findSome? fun key =>
        match validateKey key with
        | .ok () => none
        | .error e => some e with
    | some e => .error (.rejectedKey e)
    | none => .ok ()

section Transmit

variable (joins : Graphemes) (herdr : HerdrCalls)

def sendTypedText (paneId : PaneId) (text : Text) (log : Log) : Bool × Log :=
  if '\n' ∈ text then herdr.call (.sendInput paneId (some text) none) log
  else herdr.call (.sendText paneId text) log

/-- R-10-036: these bytes are keys, not composer text. -/
def rawSequences : List Text :=
  ["\x1b[H".toList, "\x1b[F".toList, "\x1b[5~".toList, "\x1b[6~".toList, "\x1b[3~".toList,
    "\x1b[2~".toList]

def forwardText (paneId : PaneId) (text : Option Text) (shadow : Option Text) (log : Log) :
    Bool × Option Text × Log :=
  match text with
  | none => (true, shadow, log)
  | some text =>
    match sendTypedText herdr paneId text log with
    | (false, log) => (false, shadow, log)
    | (true, log) =>
      (true, if text ∈ rawSequences then shadow else shadow.map (· ++ text), log)

/-- The shadow after forwarded keys. -/
def shadowKeys (keys : List Text) (shadow : Text) : Text :=
  if keys.any endsLine then []
  else keys.foldl (fun shadow key => if isBackspace key then eraseLast joins shadow else shadow) shadow

def forwardInput (request : SendInput) (shadow : Option Text) (log : Log) :
    Bool × Option Text × Log :=
  match forwardText herdr request.paneId request.text shadow log with
  | (false, shadow, log) => (false, shadow, log)
  | (true, shadow, log) =>
    match request.keys with
    | none => (true, shadow, log)
    | some keys =>
      match herdr.call (.sendInput request.paneId none (some keys)) log with
      | (false, log) => (false, shadow, log)
      | (true, log) => (true, shadow.map (shadowKeys joins keys), log)

/-- The loop of Backspace chunks, on a bound for its rounds; `keys` is one full chunk. -/
def removeTail (paneId : PaneId) (keys : List Text) : Nat → Nat → Text → Log → Bool × Text × Log
  | 0, _, old, log => (true, old, log)
  | rounds + 1, remaining, old, log =>
    if remaining = 0 then (true, old, log)
    else
      let count := min remaining keys.length
      match herdr.call (.sendInput paneId none (some (keys.take count))) log with
      | (false, log) => (false, old, log)
      | (true, log) =>
        let keep := old.length - (((clusters joins old).reverse.take count).map List.length).sum
        removeTail paneId keys rounds (remaining - count) (old.take keep) log

/-- R-10-075. Offsets count characters where the source counts bytes: both are the
end of a common grapheme. -/
def reconcileLine (paneId : PaneId) (old line : Text) (log : Log) : Bool × Text × Log :=
  let common := commonPrefix (clusters joins old) (clusters joins line)
  let prefixLen := (common.map List.length).sum
  let remove := (clusters joins (old.drop prefixLen)).length
  let keys := List.replicate (min remove 64) "Backspace".toList
  match removeTail joins herdr paneId keys remove remove old log with
  | (false, old, log) => (false, old, log)
  | (true, old, log) =>
    let tail := line.drop prefixLen
    if tail.isEmpty then (true, old, log)
    else
      let (ok, log) := sendTypedText herdr paneId tail log
      (ok, old, log)

def utf8Len (text : Text) : Nat := (text.map Char.utf8Size).sum

/-- The part of `send_input` under the lock of `input_lines`: whether Herdr accepted
the request, and whether the shadow changed in length. -/
def transmit (request : SendInput) (m : Shared) : Bool × Bool × Shared :=
  if request.bypassLine = some true then
    let (ok, _, log) := forwardInput joins herdr request none m.log
    (ok, false, { m with log := log })
  else
    let old := m.inputLines request.paneId
    let (accepted, shadow, log) :=
      match request.line with
      | some line =>
        let (ok, shadow, log) := reconcileLine joins herdr request.paneId old line m.log
        (ok, if ok then line else shadow, log)
      | none =>
        let (ok, shadow, log) := forwardInput joins herdr request (some old) m.log
        (ok, shadow.getD old, log)
    (accepted, utf8Len shadow ≠ utf8Len old,
      ⟨Function.update m.inputLines request.paneId shadow, log⟩)

/-- The keys that end the held submit before they are forwarded. -/
def endsHeld (request : SendInput) : Bool :=
  request.bypassLine ≠ some true && (request.keys.getD []).any fun key =>
    eqIgnoreAsciiCase key "Enter".toList || eqIgnoreAsciiCase key "ctrl+c".toList

def sendInput (now : Nat) (request : SendInput) (b : Bridge Hash Corr) (m : Shared) :
    Except WatchError SendInputAck × Bridge Hash Corr × Shared :=
  match b.requireWatched request.paneId with
  | .error e => (.error e, b, m)
  | .ok () =>
    match validateSendInput request with
    | .error e => (.error e, b, m)
    | .ok () =>
      let b := if endsHeld request then b.cancelPendingInputs else b
      let (accepted, changed, m) := transmit joins herdr request m
      (.ok ⟨request.paneId, accepted, false⟩, b.afterInput (accepted || changed) now, m)

end Transmit

end HerdrMobile.Host.Input
