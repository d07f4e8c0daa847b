import Mathlib.Data.List.Sort

/-!
# The read scheduler

One pane's coalescing window, poll timer, input-triggered reads and read-rate
cap. Instants and durations are nanoseconds, and every instant is supplied by
the caller.
-/
namespace HerdrMobile.Host.Scheduler

set_option autoImplicit false

def second : Nat := 1000000000

def millis (n : Nat) : Nat := n * 1000000

structure PaneScheduler where
  window : Nat
  poll : Nat
  inputOffsets : List Nat
  maxPerSec : Nat
  pendingDue : Option Nat
  windowOpenUntil : Option Nat
  nextPoll : Nat
  inputDue : List Nat
  readHistory : List Nat

inductive FireOutcome where
  | read
  | pollRead
  | rateLimited
  deriving DecidableEq

namespace PaneScheduler

def new (window poll : Nat) (inputOffsets : List Nat) (maxPerSec now : Nat) : PaneScheduler where
  window := window
  poll := poll
  inputOffsets := inputOffsets.insertionSort (· ≤ ·)
  maxPerSec := maxPerSec
  pendingDue := none
  windowOpenUntil := none
  nextPoll := now + poll
  inputDue := []
  readHistory := []

def onInputSent (s : PaneScheduler) (now : Nat) : PaneScheduler :=
  { s with inputDue := s.inputOffsets.map (now + ·) }

def onRevisionChanged (s : PaneScheduler) (now : Nat) : PaneScheduler :=
  match s.pendingDue with
  | some _ => s
  | none => { s with pendingDue := some ((s.windowOpenUntil.map (max · now)).getD now) }

def nextDeadline (s : PaneScheduler) : Option Nat :=
  let due := s.nextPoll
  let due := (s.pendingDue.map (min due)).getD due
  let due := (s.inputDue.head?.map (min due)).getD due
  some due

def revisionDue (s : PaneScheduler) (now : Nat) : Bool := s.pendingDue.any (· ≤ now)

def pollDue (s : PaneScheduler) (now : Nat) : Bool := s.nextPoll ≤ now

def inputIsDue (s : PaneScheduler) (now : Nat) : Bool := s.inputDue.head?.any (· ≤ now)

/-- The timers that are due are rearmed or consumed before the cap is looked at. -/
def consume (s : PaneScheduler) (now : Nat) : PaneScheduler :=
  { s with
    nextPoll := if s.pollDue now then now + s.poll else s.nextPoll
    inputDue := if s.inputIsDue now then s.inputDue.filter (now < ·) else s.inputDue
    readHistory := s.readHistory.dropWhile fun t => second ≤ now - t }

def fire (s : PaneScheduler) (now : Nat) : Option FireOutcome × PaneScheduler :=
  if !s.revisionDue now && !s.pollDue now && !s.inputIsDue now then (none, s)
  else
    let byRevision := s.revisionDue now
    let s := s.consume now
    if s.maxPerSec ≤ s.readHistory.length then
      (some .rateLimited,
        if byRevision then { s with pendingDue := some (s.readHistory.head?.getD now + second) }
        else s)
    else
      let s := { s with readHistory := s.readHistory ++ [now] }
      if byRevision then
        (some .read, { s with pendingDue := none, windowOpenUntil := some (now + s.window) })
      else (some .pollRead, s)

end PaneScheduler

end HerdrMobile.Host.Scheduler
