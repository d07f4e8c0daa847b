import HerdrMobile.Host.Reads
import HerdrMobile.Lib.Run

/-!
# The scheduler goes on

Every timer that `fire` leaves is still to come. So the loop that sleeps until the next deadline
and then fires does not fire twice at one instant.
-/
namespace HerdrMobile.Host.Progress

open HerdrMobile.Lib.Run HerdrMobile.Lib.Window
open HerdrMobile.Host.Scheduler HerdrMobile.Host.Reads

set_option autoImplicit false

variable {s : PaneScheduler} {c : Call} {calls : List Call} {now poll : Nat}

/-- The reads that a key asks for are in order, and the period of the poll is as it was set. -/
structure Inv (poll : Nat) (s : PaneScheduler) : Prop where
  poll : s.poll = poll
  offsets : s.inputOffsets.Pairwise (· ≤ ·)
  sorted : s.inputDue.Pairwise (· ≤ ·)

theorem inv_new (window poll : Nat) (inputOffsets : List Nat) (maxPerSec start : Nat) :
    Inv poll (.new window poll inputOffsets maxPerSec start) where
  poll := rfl
  offsets := List.pairwise_insertionSort (· ≤ ·) inputOffsets
  sorted := List.Pairwise.nil

theorem inv_onRevisionChanged (h : Inv poll s) (now : Nat) :
    Inv poll (s.onRevisionChanged now) := by
  rw [PaneScheduler.onRevisionChanged]
  split
  · exact h
  · exact ⟨h.poll, h.offsets, h.sorted⟩

theorem inv_onInputSent (h : Inv poll s) (now : Nat) : Inv poll (s.onInputSent now) where
  poll := h.poll
  offsets := h.offsets
  sorted := h.offsets.map _ fun _ _ hle => Nat.add_le_add_left hle now

theorem inv_consume (h : Inv poll s) (now : Nat) : Inv poll (s.consume now) where
  poll := h.poll
  offsets := h.offsets
  sorted := by
    show (if s.inputIsDue now then s.inputDue.filter (now < ·) else s.inputDue).Pairwise (· ≤ ·)
    split
    · exact h.sorted.sublist List.filter_sublist
    · exact h.sorted

theorem inv_fire (h : Inv poll s) (now : Nat) : Inv poll (s.fire now).2 := by
  have hconsumed := inv_consume h now
  have hcases := fire_cases s now
  generalize s.fire now = fired at hcases
  cases hcases with
  | idle => exact h
  | limited | read | pollRead => exact ⟨hconsumed.poll, hconsumed.offsets, hconsumed.sorted⟩

theorem inv_apply (h : Inv poll s) (c : Call) : Inv poll (c.apply s).2 := by
  cases c with
  | onRevisionChanged now => exact inv_onRevisionChanged h now
  | onInputSent now => exact inv_onInputSent h now
  | fire now => exact inv_fire h now

theorem inv_after (h : Inv poll s) (calls : List Call) : Inv poll (after s calls) := by
  induction calls generalizing s with
  | nil => exact h
  | cons c rest ih => exact ih (inv_apply h c)

/-- The oldest read that still counts is less than a second ago. -/
theorem lt_freed (s : PaneScheduler) (now : Nat) :
    now < (prune second now s.readHistory).head?.getD now + second := by
  cases hkept : prune second now s.readHistory with
  | nil => exact Nat.lt_add_of_pos_right second_pos
  | cons oldest rest =>
    have hfresh := List.head?_dropWhile_not (fun t => decide (second ≤ now - t)) s.readHistory
    have hkept : s.readHistory.dropWhile (fun t => decide (second ≤ now - t)) =
      oldest :: rest := hkept
    rw [hkept, List.head?_cons] at hfresh
    have hlt : ¬second ≤ now - oldest := by simpa using hfresh
    show now < oldest + second
    omega

/-- A change that is still pending is read later. -/
theorem lt_pending {due : Nat} (h : (s.fire now).2.pendingDue = some due) : now < due := by
  have hcases := fire_cases s now
  generalize s.fire now = fired at hcases h
  have hlater : ∀ d, s.pendingDue = some d → s.revisionDue now = false → now < d := by
    intro d hd hnot
    refine Nat.not_le.mp fun hle => ?_
    rw [(revisionDue_iff hd).mpr hle] at hnot
    cases hnot
  cases hcases with
  | idle hrevision => exact hlater due h hrevision
  | limited =>
    dsimp only at h
    split at h
    · cases h
      exact lt_freed s now
    · next hnot => exact hlater due h (Bool.eq_false_iff.mpr hnot)
  | read => cases h
  | pollRead hrevision => exact hlater due h hrevision

theorem lt_deadline {d : Nat} (hpoll : 0 < s.poll) (h : (s.fire now).2.nextDeadline = some d) :
    now < d := by
  have hpending : ∀ due, (s.fire now).2.pendingDue = some due → now < due := fun _ => lt_pending
  have hcases := fire_cases s now
  generalize s.fire now = fired at hcases h hpending
  cases hcases with
  | idle hrevision hnoPoll hnoInput =>
    refine lt_nextDeadline hpoll ?_ ?_ hpending h
    · exact (if_neg (Bool.eq_false_iff.mp hnoPoll)).symm
    · exact (if_neg (Bool.eq_false_iff.mp hnoInput)).symm
  | limited | read | pollRead =>
    refine lt_nextDeadline hpoll ?_ ?_ hpending h
    · rfl
    · rfl

/-- How the wait for a line ends: a line comes in, which may tell the scheduler of a change, or
the time is up, by `late`. -/
inductive Woken where
  | line (waited : Nat) (changed : Bool) (handled : Nat)
  | timeout (late : Nat)
  deriving DecidableEq

/-- A pass of the loop reads the clock at its head. -/
structure Pass where
  entered : Nat
  woken : Woken
  deriving DecidableEq

/-- `run_until` while a pane is watched; `clock` is when the scheduler was fired last. -/
structure Loop where
  scheduler : PaneScheduler
  clock : Nat
  returned : Bool

namespace Loop

def start (scheduler : PaneScheduler) (clock : Nat) : Loop := ⟨scheduler, clock, false⟩

/-- `poll_scheduler`, as far as the timers go. -/
def pollScheduler (s : Loop) (now : Nat) : Loop :=
  { s with scheduler := (s.scheduler.fire now).2, clock := now }

def wait (s : Loop) (deadline now : Nat) : Nat :=
  min ((s.scheduler.nextDeadline.map (· - now)).getD (millis 200)) (deadline - now)

def step (deadline : Nat) (s : Loop) (p : Pass) : Option Loop :=
  if s.returned then none
  else
    let now := s.clock + p.entered
    if deadline ≤ now then some { s.pollScheduler now with returned := true }
    else
      match p.woken with
      | .line waited changed handled =>
        let scheduler :=
          if changed then s.scheduler.onRevisionChanged (now + waited) else s.scheduler
        some ({ s with scheduler := scheduler }.pollScheduler (now + waited + handled))
      | .timeout late => some (s.pollScheduler (now + s.wait deadline now + late))

end Loop

variable {a b : Loop} {p : Pass} {deadline : Nat}

/-- Every pass ends with a `fire` at the time at which it ends. -/
theorem step_fires (h : a.step deadline p = some b) :
    ∃ scheduler, (scheduler = a.scheduler ∨ ∃ now, scheduler = a.scheduler.onRevisionChanged now) ∧
      b.scheduler = (scheduler.fire b.clock).2 := by
  unfold Loop.step at h
  split at h
  · cases h
  · dsimp only at h
    split at h
    · cases h
      exact ⟨_, .inl rfl, rfl⟩
    · split at h
      · cases h
        refine ⟨_, ?_, rfl⟩
        dsimp only
        split
        · exact .inr ⟨_, rfl⟩
        · exact .inl rfl
      · cases h
        exact ⟨_, .inl rfl, rfl⟩

theorem inv_step (hinv : Inv poll a.scheduler) (h : a.step deadline p = some b) :
    Inv poll b.scheduler ∧ (0 < poll → ∀ d, b.scheduler.nextDeadline = some d → b.clock < d) := by
  obtain ⟨scheduler, hsame, hfire⟩ := step_fires h
  have hbefore : Inv poll scheduler := by
    obtain rfl | ⟨now, rfl⟩ := hsame
    · exact hinv
    · exact inv_onRevisionChanged hinv now
  rw [hfire]
  refine ⟨inv_fire hbefore _, fun hpoll d hd => ?_⟩
  rw [← hbefore.poll] at hpoll
  exact lt_deadline hpoll hd

/-- A pass that no line ends takes time where the deadline is still to come. -/
theorem clock_lt {late : Nat} (hlater : ∀ d, a.scheduler.nextDeadline = some d → a.clock < d)
    (h : a.step deadline p = some b) (htimeout : p.woken = .timeout late)
    (hruns : b.returned = false) : a.clock < b.clock := by
  unfold Loop.step at h
  split at h
  · cases h
  · dsimp only at h
    split at h
    · cases h
      cases hruns
    · next hnow =>
      rw [htimeout] at h
      cases h
      show a.clock < a.clock + p.entered + a.wait deadline (a.clock + p.entered) + late
      obtain ⟨d, hd⟩ : ∃ d, a.scheduler.nextDeadline = some d := ⟨_, rfl⟩
      have hlt := hlater d hd
      have hwait : a.wait deadline (a.clock + p.entered) =
          min (d - (a.clock + p.entered)) (deadline - (a.clock + p.entered)) := by
        rw [Loop.wait, hd]
        rfl
      rw [hwait]
      omega

/-- After any calls of a scheduler with a positive period, `fire` leaves the next deadline in the
future and the input reads in order. So a pass of the loop that comes after another one and is
not ended by a line fires later than that one did. -/
theorem scheduler_progress (window poll : Nat) (inputOffsets : List Nat) (maxPerSec start : Nat)
    (calls : List Call) (hpoll : 0 < poll) :
    let s := after (.new window poll inputOffsets maxPerSec start) calls
    s.inputDue.Pairwise (· ≤ ·) ∧
    (∀ now, (∃ d, (s.fire now).2.nextDeadline = some d ∧ now < d) ∧
      (s.fire now).2.inputDue.Pairwise (· ≤ ·)) ∧
    ∀ deadline clock passes a p b q c late,
      Follows (Loop.step deadline) (.start s clock) passes a p b [] b q c →
        q.woken = .timeout late → c.returned = false → b.clock < c.clock := by
  intro s
  have hinv : Inv poll s := inv_after (inv_new window poll inputOffsets maxPerSec start) calls
  refine ⟨hinv.sorted, fun now => ⟨⟨_, rfl, ?_⟩, (inv_fire hinv now).sorted⟩, ?_⟩
  · exact lt_deadline (hinv.poll.symm ▸ hpoll) rfl
  · intro deadline clock passes a p b q c late hfollows htimeout hruns
    have hvisits := visits_of_step (fun l : Loop => Inv poll l.scheduler) hinv
      (fun ha hs => (inv_step ha hs).1) hfollows.first.before
    have hlater := (inv_step hvisits hfollows.first.step_eq).2 hpoll
    exact clock_lt hlater hfollows.second.step_eq htimeout hruns

/-- Two reads for a key at one instant, a poll at the same time, and a cap that defers a change. -/
def crowded : List Call :=
  [.onInputSent 0, .onRevisionChanged 0, .fire 0, .fire (millis 125),
    .onRevisionChanged (millis 130)]

/-- A cap of one read in a second. -/
def crowdedScheduler : PaneScheduler :=
  .new (millis 120) (millis 125) [millis 130, millis 125, millis 125] 1 0

def asleep : Pass := ⟨0, .timeout 0⟩

def crowdedLoop : Loop := .start (after crowdedScheduler crowded) (millis 130)

theorem scheduler_progress_crowded :
    (∃ d, ((after crowdedScheduler crowded).fire (millis 250)).2.nextDeadline = some d ∧
      millis 250 < d) ∧
    ∃ b c, Follows (Loop.step (millis 400)) crowdedLoop [asleep, asleep] crowdedLoop asleep b [] b
      asleep c ∧ b.clock < c.clock := by
  have hlaw := scheduler_progress (millis 120) (millis 125) [millis 130, millis 125, millis 125]
    1 0 crowded (by decide)
  refine ⟨(hlaw.2.1 (millis 250)).1, ?_⟩
  have hfollows : Follows (Loop.step (millis 400)) crowdedLoop [asleep, asleep] crowdedLoop asleep _
      [] _ asleep _ :=
    ⟨[], [], rfl, rfl, rfl, rfl, rfl⟩
  exact ⟨_, _, hfollows, hlaw.2.2 _ _ _ _ _ _ _ _ 0 hfollows rfl rfl⟩

end HerdrMobile.Host.Progress
