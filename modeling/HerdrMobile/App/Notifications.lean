import HerdrMobile.App.AgentStatus

/-!
# The alerts

`notifications.dart`: which statuses earn an alert, the quiet hours that hold alerts back, and the
timer that releases what is held. Time is in microseconds, and the time zone of the phone, in which
clocks may be changed, says what they show. What the platform draws of a call, the badge and the
stored settings are left out.
-/
namespace HerdrMobile.App.Notifications

open HerdrMobile.Lib.Strings
open HerdrMobile.Proto.Tree (AgentStatusKind)
open HerdrMobile.App.AgentStatus (AttentionItem statusName)

set_option autoImplicit false

structure ClockTime where
  hour : Fin 24
  minute : Fin 60
deriving DecidableEq

def ClockTime.minutesSinceMidnight (time : ClockTime) : Nat := time.hour * 60 + time.minute

/-- The quiet hours as they are set at first. -/
def ClockTime.lateEvening : ClockTime := ⟨⟨22, by decide⟩, ⟨0, by decide⟩⟩

def ClockTime.earlyMorning : ClockTime := ⟨⟨7, by decide⟩, ⟨30, by decide⟩⟩

structure NotificationSettings where
  alertOnBlocked : Bool := true
  alertOnDone : Bool := true
  audienceOpenedOnly : Bool := false
  quietHoursEnabled : Bool := false
  quietHoursFrom : ClockTime := .lateEvening
  quietHoursTo : ClockTime := .earlyMorning
deriving DecidableEq

def minute : Nat := 60000000

def day : Nat := 1440 * minute

/-- What a clock shows at a moment, counted from some midnight, and the moment that the constructor
`DateTime` gives for what a clock is to show. -/
structure TimeZone where
  reading : Nat → Nat
  moment : Nat → Nat

namespace TimeZone

/-- The clocks are never changed. -/
def even : TimeZone := ⟨fun u => u, fun shown => shown⟩

@[simp] theorem reading_even (u : Nat) : even.reading u = u := rfl

@[simp] theorem moment_even (shown : Nat) : even.moment shown = shown := rfl

variable (zone : TimeZone)

/-- That time on the day that the clocks show. -/
def today («at» : Nat) (time : ClockTime) : Nat :=
  zone.reading «at» - zone.reading «at» % day + time.minutesSinceMidnight * minute

end TimeZone

/-- The minutes that have passed of the day. -/
def minutesOf (reading : Nat) : Nat := reading % day / minute

def isWithinQuietHours (zone : TimeZone) (settings : NotificationSettings) («at» : Nat) : Bool :=
  let now := minutesOf (zone.reading «at»)
  let start := settings.quietHoursFrom.minutesSinceMidnight
  let stop := settings.quietHoursTo.minutesSinceMidnight
  if !settings.quietHoursEnabled then false
  else if start = stop then false
  else if start < stop then start ≤ now && now < stop
  else start ≤ now || now < stop

/-- Today's end where it is still to come, else 24 hours later. -/
def durationUntilQuietHoursEnd (zone : TimeZone) (settings : NotificationSettings) («at» : Nat) :
    Nat :=
  let stop := zone.moment (zone.today «at» settings.quietHoursTo)
  (if «at» < stop then stop else stop + day) - «at»

/-- `agent_status`: a change of a pane, and what an alert says of it. -/
structure AgentStatus extends AttentionItem where
  workspaceId : Text
  tabId : Text
  tabTitle : Text
  paneTitle : Text
  agentKind : Text
deriving DecidableEq

/-- A pane id is one computer's name for the pane. -/
def AgentStatus.agent (status : AgentStatus) : Text × Text := (status.hostId, status.paneId)

structure Payload where
  hostId : Text
  paneId : Text
  workspaceId : Text
  tabId : Text
deriving DecidableEq

def AgentStatus.payload (status : AgentStatus) : Payload where
  hostId := status.hostId
  paneId := status.paneId
  workspaceId := status.workspaceId
  tabId := status.tabId

structure Content where
  title : Text
  body : Text
  payload : Payload
deriving DecidableEq

def buildAgentStatusNotificationContent (status : AgentStatus) : Content where
  title := status.agentKind ++ " is ".toList ++ statusName status.status
  body := status.paneTitle ++ " in ".toList ++ status.tabTitle
  payload := status.payload

def needYou (count : Nat) : Text := (toString count).toList ++ " agents need you".toList

/-- The tap goes to the pane that was held last. -/
def buildHeldSummaryNotificationContent (held : List AgentStatus) (latest : AgentStatus) :
    Content where
  title := needYou held.length
  body := ", ".toList.intercalate (held.map AgentStatus.paneTitle).eraseDups
  payload := latest.payload

/-- What the service asks of the platform. -/
inductive Call where
  | alert (status : AgentStatus)
  | summary (held : List AgentStatus) (content : Content)
  | cancel (hostId paneId : Text)
deriving DecidableEq

namespace Call

/-- The alerts that a call shows. -/
def alerts : Call → List AgentStatus
  | .alert status => [status]
  | .summary held _ => held
  | .cancel _ _ => []

def content : Call → Option Content
  | .alert status => some (buildAgentStatusNotificationContent status)
  | .summary _ content => some content
  | .cancel _ _ => none

end Call

/-- The service with its clock and the calls it has made, each with its moment, newest first. The
last two fields record the alerts that passed the settings, and the held ones that were
withdrawn. -/
structure State where
  zone : TimeZone
  now : Nat
  settings : NotificationSettings := {}
  openedPaneIds : List Text := []
  held : List AgentStatus := []
  releaseTimer : Option Nat := none
  calls : List (Nat × Call) := []
  accepted : List AgentStatus := []
  withdrawn : List AgentStatus := []

namespace State

variable (s : State)

def call («at» : Nat) (c : Call) : State := { s with calls := («at», c) :: s.calls }

/-- The settings that let an alert pass. -/
def accepts (status : AgentStatus) : Bool :=
  if status.status ≠ .blocked ∧ status.status ≠ .done then false
  else if status.status = .blocked ∧ s.settings.alertOnBlocked = false then false
  else if status.status = .done ∧ s.settings.alertOnDone = false then false
  else if s.settings.audienceOpenedOnly = true ∧ status.paneId ∉ s.openedPaneIds then false
  else true

/-- The timer that is armed already stays. -/
def hold (status : AgentStatus) : State :=
  { s with
    held := s.held ++ [status]
    releaseTimer :=
      match s.releaseTimer with
      | some due => some due
      | none => some (s.now + durationUntilQuietHoursEnd s.zone s.settings s.now) }

def postAgentStatusNotification (status : AgentStatus) : State :=
  if s.accepts status then
    let s : State := { s with accepted := status :: s.accepted }
    if isWithinQuietHours s.zone s.settings s.now then s.hold status else s.call s.now (.alert status)
  else s

def cancelAgentStatusNotification (hostId paneId : Text) : State :=
  let ofPane (status : AgentStatus) : Bool := status.agent = (hostId, paneId)
  let held := s.held.filter fun status => !ofPane status
  { s with
    held := held
    releaseTimer := if held.isEmpty then none else s.releaseTimer
    calls := (s.now, .cancel hostId paneId) :: s.calls
    withdrawn := s.held.filter ofPane ++ s.withdrawn }

/-- The timer, at its moment. -/
def release («at» : Nat) : State :=
  let cleared : State := { s with releaseTimer := none, held := [] }
  match s.held.getLast? with
  | none => cleared
  | some latest =>
    if s.held.length = 1 then cleared.call «at» (.alert latest)
    else cleared.call «at» (.summary s.held (buildHeldSummaryNotificationContent s.held latest))

def saveSettings (settings : NotificationSettings) : State := { s with settings := settings }

def notePaneOpened (paneId : Text) : State :=
  { s with openedPaneIds := s.openedPaneIds.insert paneId }

/-- Time passes, and the timer fires in it if it is due. -/
def advance (duration : Nat) : State :=
  match s.releaseTimer with
  | some due =>
    if due ≤ s.now + duration then { s.release due with now := s.now + duration }
    else { s with now := s.now + duration }
  | none => { s with now := s.now + duration }

end State

inductive Event where
  | post (status : AgentStatus)
  | cancel (hostId paneId : Text)
  | saveSettings (settings : NotificationSettings)
  | notePaneOpened (paneId : Text)
  | advance (duration : Nat)
deriving DecidableEq

def step (s : State) : Event → Option State
  | .post status => some (s.postAgentStatusNotification status)
  | .cancel hostId paneId => some (s.cancelAgentStatusNotification hostId paneId)
  | .saveSettings settings => some (s.saveSettings settings)
  | .notePaneOpened paneId => some (s.notePaneOpened paneId)
  | .advance duration => some (s.advance duration)

section Advance

variable {s : State} {due duration : Nat}

theorem advance_idle (h : s.releaseTimer = none) :
    s.advance duration = { s with now := s.now + duration } := by
  unfold State.advance
  rw [h]

theorem advance_due (h : s.releaseTimer = some due) (hdue : due ≤ s.now + duration) :
    s.advance duration = { s.release due with now := s.now + duration } := by
  unfold State.advance
  rw [h]
  exact if_pos hdue

theorem advance_early (h : s.releaseTimer = some due) (hearly : s.now + duration < due) :
    s.advance duration = { s with now := s.now + duration } := by
  unfold State.advance
  rw [h]
  exact if_neg (Nat.not_le.mpr hearly)

end Advance

/-- The quiet hours last from `at` until `due`. -/
structure QuietUntil (zone : TimeZone) (settings : NotificationSettings) («at» due : Nat) : Prop where
  ahead : «at» ≤ due
  quiet : ∀ u, «at» ≤ u → u < due → isWithinQuietHours zone settings u = true
  ended : isWithinQuietHours zone settings due = false

/-- The clocks show the end of the quiet hours when `DateTime` says that it is today. If it is still
to come, they show the quiet hours until then. If it has passed, they are not changed from then
until 24 hours later. -/
def Undisturbed (zone : TimeZone) (settings : NotificationSettings) («at» : Nat) : Prop :=
  let stop := zone.moment (zone.today «at» settings.quietHoursTo)
  zone.reading stop = zone.today «at» settings.quietHoursTo ∧
    if «at» < stop then ∀ u, «at» ≤ u → u < stop → isWithinQuietHours zone settings u = true
    else «at» < stop + day ∧
      ∀ u, stop ≤ u → u ≤ stop + day → zone.reading u = zone.reading stop + (u - stop)

section QuietHours

variable {zone : TimeZone} {settings : NotificationSettings} {now due : Nat}

theorem minutesSinceMidnight_lt (time : ClockTime) : time.minutesSinceMidnight < 1440 := by
  have hhour := time.hour.isLt
  have hminute := time.minute.isLt
  unfold ClockTime.minutesSinceMidnight
  omega

/-- The quiet hours in the microseconds of a day. -/
theorem within_iff (zone : TimeZone) (settings : NotificationSettings) («at» : Nat) :
    isWithinQuietHours zone settings «at» = true ↔ settings.quietHoursEnabled = true ∧
      let start := settings.quietHoursFrom.minutesSinceMidnight
      let stop := settings.quietHoursTo.minutesSinceMidnight
      let shown := zone.reading «at» % day
      (start < stop ∧ start * minute ≤ shown ∧ shown < stop * minute) ∨
        (stop < start ∧ (start * minute ≤ shown ∨ shown < stop * minute)) := by
  unfold isWithinQuietHours minutesOf
  generalize zone.reading «at» = shown
  cases settings.quietHoursEnabled with
  | false => simp
  | true =>
    have hstart := Nat.le_div_iff_mul_le (k := minute) (by decide)
      (x := settings.quietHoursFrom.minutesSinceMidnight) (y := shown % day)
    have hstop := Nat.div_lt_iff_lt_mul (k := minute) (by decide)
      (x := shown % day) (y := settings.quietHoursTo.minutesSinceMidnight)
    dsimp only
    obtain hlt | heq | hgt := Nat.lt_trichotomy
      settings.quietHoursFrom.minutesSinceMidnight settings.quietHoursTo.minutesSinceMidnight
    · simp [hlt, hlt.ne, hlt.not_gt, hstart, hstop]
    · simp [heq]
    · simp [hgt, hgt.ne', hgt.not_gt, hstart, hstop]

/-- The clocks show the end of the quiet hours, of whatever day. -/
theorem not_within_of_end (h : zone.reading due % day =
    settings.quietHoursTo.minutesSinceMidnight * minute) :
    isWithinQuietHours zone settings due = false := by
  rw [Bool.eq_false_iff, ne_eq, within_iff]
  rintro ⟨-, hwithin⟩
  simp only [h] at hwithin
  generalize settings.quietHoursTo.minutesSinceMidnight = stop at *
  generalize settings.quietHoursFrom.minutesSinceMidnight = start at *
  simp only [minute] at *
  omega

theorem today_mod (zone : TimeZone) (now : Nat) (time : ClockTime) :
    zone.today now time % day = time.minutesSinceMidnight * minute := by
  have htime := minutesSinceMidnight_lt time
  unfold TimeZone.today
  simp only [day, minute]
  omega

/-- Where the clocks are not changed, the end that the service computes is the end. -/
theorem quietUntil_end (hwithin : isWithinQuietHours zone settings now = true)
    (h : Undisturbed zone settings now) :
    now < now + durationUntilQuietHoursEnd zone settings now ∧
      QuietUntil zone settings now (now + durationUntilQuietHoursEnd zone settings now) := by
  obtain ⟨hstop, hrest⟩ := h
  have htoday := today_mod zone now settings.quietHoursTo
  have hto := minutesSinceMidnight_lt settings.quietHoursTo
  unfold durationUntilQuietHoursEnd
  dsimp only
  generalize zone.moment (zone.today now settings.quietHoursTo) = stop at *
  by_cases hahead : now < stop
  · rw [if_pos hahead] at hrest ⊢
    rw [Nat.add_sub_cancel' hahead.le]
    exact ⟨hahead, hahead.le, hrest, not_within_of_end (hstop ▸ htoday)⟩
  · rw [if_neg hahead] at hrest ⊢
    obtain ⟨hlt, heven⟩ := hrest
    have hafter := Nat.le_of_not_lt hahead
    have hnow := heven now hafter hlt.le
    have hend := heven _ (Nat.le_add_right _ day) le_rfl
    rw [Nat.add_sub_cancel' hlt.le]
    refine ⟨hlt, hlt.le, fun u hle hu => ?_, not_within_of_end ?_⟩
    · have hshown : zone.reading u = zone.reading now + (u - now) := by
        rw [heven u (hafter.trans hle) hu.le, hnow]
        omega
      -- Tonight has begun after the end that has passed.
      have hsince : zone.reading now % day =
          settings.quietHoursTo.minutesSinceMidnight * minute + (now - stop) := by
        rw [hstop, TimeZone.today] at hnow
        have hle := Nat.mod_le (zone.reading now) day
        omega
      rw [within_iff] at hwithin ⊢
      refine ⟨hwithin.1, ?_⟩
      have hrange := hwithin.2
      rw [hshown]
      generalize zone.reading now = shown at *
      generalize settings.quietHoursTo.minutesSinceMidnight = last at *
      generalize settings.quietHoursFrom.minutesSinceMidnight = first at *
      simp only [day, minute] at *
      omega
    · rw [hend, hstop, Nat.add_sub_cancel_left, Nat.add_mod_right]
      exact htoday

/-- The end stays where it is until it is there. -/
theorem QuietUntil.later {u : Nat} (h : QuietUntil zone settings now due) (hle : now ≤ u)
    (hlt : u ≤ due) : QuietUntil zone settings u due :=
  ⟨hlt, fun v hv => h.quiet v (hle.trans hv), h.ended⟩

end QuietHours

end HerdrMobile.App.Notifications
