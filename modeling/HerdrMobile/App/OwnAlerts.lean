import HerdrMobile.App.QuietHours

/-!
# The alerts of one computer

What the alert service holds and has shown of one computer, and what its own statuses, its
removals, the settings and the clock do to that. A summary counts as the alerts of the computer
that are in it.
-/
namespace HerdrMobile.App.OwnAlerts

open HerdrMobile.Lib.Strings HerdrMobile.App.Notifications
open HerdrMobile.App.QuietHours (release_cases release_empty)

set_option autoImplicit false

/-- What becomes of the alerts of the computer: they are shown, alone or in a summary, or those of
a pane are withdrawn. -/
inductive OwnCall where
  | shown (alerts : List AgentStatus)
  | withdrawn (paneId : Text)
deriving DecidableEq

/-- `opened` are the panes of this computer that were opened. `due` is when the held alerts of
this computer are released. -/
structure Desk where
  zone : TimeZone
  now : Nat
  settings : NotificationSettings := {}
  opened : List Text := []
  held : List AgentStatus := []
  due : Option Nat := none
  accepted : List AgentStatus := []
  withdrawn : List AgentStatus := []
  calls : List (Nat × OwnCall) := []

/-- What the settings let pass, where `opened` are the panes that were opened. -/
def passes (settings : NotificationSettings) (opened : List Text) (status : AgentStatus) : Bool :=
  if status.status ≠ .blocked ∧ status.status ≠ .done then false
  else if status.status = .blocked ∧ settings.alertOnBlocked = false then false
  else if status.status = .done ∧ settings.alertOnDone = false then false
  else if settings.audienceOpenedOnly = true ∧ status.paneId ∉ opened then false
  else true

namespace Desk

variable (d : Desk)

def endOfHold : Nat := d.now + durationUntilQuietHoursEnd d.zone d.settings d.now

def post (status : AgentStatus) : Desk :=
  if passes d.settings d.opened status then
    if isWithinQuietHours d.zone d.settings d.now then
      { d with
        accepted := status :: d.accepted
        held := d.held ++ [status]
        due := some (d.due.getD d.endOfHold) }
    else
      { d with
        accepted := status :: d.accepted
        calls := (d.now, .shown [status]) :: d.calls }
  else d

def cancel (paneId : Text) : Desk :=
  let held := d.held.filter fun status => !decide (status.paneId = paneId)
  { d with
    held := held
    due := if held = [] then none else d.due
    withdrawn := d.held.filter (fun status => decide (status.paneId = paneId)) ++ d.withdrawn
    calls := (d.now, .withdrawn paneId) :: d.calls }

def saveSettings (settings : NotificationSettings) : Desk := { d with settings := settings }

def notePaneOpened (paneId : Text) : Desk := { d with opened := paneId :: d.opened }

def advance (duration : Nat) : Desk :=
  match d.due with
  | some due =>
    if due ≤ d.now + duration then
      { d with
        now := d.now + duration
        held := []
        due := none
        calls := (due, .shown d.held) :: d.calls }
    else { d with now := d.now + duration }
  | none => { d with now := d.now + duration }

variable {d : Desk} {due duration : Nat}

theorem advance_idle (h : d.due = none) :
    d.advance duration = { d with now := d.now + duration } := by
  unfold Desk.advance
  rw [h]

theorem advance_due (h : d.due = some due) (hdue : due ≤ d.now + duration) :
    d.advance duration = { d with
      now := d.now + duration
      held := []
      due := none
      calls := (due, .shown d.held) :: d.calls } := by
  unfold Desk.advance
  rw [h]
  exact if_pos hdue

theorem advance_early (h : d.due = some due) (hearly : ¬due ≤ d.now + duration) :
    d.advance duration = { d with now := d.now + duration } := by
  unfold Desk.advance
  rw [h]
  exact if_neg hearly

end Desk

def ofHost (hostId : Text) (alerts : List AgentStatus) : List AgentStatus :=
  alerts.filter fun status => decide (status.hostId = hostId)

def callOf (hostId : Text) (call : Nat × Call) : Option (Nat × OwnCall) :=
  match call with
  | («at», .cancel host paneId) => if host = hostId then some («at», .withdrawn paneId) else none
  | («at», call) =>
    if ofHost hostId call.alerts = [] then none else some («at», .shown (ofHost hostId call.alerts))

def ownPanes (hostId : Text) (opened : List (Text × Text)) : List Text :=
  opened.filterMap fun pane => if pane.1 = hostId then some pane.2 else none

/-- The alerts of one computer, where `opened` are all panes that were opened. -/
def deskOf (hostId : Text) (opened : List (Text × Text)) (s : State) : Desk where
  zone := s.zone
  now := s.now
  settings := s.settings
  opened := ownPanes hostId opened
  held := ofHost hostId s.held
  due := if ofHost hostId s.held = [] then none else s.releaseTimer
  accepted := ofHost hostId s.accepted
  withdrawn := ofHost hostId s.withdrawn
  calls := s.calls.filterMap (callOf hostId)

/-- A timer is armed while something is held. -/
def Armed (s : State) : Prop := s.held ≠ [] → s.releaseTimer ≠ none

/-- What the service has noted of the panes that were opened. -/
def Opened (opened : List (Text × Text)) (s : State) : Prop :=
  ∀ pane ∈ opened, pane.2 ∈ s.openedPaneIds

/-- Nothing of another computer decides about the alert: it is not let through for a pane that
was opened only there, and it does not join a timer that is due at another moment than its own. -/
def Apart (hostId : Text) (opened : List (Text × Text)) (s : State) (status : AgentStatus) : Prop :=
  s.accepts status = true →
    (s.settings.audienceOpenedOnly = true → (hostId, status.paneId) ∈ opened) ∧
      (isWithinQuietHours s.zone s.settings s.now = true → ofHost hostId s.held = [] →
        ∀ due ∈ s.releaseTimer, due = s.now + durationUntilQuietHoursEnd s.zone s.settings s.now)

instance (hostId : Text) (opened : List (Text × Text)) (s : State) (status : AgentStatus) :
    Decidable (Apart hostId opened s status) :=
  inferInstanceAs (Decidable (s.accepts status = true →
    (s.settings.audienceOpenedOnly = true → (hostId, status.paneId) ∈ opened) ∧
      (isWithinQuietHours s.zone s.settings s.now = true → ofHost hostId s.held = [] →
        ∀ due ∈ s.releaseTimer, due = s.now + durationUntilQuietHoursEnd s.zone s.settings s.now)))

section Parts

variable {s : State} {hostId : Text} {opened : List (Text × Text)} {status : AgentStatus}

theorem mem_ownPanes {paneId : Text} :
    paneId ∈ ownPanes hostId opened ↔ (hostId, paneId) ∈ opened := by
  simp only [ownPanes, List.mem_filterMap, Option.ite_none_right_eq_some, Option.some.injEq,
    Prod.exists]
  constructor
  · rintro ⟨host, pane, hmem, rfl, rfl⟩
    exact hmem
  · intro hmem
    exact ⟨hostId, paneId, hmem, rfl, rfl⟩

theorem ownPanes_cons {host paneId : Text} (h : host = hostId) :
    ownPanes hostId ((host, paneId) :: opened) = paneId :: ownPanes hostId opened :=
  List.filterMap_cons_some (if_pos h)

theorem ownPanes_cons_other {host paneId : Text} (h : host ≠ hostId) :
    ownPanes hostId ((host, paneId) :: opened) = ownPanes hostId opened :=
  List.filterMap_cons_none (if_neg h)

theorem ofHost_append (a b : List AgentStatus) :
    ofHost hostId (a ++ b) = ofHost hostId a ++ ofHost hostId b :=
  List.filter_append ..

theorem ofHost_own (h : status.hostId = hostId) : ofHost hostId [status] = [status] :=
  List.filter_cons_of_pos (by exact decide_eq_true h)

theorem ofHost_other (h : status.hostId ≠ hostId) : ofHost hostId [status] = [] :=
  List.filter_cons_of_neg (by simpa using h)

theorem ofHost_cons_own (h : status.hostId = hostId) (alerts : List AgentStatus) :
    ofHost hostId (status :: alerts) = status :: ofHost hostId alerts :=
  List.filter_cons_of_pos (by exact decide_eq_true h)

theorem ofHost_cons_other (h : status.hostId ≠ hostId) (alerts : List AgentStatus) :
    ofHost hostId (status :: alerts) = ofHost hostId alerts :=
  List.filter_cons_of_neg (by simpa using h)

theorem armed_hold (s : State) (status : AgentStatus) : Armed (s.hold status) := by
  intro _ hnone
  unfold State.hold at hnone
  dsimp only at hnone
  split at hnone
  · cases hnone
  · cases hnone

theorem armed_post (h : Armed s) : Armed (s.postAgentStatusNotification status) := by
  unfold State.postAgentStatusNotification
  split
  · dsimp only
    split
    · exact armed_hold _ status
    · exact h
  · exact h

theorem armed_cancel (h : Armed s) (host paneId : Text) :
    Armed (s.cancelAgentStatusNotification host paneId) := by
  intro hheld hnone
  unfold State.cancelAgentStatusNotification at hheld hnone
  dsimp only at hheld hnone
  rw [if_neg (by rwa [List.isEmpty_iff])] at hnone
  refine h (fun hempty => hheld ?_) hnone
  rw [hempty]
  rfl

theorem release_held (s : State) («at» : Nat) : (s.release «at»).held = [] := by
  unfold State.release
  split
  · rfl
  · dsimp only
    split
    · rfl
    · rfl

theorem armed_advance (h : Armed s) (duration : Nat) : Armed (s.advance duration) := by
  cases htimer : s.releaseTimer with
  | none =>
    rw [advance_idle htimer]
    exact h
  | some due =>
    by_cases hdue : due ≤ s.now + duration
    · rw [advance_due htimer hdue]
      exact fun hheld => absurd (release_held s due) hheld
    · rw [advance_early htimer (Nat.lt_of_not_le hdue)]
      exact h

theorem opened_post (h : Opened opened s) :
    Opened opened (s.postAgentStatusNotification status) := by
  unfold State.postAgentStatusNotification
  split
  · dsimp only
    split
    · exact h
    · exact h
  · exact h

theorem opened_advance (h : Opened opened s) (duration : Nat) :
    Opened opened (s.advance duration) := by
  have hrelease : ∀ «at», Opened opened (s.release «at») := by
    intro «at»
    unfold State.release
    split
    · exact h
    · dsimp only
      split
      · exact h
      · exact h
  unfold State.advance
  split
  · split
    · exact hrelease _
    · exact h
  · exact h

theorem passes_iff {settings : NotificationSettings} {panes : List Text} :
    passes settings panes status = true ↔ passes settings [status.paneId] status = true ∧
      (settings.audienceOpenedOnly = true → status.paneId ∈ panes) := by
  have hself : ¬(settings.audienceOpenedOnly = true ∧ status.paneId ∉ [status.paneId]) :=
    fun hboth => hboth.2 (List.mem_singleton_self _)
  unfold passes
  rw [if_neg hself]
  split
  · exact ⟨fun h => absurd h Bool.false_ne_true, fun h => h.1⟩
  · split
    · exact ⟨fun h => absurd h Bool.false_ne_true, fun h => h.1⟩
    · split
      · exact ⟨fun h => absurd h Bool.false_ne_true, fun h => h.1⟩
      · by_cases haudience : settings.audienceOpenedOnly = true ∧ status.paneId ∉ panes
        · rw [if_pos haudience]
          refine ⟨fun h => absurd h Bool.false_ne_true, fun h => ?_⟩
          exact absurd (h.2 haudience.1) haudience.2
        · rw [if_neg haudience]
          refine ⟨fun _ => ⟨rfl, fun hon => ?_⟩, fun _ => rfl⟩
          exact not_not.mp fun hnot => haudience ⟨hon, hnot⟩

theorem passes_own (hopened : Opened opened s) (hapart : Apart hostId opened s status) :
    passes s.settings (ownPanes hostId opened) status = s.accepts status := by
  have hstate : s.accepts status = passes s.settings s.openedPaneIds status := rfl
  rw [Bool.eq_iff_iff]
  constructor
  · intro hpasses
    obtain ⟨hrest, haudience⟩ := (passes_iff).mp hpasses
    rw [hstate]
    exact (passes_iff).mpr ⟨hrest, fun hon => hopened _ ((mem_ownPanes).mp (haudience hon))⟩
  · intro haccepts
    have hown := (hapart haccepts).1
    rw [hstate] at haccepts
    exact (passes_iff).mpr
      ⟨((passes_iff).mp haccepts).1, fun hon => (mem_ownPanes).mpr (hown hon)⟩

theorem due_hold (harmed : Armed s) (hhost : status.hostId = hostId)
    (hdue : ofHost hostId s.held = [] →
      ∀ due ∈ s.releaseTimer, due = s.now + durationUntilQuietHoursEnd s.zone s.settings s.now) :
    (deskOf hostId opened (s.hold status)).due =
      some ((deskOf hostId opened s).due.getD (deskOf hostId opened s).endOfHold) := by
  have hheld : ofHost hostId (s.held ++ [status]) ≠ [] := by
    rw [ofHost_append, ofHost_own hhost]
    exact List.append_ne_nil_of_right_ne_nil _ (List.cons_ne_nil _ _)
  show (if ofHost hostId (s.held ++ [status]) = [] then none else (s.hold status).releaseTimer) = _
  rw [if_neg hheld]
  unfold State.hold deskOf Desk.endOfHold
  dsimp only
  by_cases hempty : ofHost hostId s.held = []
  · rw [if_pos hempty, Option.getD_none]
    cases htimer : s.releaseTimer with
    | none => rfl
    | some due => rw [hdue hempty due htimer]
  · rw [if_neg hempty]
    have hsome : s.held ≠ [] := by
      intro hnone
      rw [hnone] at hempty
      exact hempty rfl
    obtain ⟨due, htimer⟩ := Option.ne_none_iff_exists'.mp (harmed hsome)
    rw [htimer, Option.getD_some]

theorem desk_post (harmed : Armed s) (hopened : Opened opened s) (hhost : status.hostId = hostId)
    (hapart : Apart hostId opened s status) :
    deskOf hostId opened (s.postAgentStatusNotification status) =
      (deskOf hostId opened s).post status := by
  have hpasses : passes (deskOf hostId opened s).settings (deskOf hostId opened s).opened status =
      s.accepts status := passes_own hopened hapart
  unfold State.postAgentStatusNotification Desk.post
  rw [hpasses]
  by_cases haccepts : s.accepts status = true
  · rw [if_pos haccepts, if_pos haccepts]
    dsimp only
    by_cases hwithin : isWithinQuietHours s.zone s.settings s.now = true
    · have hwithin' : isWithinQuietHours (deskOf hostId opened s).zone
          (deskOf hostId opened s).settings (deskOf hostId opened s).now = true := hwithin
      rw [if_pos hwithin, if_pos hwithin', ← due_hold harmed hhost ((hapart haccepts).2 hwithin)]
      unfold deskOf State.hold
      dsimp only
      rw [ofHost_append, ofHost_own hhost, ofHost_cons_own hhost]
    · have hwithin' : ¬isWithinQuietHours (deskOf hostId opened s).zone
          (deskOf hostId opened s).settings (deskOf hostId opened s).now = true := hwithin
      have hcall : callOf hostId (s.now, .alert status) = some (s.now, .shown [status]) := by
        unfold callOf
        simp only [Call.alerts, ofHost_own hhost, if_neg (List.cons_ne_nil status [])]
      rw [if_neg hwithin, if_neg hwithin']
      unfold deskOf State.call
      dsimp only
      rw [ofHost_cons_own hhost, List.filterMap_cons_some hcall]
  · rw [if_neg haccepts, if_neg haccepts]

theorem desk_post_other (harmed : Armed s) (hhost : status.hostId ≠ hostId) :
    deskOf hostId opened (s.postAgentStatusNotification status) = deskOf hostId opened s := by
  unfold State.postAgentStatusNotification
  split
  · dsimp only
    split
    · unfold deskOf State.hold
      dsimp only
      rw [ofHost_append, ofHost_other hhost, List.append_nil, ofHost_cons_other hhost]
      by_cases hempty : ofHost hostId s.held = []
      · rw [if_pos hempty, if_pos hempty]
      · have hsome : s.held ≠ [] := by
          intro hnone
          rw [hnone] at hempty
          exact hempty rfl
        obtain ⟨due, htimer⟩ := Option.ne_none_iff_exists'.mp (harmed hsome)
        rw [if_neg hempty, if_neg hempty, htimer]
    · have hcall : callOf hostId (s.now, .alert status) = none := by
        unfold callOf
        simp only [Call.alerts, ofHost_other hhost, if_true]
      unfold deskOf State.call
      dsimp only
      rw [ofHost_cons_other hhost, List.filterMap_cons_none hcall]
  · rfl

theorem desk_cancel (s : State) (paneId : Text) :
    deskOf hostId opened (s.cancelAgentStatusNotification hostId paneId) =
      (deskOf hostId opened s).cancel paneId := by
  have hkept : ofHost hostId (s.held.filter fun status =>
      !decide (status.agent = (hostId, paneId))) =
      (ofHost hostId s.held).filter fun status => !decide (status.paneId = paneId) := by
    unfold ofHost
    rw [List.filter_filter, List.filter_filter]
    refine List.filter_congr fun status _ => ?_
    by_cases hhost : status.hostId = hostId
    · simp [AgentStatus.agent, hhost]
    · simp [hhost]
  have hdropped : ofHost hostId (s.held.filter fun status =>
      decide (status.agent = (hostId, paneId))) =
      (ofHost hostId s.held).filter fun status => decide (status.paneId = paneId) := by
    unfold ofHost
    rw [List.filter_filter, List.filter_filter]
    refine List.filter_congr fun status _ => ?_
    by_cases hhost : status.hostId = hostId
    · simp [AgentStatus.agent, hhost]
    · simp [hhost]
  have hcall : callOf hostId (s.now, .cancel hostId paneId) = some (s.now, .withdrawn paneId) :=
    if_pos rfl
  unfold State.cancelAgentStatusNotification Desk.cancel deskOf
  dsimp only
  rw [List.filterMap_cons_some hcall, ofHost_append, hdropped, hkept]
  congr 1
  by_cases hrest : ((ofHost hostId s.held).filter fun status =>
      !decide (status.paneId = paneId)) = []
  · rw [if_pos hrest, if_pos hrest]
  · have hown : ofHost hostId s.held ≠ [] := by
      intro hempty
      rw [hempty] at hrest
      exact hrest rfl
    rw [if_neg hrest, if_neg hrest, if_neg hown, if_neg]
    rw [List.isEmpty_iff]
    intro hempty
    rw [hempty] at hkept
    exact hrest hkept.symm

theorem desk_cancel_other {host : Text} (hhost : host ≠ hostId) (paneId : Text) :
    deskOf hostId opened (s.cancelAgentStatusNotification host paneId) =
      deskOf hostId opened s := by
  have hagent : ∀ status : AgentStatus, status.hostId = hostId →
      status.agent ≠ (host, paneId) := by
    intro status hown hsame
    exact hhost ((congrArg Prod.fst hsame).symm.trans hown)
  have hkept : ofHost hostId (s.held.filter fun status =>
      !decide (status.agent = (host, paneId))) = ofHost hostId s.held := by
    unfold ofHost
    rw [List.filter_filter]
    refine List.filter_congr fun status _ => ?_
    by_cases hown : status.hostId = hostId
    · rw [decide_eq_false (hagent status hown)]
      exact Bool.and_true _
    · rw [decide_eq_false hown]
      rfl
  have hdropped : ofHost hostId (s.held.filter fun status =>
      decide (status.agent = (host, paneId))) = [] := by
    unfold ofHost
    rw [List.filter_filter]
    refine List.filter_eq_nil_iff.mpr fun status _ hboth => ?_
    rw [Bool.and_eq_true, decide_eq_true_eq, decide_eq_true_eq] at hboth
    exact hagent status hboth.1 hboth.2
  have hcall : callOf hostId (s.now, .cancel host paneId) = none := if_neg hhost
  unfold State.cancelAgentStatusNotification deskOf
  dsimp only
  rw [List.filterMap_cons_none hcall, ofHost_append, hdropped, hkept, List.nil_append]
  congr 1
  by_cases hown : ofHost hostId s.held = []
  · rw [if_pos hown, if_pos hown]
  · rw [if_neg hown, if_neg hown, if_neg]
    rw [List.isEmpty_iff]
    intro hempty
    rw [hempty] at hkept
    exact hown hkept.symm

theorem desk_release («at» : Nat) :
    deskOf hostId opened (s.release «at») =
      if ofHost hostId s.held = [] then deskOf hostId opened s
      else
        { deskOf hostId opened s with
          held := []
          due := none
          calls := («at», .shown (ofHost hostId s.held)) :: (deskOf hostId opened s).calls } := by
  by_cases hheld : s.held = []
  · rw [release_empty «at» hheld, hheld]
    unfold deskOf
    rw [hheld]
    rfl
  · obtain ⟨call, halerts, hcontent, -, hrelease⟩ := release_cases «at» hheld
    have hcall : callOf hostId («at», call) =
        if ofHost hostId s.held = [] then none else some («at», .shown (ofHost hostId s.held)) := by
      rw [← halerts]
      cases call with
      | alert status => rfl
      | summary held content => rfl
      | cancel host paneId => exact absurd rfl hcontent
    rw [hrelease]
    by_cases hown : ofHost hostId s.held = []
    · rw [if_pos hown] at hcall ⊢
      unfold deskOf
      dsimp only
      rw [List.filterMap_cons_none hcall, hown, if_pos rfl]
      rfl
    · rw [if_neg hown] at hcall ⊢
      unfold deskOf
      dsimp only
      rw [List.filterMap_cons_some hcall]
      rfl

theorem desk_advance (harmed : Armed s) (duration : Nat) :
    deskOf hostId opened (s.advance duration) = (deskOf hostId opened s).advance duration := by
  have hdue : (deskOf hostId opened s).due =
      if ofHost hostId s.held = [] then none else s.releaseTimer := rfl
  cases htimer : s.releaseTimer with
  | none =>
    have hheld : s.held = [] := by
      by_contra hheld
      exact harmed hheld htimer
    have hown : ofHost hostId s.held = [] := by
      rw [hheld]
      rfl
    rw [if_pos hown] at hdue
    rw [advance_idle htimer, Desk.advance_idle hdue]
    rfl
  | some due =>
    by_cases hreached : due ≤ s.now + duration
    · have hrelease := @desk_release s hostId opened due
      rw [advance_due htimer hreached]
      have htick : deskOf hostId opened { s.release due with now := s.now + duration } =
          { deskOf hostId opened (s.release due) with now := s.now + duration } := rfl
      rw [htick, hrelease]
      by_cases hown : ofHost hostId s.held = []
      · rw [if_pos hown] at hdue ⊢
        rw [Desk.advance_idle hdue]
        rfl
      · rw [if_neg hown, htimer] at hdue
        rw [if_neg hown, Desk.advance_due hdue hreached]
        rfl
    · rw [advance_early htimer (Nat.lt_of_not_le hreached)]
      by_cases hown : ofHost hostId s.held = []
      · rw [if_pos hown] at hdue
        rw [Desk.advance_idle hdue]
        rfl
      · rw [if_neg hown, htimer] at hdue
        rw [Desk.advance_early hdue hreached]
        rfl

end Parts

end HerdrMobile.App.OwnAlerts
