import Mathlib.Data.List.Dedup
import HerdrMobile.App.Notifications
import HerdrMobile.Lib.Run

/-!
# The quiet hours

An alert is shown at once, held and shown with all that are held, or withdrawn. Nothing is shown
in the quiet hours, and nothing is held outside them, as long as no change of the settings moves
their end while something is held, no change of the clocks falls into the 24 hours that the timer
counts on, and no agent is held twice when they end.
-/
namespace HerdrMobile.App.QuietHours

open HerdrMobile.Lib.Run HerdrMobile.Lib.Strings HerdrMobile.App.Notifications
open HerdrMobile.App.AgentStatus (AttentionItem)

set_option autoImplicit false

/-- The number of agents that some alerts are about. -/
def agents (held : List AgentStatus) : Nat := (held.map AgentStatus.agent).dedup.length

/-- An alert that passed the settings has been shown, once or in one release, has been withdrawn,
or is held. -/
def Accounted (s : State) : Prop :=
  s.accepted.Perm (s.calls.flatMap (fun call => call.2.alerts) ++ s.withdrawn ++ s.held)

/-- What a step does that makes the calls `fresh`. -/
structure Lawful (s t : State) (fresh : List (Nat × Call)) : Prop where
  calls : t.calls = fresh ++ s.calls
  quiet : ∀ call ∈ fresh, call.2.content ≠ none →
    isWithinQuietHours s.zone s.settings call.1 = false
  prompt : s.held ≠ [] → ∀ u, s.now ≤ u → u < t.now →
    isWithinQuietHours s.zone s.settings u = false →
    ∃ call ∈ fresh, call.1 ≤ u ∧ call.2.alerts = s.held
  counted : ∀ call ∈ fresh, ∀ held content, call.2 = .summary held content →
    content.title = needYou (agents held)

/-- Before the first alert. -/
def start (zone : TimeZone) (now : Nat) : State := { zone, now }

structure Law (zone : TimeZone) (now : Nat) (es : List Event) : Prop where
  accounted : ∀ s, Visits step (start zone now) es s → Accounted s
  lawful : ∀ s e t, Occurs step (start zone now) es s e t → ∃ fresh, Lawful s t fresh

/-- The clocks are not changed in the way of the end when the first alert is held, no change of the
settings moves the end while one is held, and when the timer fires, no agent is held twice. -/
def Calm (s : State) : Event → Prop
  | .post status =>
    s.accepts status = true → isWithinQuietHours s.zone s.settings s.now = true → s.held = [] →
      Undisturbed s.zone s.settings s.now
  | .saveSettings settings =>
    s.held ≠ [] → ∀ due, QuietUntil s.zone s.settings s.now due →
      QuietUntil s.zone settings s.now due
  | .advance duration =>
    (∃ due ∈ s.releaseTimer, due ≤ s.now + duration) → (s.held.map AgentStatus.agent).Nodup
  | _ => True

section Accounts

variable {s : State}

theorem release_cases («at» : Nat) (h : s.held ≠ []) : ∃ call : Call, call.alerts = s.held ∧
    call.content ≠ none ∧
    (∀ held content, call = .summary held content →
      held = s.held ∧ content.title = needYou s.held.length) ∧
    s.release «at» =
      { s with releaseTimer := none, held := [], calls := («at», call) :: s.calls } := by
  obtain ⟨latest, hlatest⟩ := Option.ne_none_iff_exists'.mp (mt List.getLast?_eq_none_iff.mp h)
  unfold State.release
  rw [hlatest]
  dsimp only
  split
  · next hone =>
    obtain ⟨only, honly⟩ := List.length_eq_one_iff.mp hone
    have hsame : only = latest := by
      rw [honly] at hlatest
      exact Option.some.inj hlatest
    refine ⟨.alert latest, ?_, Option.some_ne_none _, fun held content hcall => ?_, rfl⟩
    · rw [honly, hsame]
      rfl
    · cases hcall
  · refine ⟨.summary s.held (buildHeldSummaryNotificationContent s.held latest), rfl,
      Option.some_ne_none _, fun held content hcall => ?_, rfl⟩
    cases hcall
    exact ⟨rfl, rfl⟩

theorem release_empty («at» : Nat) (h : s.held = []) :
    s.release «at» = { s with releaseTimer := none, held := [] } := by
  unfold State.release
  rw [h]
  rfl

theorem accounted_release (h : Accounted s) («at» : Nat) : Accounted (s.release «at») := by
  by_cases hheld : s.held = []
  · rw [release_empty «at» hheld]
    unfold Accounted at h ⊢
    rw [hheld] at h
    exact h
  · obtain ⟨call, halerts, -, -, heq⟩ := release_cases «at» hheld
    rw [heq]
    unfold Accounted at h ⊢
    refine h.trans ?_
    rw [List.flatMap_cons, halerts, List.append_nil, List.append_assoc s.held]
    exact List.perm_append_comm

theorem accounted_step {t : State} {e : Event} (h : Accounted s) (hs : step s e = some t) :
    Accounted t := by
  cases e with
  | post status =>
    cases hs
    unfold State.postAgentStatusNotification
    split
    · dsimp only
      unfold Accounted at h
      split
      · show (status :: s.accepted).Perm
          (s.calls.flatMap (fun call => call.2.alerts) ++ s.withdrawn ++ (s.held ++ [status]))
        rw [← List.append_assoc]
        exact (h.cons status).trans (List.perm_append_singleton ..).symm
      · exact h.cons status
    · exact h
  | cancel hostId paneId =>
    cases hs
    have hsplit := List.filter_append_perm
      (fun status : AgentStatus => decide (status.agent = (hostId, paneId))) s.held
    show s.accepted.Perm (s.calls.flatMap (fun call => call.2.alerts) ++
      (s.held.filter (fun status => status.agent = (hostId, paneId)) ++ s.withdrawn) ++
        s.held.filter fun status => !decide (status.agent = (hostId, paneId)))
    refine h.trans ?_
    rw [List.append_assoc, List.append_assoc]
    refine List.Perm.append_left _ ((hsplit.symm.append_left _).trans ?_)
    rw [← List.append_assoc]
    exact List.perm_append_comm.append_right _
  | saveSettings settings =>
    cases hs
    exact h
  | notePaneOpened paneId =>
    cases hs
    exact h
  | advance duration =>
    cases hs
    unfold State.advance
    split
    · split
      · exact accounted_release h _
      · exact h
    · exact h

end Accounts

/-- The timer is armed while something is held, for the end of the quiet hours. -/
structure Inv (s : State) : Prop where
  idle : s.held = [] → s.releaseTimer = none
  armed : s.held ≠ [] → ∃ due, s.releaseTimer = some due ∧ s.now < due ∧
    QuietUntil s.zone s.settings s.now due

theorem inv_start (zone : TimeZone) (now : Nat) : Inv (start zone now) :=
  ⟨fun _ => rfl, fun h => absurd rfl h⟩

section Step

variable {s t : State} {e : Event}

/-- No call is made, and no time passes. -/
theorem lawful_still (hcalls : t.calls = s.calls) (hnow : t.now = s.now) : Lawful s t [] where
  calls := hcalls
  quiet := by simp
  prompt _ u hle hlt := by
    rw [hnow] at hlt
    exact absurd hlt (Nat.not_lt.mpr hle)
  counted := by simp

theorem inv_hold (h : Inv s) (status : AgentStatus)
    (hwithin : isWithinQuietHours s.zone s.settings s.now = true)
    (hfirst : s.held = [] → Undisturbed s.zone s.settings s.now) : Inv (s.hold status) := by
  refine ⟨fun hempty => ?_, fun _ => ?_⟩
  · cases List.append_eq_nil_iff.mp hempty |>.2
  · by_cases hheld : s.held = []
    · refine ⟨_, ?_, quietUntil_end hwithin (hfirst hheld)⟩
      rw [State.hold, h.idle hheld]
    · obtain ⟨due, htimer, hquiet⟩ := h.armed hheld
      refine ⟨due, ?_, hquiet⟩
      rw [State.hold, htimer]

theorem inv_post (h : Inv s) (status : AgentStatus) (hcalm : Calm s (.post status)) :
    Inv (s.postAgentStatusNotification status) ∧
      ∃ fresh, Lawful s (s.postAgentStatusNotification status) fresh := by
  unfold State.postAgentStatusNotification
  split
  · next haccepts =>
    dsimp only
    have haccepted : Inv { s with accepted := status :: s.accepted } := ⟨h.idle, h.armed⟩
    split
    · next hwithin =>
      exact ⟨inv_hold haccepted status hwithin (hcalm haccepts hwithin), [], lawful_still rfl rfl⟩
    · next hout =>
      refine ⟨⟨h.idle, h.armed⟩, [(s.now, .alert status)], rfl, ?_, ?_, ?_⟩
      · intro call hcall _
        rw [List.mem_singleton.mp hcall]
        exact Bool.eq_false_iff.mpr hout
      · exact fun _ u hle hlt => absurd hlt (Nat.not_lt.mpr hle)
      · intro call hcall held content hsummary
        rw [List.mem_singleton.mp hcall] at hsummary
        cases hsummary
  · exact ⟨h, [], lawful_still rfl rfl⟩

theorem inv_cancel (h : Inv s) (hostId paneId : Text) :
    Inv (s.cancelAgentStatusNotification hostId paneId) ∧
      ∃ fresh, Lawful s (s.cancelAgentStatusNotification hostId paneId) fresh := by
  refine ⟨⟨fun hempty => ?_, fun hheld => ?_⟩, [(s.now, .cancel hostId paneId)], rfl, ?_, ?_, ?_⟩
  · exact if_pos (List.isEmpty_iff.mpr hempty)
  · have hbefore : s.held ≠ [] := by
      intro hnone
      refine hheld ?_
      show s.held.filter _ = []
      rw [hnone]
      rfl
    obtain ⟨due, htimer, hquiet⟩ := h.armed hbefore
    exact ⟨due, (if_neg (mt List.isEmpty_iff.mp hheld)).trans htimer, hquiet⟩
  · intro call hcall hshows
    rw [List.mem_singleton.mp hcall] at hshows
    exact absurd rfl hshows
  · exact fun _ u hle hlt => absurd hlt (Nat.not_lt.mpr hle)
  · intro call hcall held content hsummary
    rw [List.mem_singleton.mp hcall] at hsummary
    cases hsummary

theorem inv_advance (h : Inv s) (duration : Nat) (hcalm : Calm s (.advance duration)) :
    Inv (s.advance duration) ∧ ∃ fresh, Lawful s (s.advance duration) fresh := by
  by_cases hheld : s.held = []
  · rw [advance_idle (h.idle hheld)]
    refine ⟨⟨h.idle, fun hne => absurd hheld hne⟩, [], rfl, ?_, ?_, ?_⟩
    · simp
    · exact fun hne => absurd hheld hne
    · simp
  · obtain ⟨due, htimer, hahead, hquiet⟩ := h.armed hheld
    obtain hdue | hearly := le_or_gt due (s.now + duration)
    · obtain ⟨call, halerts, hshows, htitle, heq⟩ := release_cases due hheld
      have hnodup : (s.held.map AgentStatus.agent).Nodup := hcalm ⟨_, htimer, hdue⟩
      rw [advance_due htimer hdue, heq]
      refine ⟨⟨fun _ => rfl, fun hne => absurd rfl hne⟩, [(due, call)], rfl, ?_, ?_, ?_⟩
      · intro made hmade _
        rw [List.mem_singleton.mp hmade]
        exact hquiet.ended
      · intro _ u hle _ hu
        refine ⟨_, List.mem_singleton_self _, ?_, halerts⟩
        by_contra hlt
        rw [hquiet.quiet u hle (Nat.lt_of_not_le hlt)] at hu
        cases hu
      · intro made hmade held content hsummary
        rw [List.mem_singleton.mp hmade] at hsummary
        obtain ⟨rfl, hcount⟩ := htitle held content hsummary
        rw [hcount, agents, List.Nodup.dedup hnodup, List.length_map]
    · rw [advance_early htimer hearly]
      refine ⟨⟨fun hne => absurd hne hheld, fun _ => ⟨due, htimer, hearly, ?_⟩⟩, [], rfl,
        ?_, ?_, ?_⟩
      · exact hquiet.later (Nat.le_add_right _ _) hearly.le
      · simp
      · intro _ u hle hlt hu
        rw [hquiet.quiet u hle (hlt.trans hearly)] at hu
        cases hu
      · simp

/-- One step, whatever it is. -/
theorem inv_step (h : Inv s) (hcalm : Calm s e) (hs : step s e = some t) :
    Inv t ∧ ∃ fresh, Lawful s t fresh := by
  cases e with
  | post status =>
    cases hs
    exact inv_post h status hcalm
  | cancel hostId paneId =>
    cases hs
    exact inv_cancel h hostId paneId
  | saveSettings settings =>
    cases hs
    refine ⟨⟨h.idle, fun hheld => ?_⟩, [], lawful_still rfl rfl⟩
    obtain ⟨due, htimer, hahead, hquiet⟩ := h.armed hheld
    exact ⟨due, htimer, hahead, hcalm hheld due hquiet⟩
  | notePaneOpened paneId =>
    cases hs
    exact ⟨⟨h.idle, h.armed⟩, [], lawful_still rfl rfl⟩
  | advance duration =>
    cases hs
    exact inv_advance h duration hcalm

end Step

/-- In every run in which neither the settings nor the clocks move the end of the quiet hours while
something is held, and in which no agent is held twice when it comes: every alert is accounted for,
nothing is shown in the quiet hours, nothing stays held outside them, and the summary counts the
agents. -/
theorem quiet_hours_law (zone : TimeZone) (now : Nat) (es : List Event)
    (hcalm : ∀ s e t, Occurs step (start zone now) es s e t → Calm s e) : Law zone now es := by
  have hinv : ∀ {s}, Visits step (start zone now) es s → Inv s := fun {s} hv =>
    visits_invariant Inv (inv_start zone now)
      (fun h hocc => (inv_step h (hcalm _ _ _ hocc) hocc.step_eq).1) hv
  refine ⟨fun s hv => ?_, fun s e t hocc => ?_⟩
  · have hstart : Accounted (start zone now) := List.Perm.refl _
    exact visits_of_step Accounted hstart accounted_step hv
  · exact (inv_step (hinv hocc.before) (hcalm _ _ _ hocc) hocc.step_eq).2

/-- An alert of a pane of the computer `h`. -/
def blockedIn (paneId : Text) : AgentStatus where
  hostId := "h".toList
  paneId := paneId
  status := .blocked
  «at» := none
  workspaceId := "w".toList
  tabId := "t".toList
  tabTitle := "tab".toList
  paneTitle := paneId
  agentKind := "agent".toList

def hours : Nat := 60 * minute

/-- Quiet hours from ten in the evening to half past seven. -/
def nightly : NotificationSettings := { quietHoursEnabled := true }

/-- A night with three alerts of which one is withdrawn, and a shown one before it. -/
def quietNight : List Event :=
  [ .saveSettings nightly, .post (blockedIn "p".toList), .advance (3 * hours),
    .post (blockedIn "p".toList), .post (blockedIn "q".toList), .advance (2 * hours),
    .post (blockedIn "r".toList), .cancel "h".toList "q".toList,
    .saveSettings { nightly with alertOnDone := false }, .advance (12 * hours) ]

section Even

variable {settings : NotificationSettings} {s t : State} {e : Event} {now : Nat}

theorem today_even (now : Nat) (time : ClockTime) : TimeZone.even.today now time =
    now - now % day + time.minutesSinceMidnight * minute := by
  unfold TimeZone.today
  rw [TimeZone.reading_even]

/-- Clocks that are never changed show the quiet hours until they end. -/
theorem undisturbed_even (h : isWithinQuietHours .even settings now = true) :
    Undisturbed .even settings now := by
  have hto := minutesSinceMidnight_lt settings.quietHoursTo
  have hle := Nat.mod_le now day
  have hpos : now < now - now % day + day := by
    have hlt := Nat.mod_lt now (show 0 < day by decide)
    omega
  unfold Undisturbed
  simp only [TimeZone.reading_even, TimeZone.moment_even, today_even, true_and]
  split
  · next hahead =>
    intro u hnow hu
    rw [within_iff] at h ⊢
    refine ⟨h.1, ?_⟩
    have hrange := h.2
    simp only [TimeZone.reading_even] at hrange ⊢
    generalize settings.quietHoursTo.minutesSinceMidnight = last at *
    generalize settings.quietHoursFrom.minutesSinceMidnight = first at *
    simp only [day, minute] at *
    omega
  · exact ⟨by omega, fun u hu _ => (Nat.add_sub_cancel' hu).symm⟩

theorem zone_release («at» : Nat) : (s.release «at»).zone = s.zone := by
  unfold State.release
  split
  · rfl
  · dsimp only
    split
    · rfl
    · rfl

theorem zone_step (hs : step s e = some t) : t.zone = s.zone := by
  cases e with
  | post status =>
    cases hs
    unfold State.postAgentStatusNotification
    split
    · dsimp only
      split
      · rfl
      · rfl
    · rfl
  | cancel hostId paneId | saveSettings settings | notePaneOpened paneId =>
    cases hs
    rfl
  | advance duration =>
    cases hs
    unfold State.advance
    split
    · split
      · exact zone_release _
      · rfl
    · rfl

/-- The change of the settings leaves the quiet hours alone, or nothing is held. -/
def calmEvenly (s : State) : Event → Bool
  | .saveSettings settings => s.held = [] ||
      (settings.quietHoursEnabled = s.settings.quietHoursEnabled &&
        settings.quietHoursFrom = s.settings.quietHoursFrom &&
        settings.quietHoursTo = s.settings.quietHoursTo)
  | .advance duration => (∃ due ∈ s.releaseTimer, due ≤ s.now + duration) →
      (s.held.map AgentStatus.agent).Nodup
  | _ => true

theorem calm_even (hzone : s.zone = .even) (h : calmEvenly s e = true) : Calm s e := by
  cases e with
  | post status =>
    intro _ hwithin _
    rw [hzone] at hwithin ⊢
    exact undisturbed_even hwithin
  | saveSettings settings =>
    intro hheld due hquiet
    simp only [calmEvenly, Bool.or_eq_true, Bool.and_eq_true, decide_eq_true_eq] at h
    obtain ⟨⟨henabled, hfrom⟩, hto⟩ := h.resolve_left hheld
    have hsame : isWithinQuietHours s.zone settings = isWithinQuietHours s.zone s.settings := by
      funext u
      unfold isWithinQuietHours
      rw [henabled, hfrom, hto]
    exact ⟨hquiet.ahead, hsame ▸ hquiet.quiet, hsame ▸ hquiet.ended⟩
  | advance duration =>
    simp only [calmEvenly, decide_eq_true_eq] at h
    exact h
  | cancel hostId paneId => trivial
  | notePaneOpened paneId => trivial

end Even

theorem quiet_hours_law_night : Law .even (20 * hours) quietNight ∧
    (run step (start .even (20 * hours)) quietNight).any (fun s => s.held.isEmpty &&
      s.calls.map (fun call => call.2.alerts.length) = [2, 0, 1]) = true := by
  refine ⟨quiet_hours_law .even _ quietNight fun s e t hocc => ?_, by decide⟩
  have hevery : everyStep step calmEvenly (start .even (20 * hours)) quietNight = true := by decide
  have hzone : s.zone = .even := by
    refine visits_of_step (fun s => s.zone = .even) rfl (fun h hs => ?_) hocc.before
    exact (zone_step hs).trans h
  exact calm_even hzone (occurs_good hevery hocc)

/-- The quiet hours are switched off while an alert is held. -/
def switchedOff : List Event :=
  [ .saveSettings nightly, .post (blockedIn "p".toList), .saveSettings {}, .advance hours ]

/-- They are made longer. -/
def prolonged : List Event :=
  [ .saveSettings nightly, .post (blockedIn "p".toList),
    .saveSettings { nightly with quietHoursTo := ⟨9, 0⟩ }, .advance (10 * hours) ]

/-- An agent alerts twice in one night. -/
def alertsTwice : List Event :=
  [ .saveSettings nightly, .post (blockedIn "p".toList), .post (blockedIn "p".toList),
    .advance (10 * hours) ]

/-- At three in the morning of the next day the clocks are set back by an hour. -/
def setBack : TimeZone where
  reading u := if u < 27 * hours then u else u - hours
  moment shown := if shown < 27 * hours then shown else shown + hours

/-- A night in which an alert is held. -/
def longNight : List Event :=
  [ .saveSettings nightly, .post (blockedIn "p".toList), .advance (10 * hours) ]

/-- A law about the calls that the last step of such a run makes, the first ones that there are. -/
theorem calls_of_law {zone : TimeZone} {now duration : Nat} (es : List Event) (p : State → Bool)
    (h : Law zone now (es ++ [.advance duration]))
    (hp : (run step (start zone now) es).any (fun s => s.calls.isEmpty && p s) = true) :
    ∃ s, p s = true ∧ Lawful s (s.advance duration) (s.advance duration).calls := by
  obtain ⟨s, hrun, hs⟩ := (Option.any_eq_true _ _).mp hp
  obtain ⟨hempty, hgood⟩ := Bool.and_eq_true_iff.mp hs
  obtain ⟨fresh, hfresh⟩ := h.lawful s (.advance duration) _ (occurs_last hrun rfl)
  have hcalls : (s.advance duration).calls = fresh := by
    rw [hfresh.calls, List.isEmpty_iff.mp hempty, List.append_nil]
  exact ⟨s, hgood, hcalls ▸ hfresh⟩

def heldOutside (duration : Nat) (s : State) : Bool :=
  s.held ≠ [] && s.now < (s.advance duration).now && !isWithinQuietHours s.zone s.settings s.now &&
    (s.advance duration).calls = []

def showsInside (duration : Nat) (s : State) : Bool :=
  (s.advance duration).calls.any fun call =>
    call.2.content.isSome && isWithinQuietHours s.zone s.settings call.1

def miscounts (duration : Nat) (s : State) : Bool :=
  (s.advance duration).calls.map Prod.snd = [.summary s.held
    { title := needYou 2, body := "p".toList, payload := (blockedIn "p".toList).payload }] &&
      agents s.held = 1

/-- Nothing that is to be shown is shown inside the quiet hours. -/
theorem not_law_of_showsInside {zone : TimeZone} {now duration : Nat} {es : List Event}
    (hp : (run step (start zone now) es).any (fun s => s.calls.isEmpty && showsInside duration s) =
      true) : ¬Law zone now (es ++ [.advance duration]) := by
  intro h
  obtain ⟨s, hs, hlawful⟩ := calls_of_law es (showsInside duration) h hp
  obtain ⟨call, hcall, hinside⟩ := List.any_eq_true.mp hs
  obtain ⟨hshows, hwithin⟩ := Bool.and_eq_true_iff.mp hinside
  rw [hlawful.quiet call hcall (Option.isSome_iff_ne_none.mp hshows)] at hwithin
  cases hwithin

theorem quiet_hours_break : ¬Law .even (23 * hours) switchedOff ∧
    ¬Law .even (23 * hours) prolonged ∧ ¬Law .even (23 * hours) alertsTwice ∧
    ¬Law setBack (23 * hours) longNight := by
  have hprolonged : (run step (start .even (23 * hours)) prolonged.dropLast).any (fun s =>
      s.calls.isEmpty && showsInside (10 * hours) s) = true := by decide
  have hnight : (run step (start setBack (23 * hours)) longNight.dropLast).any (fun s =>
      s.calls.isEmpty && showsInside (10 * hours) s) = true := by decide
  refine ⟨fun h => ?_, not_law_of_showsInside hprolonged, fun h => ?_,
    not_law_of_showsInside hnight⟩
  · obtain ⟨s, hs, hlawful⟩ := calls_of_law
      [.saveSettings nightly, .post (blockedIn "p".toList), .saveSettings {}]
      (heldOutside hours) h (by decide)
    simp only [heldOutside, Bool.and_eq_true, decide_eq_true_eq, Bool.not_eq_true'] at hs
    obtain ⟨⟨⟨hheld, hnow⟩, hout⟩, hcalls⟩ := hs
    obtain ⟨call, hcall, -⟩ := hlawful.prompt hheld s.now le_rfl hnow hout
    rw [hcalls] at hcall
    cases hcall
  · obtain ⟨s, hs, hlawful⟩ := calls_of_law
      [.saveSettings nightly, .post (blockedIn "p".toList), .post (blockedIn "p".toList)]
      (miscounts (10 * hours)) h (by decide)
    simp only [miscounts, Bool.and_eq_true, decide_eq_true_eq] at hs
    obtain ⟨hcalls, hone⟩ := hs
    obtain ⟨call, hcall, hsummary⟩ : ∃ call ∈ (s.advance (10 * hours)).calls, call.2 =
        .summary s.held ⟨needYou 2, "p".toList, (blockedIn "p".toList).payload⟩ :=
      List.mem_map.mp (hcalls ▸ List.mem_singleton_self _)
    have htitle := hlawful.counted call hcall _ _ hsummary
    rw [hone] at htitle
    exact absurd htitle (by decide)

end HerdrMobile.App.QuietHours
