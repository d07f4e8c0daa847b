import HerdrMobile.App.Alerts
import HerdrMobile.App.OwnAlerts
import HerdrMobile.App.OwnCache
import HerdrMobile.Lib.Observed

/-!
# The alerts of a computer depend on that computer

Two runs that have the same events about a computer, the same settings and the same clock hold,
show, release and withdraw the same alerts of it, as long as no pane id is let through for another
computer, no alert joins a timer that another computer's alert has set to another moment, and the
acknowledgements are read whole.
-/
namespace HerdrMobile.App.AlertIsolation

open HerdrMobile.Lib.Run HerdrMobile.Lib.Strings HerdrMobile.App.Alerts
open HerdrMobile.App.Notifications (NotificationSettings TimeZone AgentStatus Call)
open HerdrMobile.App.PlainStore (NotificationAck)
open HerdrMobile.App.AgentStatus (Message State Times ackFor)
open HerdrMobile.App.AckRuns (Plain)
open HerdrMobile.App.Acknowledged (stored)
open HerdrMobile.App.OwnLog (Book bookOf Sound returned)
open HerdrMobile.App.OwnCache (Keeps)
open HerdrMobile.App.OwnAlerts (Desk deskOf ofHost Armed Opened Apart OwnCall callOf)

set_option autoImplicit false

/-- What a person sees of the alerts of a computer: some are shown, alone or in a summary, or those
of a pane are withdrawn. -/
inductive Sight where
  | shown (alerts : List AgentStatus)
  | withdrawn
deriving DecidableEq

section Sights

variable {ι : Type} [DecidableEq ι] (idFor : Text → Text → ι) (hostId paneId : Text)

/-- A call as it concerns the alerts of a computer and the notification of one of its panes. -/
def sight (call : Nat × Call) : Option (Nat × Sight) :=
  match call with
  | («at», .cancel host pane) =>
    if idFor host pane = idFor hostId paneId then some («at», .withdrawn) else none
  | («at», call) =>
    if ofHost hostId call.alerts = [] then none else some («at», .shown (ofHost hostId call.alerts))

def sights (s : Services) : List (Nat × Sight) :=
  s.alerts.calls.filterMap (sight idFor hostId paneId)

/-- The same alerts of the computer have passed the settings, are held, were withdrawn while they
were held, and were shown and withdrawn at the same moments. -/
structure Same (s s' : Services) : Prop where
  accepted : ofHost hostId s.alerts.accepted = ofHost hostId s'.alerts.accepted
  held : ofHost hostId s.alerts.held = ofHost hostId s'.alerts.held
  withdrawn : ofHost hostId s.alerts.withdrawn = ofHost hostId s'.alerts.withdrawn
  sights : ∀ paneId, sights idFor hostId paneId s = sights idFor hostId paneId s'

end Sights

/-- The events about a computer, and those about all. A message counts when it is applied. -/
def concerns (hostId : Text) : Event → Bool
  | .apply arrival => decide (arrival.hostId = hostId)
  | .markSeen host _ | .notePaneOpened host _ | .markAllSeen host | .remove host _
  | .removeAll host | .saved host _ => decide (host = hostId)
  | .saveSettings _ | .advance _ => true
  | .arrive _ | .begin | .read | .loaded _ | .switchTo _ => false

/-- Two runs that differ in what concerns other computers have the same alerts of this one. -/
def Law {ι : Type} [DecidableEq ι] (idFor : Text → Text → ι) (times : Times) (hostId : Text)
    (zone : TimeZone) (now : Nat) (store store' : List NotificationAck) (es es' : List Event) :
    Prop :=
  ∀ s s', run (step times) (.start zone now store) es = some s →
    run (step times) (.start zone now store') es' = some s' → Same idFor hostId s s'

/-- Nothing of another computer decides about an alert of this one, its acknowledgements are read
whole, and the ids of computers are free of the separator. -/
def Clean (times : Times) (hostId : Text) (s : Services) : Event → Prop
  | .apply (.agentStatus status) => status.hostId = hostId → s.posts times status = true →
      Apart hostId s.opened s.alerts status
  | .loaded ok => OwnCache.Read hostId s.log ok
  | .arrive arrival => Plain arrival.hostId
  | .switchTo host => Plain host
  | _ => True

instance (times : Times) (hostId : Text) (s : Services) :
    (e : Event) → Decidable (Clean times hostId s e)
  | .apply (.agentStatus status) => inferInstanceAs (Decidable (status.hostId = hostId →
      s.posts times status = true → Apart hostId s.opened s.alerts status))
  | .loaded ok => inferInstanceAs (Decidable (OwnCache.Read hostId s.log ok))
  | .arrive arrival => inferInstanceAs (Decidable (Plain arrival.hostId))
  | .switchTo host => inferInstanceAs (Decidable (Plain host))
  | .apply (.treeSnapshot _ _) | .begin | .read | .markSeen _ _ | .notePaneOpened _ _
  | .markAllSeen _ | .remove _ _ | .removeAll _ | .saved _ _ | .saveSettings _ | .advance _ =>
    isTrue trivial

structure View where
  book : Book
  desk : Desk

namespace View

variable (times : Times) (hostId : Text) (v : View)

def applyStatus (status : AgentStatus) : View where
  book := v.book.onMessage times (.agentStatus status.toAttentionItem)
  desk :=
    if (ackFor times v.book.store status.paneId status.status status.at).isNone then
      v.desk.post status
    else v.desk

def saved (ok : Bool) : View where
  book := v.book.saved ok
  desk :=
    match v.book.saves with
    | pending :: _ => if ok && pending.removed then v.desk.cancel pending.item.paneId else v.desk
    | [] => v.desk

def act : Event → View
  | .apply (.agentStatus status) => v.applyStatus times status
  | .apply (.treeSnapshot host agents) =>
    { v with book := v.book.onMessage times (.treeSnapshot host agents) }
  | .markSeen _ paneId => { v with book := v.book.markSeen hostId paneId }
  | .notePaneOpened _ paneId =>
    { book := v.book.markSeen hostId paneId, desk := v.desk.notePaneOpened paneId }
  | .markAllSeen _ => { v with book := v.book.transitionAll false }
  | .remove _ paneId => { v with book := v.book.remove hostId paneId }
  | .removeAll _ => { v with book := v.book.transitionAll true }
  | .saved _ ok => v.saved ok
  | .saveSettings settings => { v with desk := v.desk.saveSettings settings }
  | .advance duration => { v with desk := v.desk.advance duration }
  | .arrive _ | .begin | .read | .loaded _ | .switchTo _ => v

end View

def viewOf (hostId : Text) (s : Services) : View where
  book := bookOf hostId s.log
  desk := deskOf hostId s.opened s.alerts

structure Inv (hostId : Text) (s : Services) : Prop where
  log : OwnCache.Inv hostId s.log
  arrivals : s.arrivals.map Arrival.message = s.log.queue.filter Message.taken
  armed : Armed s.alerts
  opened : Opened s.opened s.alerts

section Steps

variable {times : Times} {s t : Services} {hostId : Text}

theorem logs_eq {e : AgentStatus.Event} (hs : s.logs times e = some t) :
    ∃ log, AgentStatus.step times s.log e = some log ∧ t = { s with log := log } := by
  obtain ⟨log, hlog, ht⟩ := Option.map_eq_some_iff.mp hs
  exact ⟨log, hlog, ht.symm⟩

theorem called_eq {host : Text} {e : AgentStatus.Event} (hs : s.called times host e = some t) :
    host = s.log.currentHostId ∧
      ∃ log, AgentStatus.step times s.log e = some log ∧ t = { s with log := log } := by
  unfold Services.called at hs
  split at hs
  · next hhost => exact ⟨hhost, logs_eq hs⟩
  · cases hs

/-- A step is seen where it concerns the computer, and only there. -/
def Viewed (times : Times) (hostId : Text) (s : Services) (e : Event) (t : Services) : Prop :=
  Inv hostId t ∧
    viewOf hostId t =
      if concerns hostId e then (viewOf hostId s).act times hostId e else viewOf hostId s

/-- A step of the log of which nothing is seen. -/
theorem viewed_hidden {e : Event} (hconcerns : concerns hostId e = false) (hinv : Inv hostId t)
    (hbook : bookOf hostId t.log = bookOf hostId s.log)
    (hdesk : deskOf hostId t.opened t.alerts = deskOf hostId s.opened s.alerts) :
    Viewed times hostId s e t := by
  refine ⟨hinv, ?_⟩
  rw [hconcerns, if_neg Bool.false_ne_true]
  exact congrArg₂ View.mk hbook hdesk

theorem viewed_seen {e : Event} (hconcerns : concerns hostId e = true) (hinv : Inv hostId t)
    (hview : viewOf hostId t = (viewOf hostId s).act times hostId e) :
    Viewed times hostId s e t := by
  refine ⟨hinv, ?_⟩
  rw [hconcerns, if_pos rfl]
  exact hview

theorem inv_keeps (h : Inv hostId s) {log : State} (hkeeps : Keeps s.log log)
    (hsound : Sound log) : Inv hostId { s with log := log } where
  log := h.log.keep hkeeps hsound
  arrivals := by
    rw [hkeeps.queue]
    exact h.arrivals
  armed := h.armed
  opened := h.opened

theorem viewed_arrive {arrival : Arrival} (h : Inv hostId s) (hplain : Plain arrival.hostId)
    (hs : step times s (.arrive arrival) = some t) : Viewed times hostId s (.arrive arrival) t := by
  obtain ⟨log, hlog, rfl⟩ := logs_eq hs
  have hqueued : log = { s.log with queue := s.log.queue ++ [arrival.message] } := by
    cases arrival with
    | agentStatus status => exact (Option.some.inj hlog).symm
    | treeSnapshot host agents =>
      simp only [Arrival.message, AgentStatus.step] at hlog
      split at hlog
      · exact (Option.some.inj hlog).symm
      · cases hlog
  subst hqueued
  refine viewed_hidden rfl ⟨OwnCache.inv_arrive h.log hplain, ?_, h.armed, h.opened⟩ rfl rfl
  show List.map Arrival.message (if arrival.message.taken then s.arrivals ++ [arrival]
    else s.arrivals) = (s.log.queue ++ [arrival.message]).filter Message.taken
  rw [List.filter_append, List.filter_singleton, ← h.arrivals]
  cases arrival.message.taken with
  | true =>
    rw [if_pos rfl, cond_true, List.map_append]
    rfl
  | false => rw [if_neg Bool.false_ne_true, cond_false, List.append_nil]

/-- The start of a message changes no row, no save and no arrival. -/
theorem begin_same {log log' : State} (hs : log.begin = some log') :
    log'.log = log.log ∧ log'.store = log.store ∧ log'.saves = log.saves ∧
      log'.queue.filter Message.taken = log.queue.filter Message.taken := by
  unfold State.begin at hs
  split at hs
  · next message rest hidle hqueue =>
    split at hs
    · next hdropped =>
      cases hs
      refine ⟨rfl, rfl, rfl, ?_⟩
      rw [hqueue, List.filter_cons_of_neg (by simpa using hdropped)]
    · split at hs
      · cases hs
        exact ⟨rfl, rfl, rfl, rfl⟩
      · cases hs
        exact ⟨rfl, rfl, rfl, rfl⟩
  · cases hs

theorem viewed_begin (h : Inv hostId s) (hs : step times s .begin = some t) :
    Viewed times hostId s .begin t := by
  obtain ⟨log, hlog, rfl⟩ := logs_eq hs
  obtain ⟨hrows, hstore, hsaves, hqueue⟩ := begin_same hlog
  refine viewed_hidden rfl ⟨OwnCache.inv_begin h.log hlog, ?_, h.armed, h.opened⟩ ?_ rfl
  · exact h.arrivals.trans hqueue.symm
  · unfold bookOf
    rw [hrows, hstore, hsaves]

theorem viewed_read (h : Inv hostId s) (hs : step times s .read = some t) :
    Viewed times hostId s .read t := by
  obtain ⟨log, hlog, rfl⟩ := logs_eq hs
  simp only [AgentStatus.step] at hlog
  split at hlog
  · next hloading _ =>
    cases hlog
    exact viewed_hidden rfl
      ⟨OwnCache.inv_read h.log hloading, h.arrivals, h.armed, h.opened⟩ rfl rfl
  · cases hlog

theorem viewed_loaded {ok : Bool} (h : Inv hostId s) (hread : OwnCache.Read hostId s.log ok)
    (hs : step times s (.loaded ok) = some t) : Viewed times hostId s (.loaded ok) t := by
  obtain ⟨log, hlog, rfl⟩ := logs_eq hs
  simp only [AgentStatus.step] at hlog
  split at hlog
  · next hloading =>
    cases hlog
    exact viewed_hidden rfl
      ⟨OwnCache.inv_loaded h.log hloading hread, h.arrivals, h.armed, h.opened⟩ rfl rfl
  · cases hlog

theorem viewed_switchTo {host : Text} (h : Inv hostId s) (hplain : Plain host)
    (hs : step times s (.switchTo host) = some t) : Viewed times hostId s (.switchTo host) t := by
  obtain ⟨log, hlog, rfl⟩ := logs_eq hs
  cases hlog
  refine viewed_hidden rfl ⟨⟨⟨h.log.sound.keyed, h.log.sound.rows, h.log.sound.saves⟩, hplain,
    h.log.queue, h.log.head, fun hacks => ?_⟩, h.arrivals, h.armed, h.opened⟩ rfl rfl
  exact ⟨(h.log.cache hacks).part, (h.log.cache hacks).whole⟩

/-- The message that is applied is the first of the queue, and its acknowledgements are there. -/
theorem apply_eq {arrival : Arrival} (h : Inv hostId s) (hs : s.apply times arrival = some t) :
    ∃ queue arrivals, s.log.loading = .ready ∧ s.log.queue = arrival.message :: queue ∧
      s.log.acksHostId = some arrival.hostId ∧
      arrivals.map Arrival.message = queue.filter Message.taken ∧
      t = { s with
        log := State.onMessage times { s.log with queue := queue, loading := .idle }
          arrival.message
        alerts := s.alertsAfter times arrival
        arrivals := arrivals } := by
  unfold Services.apply at hs
  split at hs
  · next first rest harrivals =>
    split at hs
    · next hfirst =>
      subst hfirst
      obtain ⟨log, hlog, rfl⟩ := logs_eq hs
      simp only [AgentStatus.step] at hlog
      split at hlog
      · next message queue hloading hqueue =>
        cases hlog
        have hne : s.log.loading ≠ .idle := by
          rw [hloading]
          exact AgentStatus.Loading.noConfusion
        obtain ⟨head, hhead, htaken, hacks⟩ := h.log.head hne
        rw [hqueue] at hhead
        cases hhead
        have hall := h.arrivals
        rw [harrivals, hqueue, List.map_cons, List.filter_cons_of_pos htaken] at hall
        obtain ⟨hmessage, hrest⟩ := List.cons.inj hall
        subst hmessage
        exact ⟨queue, rest, hloading, hqueue, hacks, hrest, rfl⟩
      · cases hlog
    · cases hs
  · cases hs

theorem desk_apply {status : AgentStatus} (h : Inv hostId s) (hhost : status.hostId = hostId)
    (hcached : OwnLog.Cached hostId s.log)
    (hclean : s.posts times status = true → Apart hostId s.opened s.alerts status) :
    deskOf hostId s.opened (s.alertsAfter times (.agentStatus status)) =
      ((viewOf hostId s).applyStatus times status).desk := by
  have hack := @OwnLog.ackFor_congr times _ _ _ (hcached status.paneId) status.status status.at
  have hposts : (ackFor times (stored s.log.store hostId) status.paneId status.status
      status.at).isNone = s.posts times status := by
    rw [← hack]
    rfl
  show deskOf hostId s.opened (if s.posts times status = true then
      s.alerts.postAgentStatusNotification status else s.alerts) =
    if (ackFor times (stored s.log.store hostId) status.paneId status.status
        status.at).isNone = true then (deskOf hostId s.opened s.alerts).post status
    else deskOf hostId s.opened s.alerts
  rw [hposts]
  by_cases hnew : s.posts times status = true
  · rw [if_pos hnew, if_pos hnew]
    exact OwnAlerts.desk_post h.armed h.opened hhost (hclean hnew)
  · rw [if_neg hnew, if_neg hnew]

theorem desk_apply_other {arrival : Arrival} (h : Inv hostId s) (hhost : arrival.hostId ≠ hostId) :
    deskOf hostId s.opened (s.alertsAfter times arrival) = deskOf hostId s.opened s.alerts := by
  cases arrival with
  | treeSnapshot host agents => rfl
  | agentStatus status =>
    simp only [Services.alertsAfter]
    split
    · exact OwnAlerts.desk_post_other h.armed hhost
    · rfl

theorem viewed_apply {arrival : Arrival} (h : Inv hostId s)
    (hclean : Clean times hostId s (.apply arrival)) (hs : step times s (.apply arrival) = some t) :
    Viewed times hostId s (.apply arrival) t := by
  obtain ⟨queue, arrivals, hloading, hqueue, hacks, harrivals, rfl⟩ := apply_eq h hs
  have hlog := @OwnCache.inv_apply times _ _ h.log _ _ hloading hqueue
  have hplain : Plain arrival.message.hostId := h.log.queue _ (hqueue ▸ List.mem_cons_self)
  have hsound : Sound { s.log with queue := queue, loading := .idle } :=
    ⟨h.log.sound.keyed, h.log.sound.rows, h.log.sound.saves⟩
  have harmed : Armed (s.alertsAfter times arrival) := by
    cases arrival with
    | agentStatus status =>
      simp only [Services.alertsAfter]
      split
      · exact OwnAlerts.armed_post h.armed
      · exact h.armed
    | treeSnapshot host agents => exact h.armed
  have hopened : Opened s.opened (s.alertsAfter times arrival) := by
    cases arrival with
    | agentStatus status =>
      simp only [Services.alertsAfter]
      split
      · exact OwnAlerts.opened_post h.opened
      · exact h.opened
    | treeSnapshot host agents => exact h.opened
  have hinv : Inv hostId { s with
      log := State.onMessage times { s.log with queue := queue, loading := .idle } arrival.message
      alerts := s.alertsAfter times arrival
      arrivals := arrivals } := by
    refine ⟨hlog, ?_, harmed, hopened⟩
    rw [(OwnCache.keeps_message _ arrival.message).queue]
    exact harrivals
  by_cases hhost : arrival.hostId = hostId
  · have hconcerns : concerns hostId (.apply arrival) = true := decide_eq_true hhost
    have hcached : OwnLog.Cached hostId s.log := by
      refine (h.log.cache ?_).whole (.inr hloading)
      rw [hacks, hhost]
    have hbook := @OwnLog.book_message times _ _ _ hsound hplain hhost hcached
    refine viewed_seen hconcerns hinv ?_
    cases arrival with
    | treeSnapshot host agents => exact congrArg₂ View.mk hbook rfl
    | agentStatus status =>
      exact congrArg₂ View.mk hbook (desk_apply h hhost hcached (hclean hhost))
  · have hconcerns : concerns hostId (.apply arrival) = false := decide_eq_false hhost
    exact viewed_hidden hconcerns hinv (OwnLog.book_message_other hsound hplain hhost)
      (desk_apply_other h hhost)

/-- A call for the connected computer, of which only its rows and saves take notice. -/
theorem viewed_called {e : Event} {host : Text} {call : AgentStatus.Event} {log : State}
    {book : Book} (h : Inv hostId s) (hconcerns : concerns hostId e = decide (host = hostId))
    (hcall : AgentStatus.step times s.log call = some log) (hkeeps : Keeps s.log log)
    (hsound : Sound log) (hown : s.log.currentHostId = hostId → bookOf hostId log = book)
    (hother : s.log.currentHostId ≠ hostId → bookOf hostId log = bookOf hostId s.log)
    (hact : (viewOf hostId s).act times hostId e = { viewOf hostId s with book := book })
    (hs : s.called times host call = some t) : Viewed times hostId s e t := by
  obtain ⟨hcurrent, log', hlog', rfl⟩ := called_eq hs
  cases hcall.symm.trans hlog'
  have hinv := inv_keeps h hkeeps hsound
  by_cases hhost : host = hostId
  · refine viewed_seen (hconcerns.trans (decide_eq_true hhost)) hinv ?_
    rw [hact]
    exact congrArg₂ View.mk (hown (hcurrent.symm.trans hhost)) rfl
  · refine viewed_hidden (hconcerns.trans (decide_eq_false hhost)) hinv ?_ rfl
    exact hother fun hsame => hhost (hcurrent.trans hsame)

theorem viewed_markSeen {host paneId : Text} (h : Inv hostId s)
    (hs : step times s (.markSeen host paneId) = some t) :
    Viewed times hostId s (.markSeen host paneId) t :=
  viewed_called h rfl rfl (OwnCache.keeps_markSeen _ paneId)
    (OwnLog.sound_markSeen h.log.sound h.log.current paneId)
    (fun hhost => OwnLog.book_markSeen h.log.sound h.log.current hhost paneId)
    (fun hhost => OwnLog.book_markSeen_other h.log.sound h.log.current hhost paneId) rfl hs

theorem viewed_remove {host paneId : Text} (h : Inv hostId s)
    (hs : step times s (.remove host paneId) = some t) :
    Viewed times hostId s (.remove host paneId) t :=
  viewed_called h rfl rfl (OwnCache.keeps_remove _ paneId)
    (OwnLog.sound_remove h.log.sound h.log.current paneId)
    (fun hhost => OwnLog.book_remove h.log.sound h.log.current hhost paneId)
    (fun hhost => OwnLog.book_remove_other h.log.sound h.log.current hhost paneId) rfl hs

theorem viewed_markAllSeen {host : Text} (h : Inv hostId s)
    (hs : step times s (.markAllSeen host) = some t) :
    Viewed times hostId s (.markAllSeen host) t :=
  viewed_called h rfl rfl (OwnCache.keeps_transitionAll _ false)
    (OwnLog.sound_transitionAll h.log.sound h.log.current false)
    (fun hhost => OwnLog.book_transitionAll h.log.sound hhost false)
    (fun hhost => OwnLog.book_transitionAll_other h.log.sound hhost false) rfl hs

theorem viewed_removeAll {host : Text} (h : Inv hostId s)
    (hs : step times s (.removeAll host) = some t) :
    Viewed times hostId s (.removeAll host) t :=
  viewed_called h rfl rfl (OwnCache.keeps_transitionAll _ true)
    (OwnLog.sound_transitionAll h.log.sound h.log.current true)
    (fun hhost => OwnLog.book_transitionAll h.log.sound hhost true)
    (fun hhost => OwnLog.book_transitionAll_other h.log.sound hhost true) rfl hs

/-- A pane is opened: the alerts note it, and the row is marked. -/
theorem viewed_notePaneOpened {host paneId : Text} (h : Inv hostId s)
    (hs : step times s (.notePaneOpened host paneId) = some t) :
    Viewed times hostId s (.notePaneOpened host paneId) t := by
  obtain ⟨hcurrent, log, hlog, rfl⟩ := called_eq hs
  cases hlog
  have hopened : Opened ((host, paneId) :: s.opened) (s.alerts.notePaneOpened paneId) := by
    intro pane hpane
    obtain rfl | hold := List.mem_cons.mp hpane
    · exact List.mem_insert_self
    · exact List.mem_insert_of_mem (h.opened pane hold)
  have hkeeps := OwnCache.keeps_markSeen s.log paneId
  have hsound := OwnLog.sound_markSeen h.log.sound h.log.current paneId
  have hinv : Inv hostId { s with
      log := s.log.markSeen paneId
      alerts := s.alerts.notePaneOpened paneId
      opened := (host, paneId) :: s.opened } := by
    have hlog := inv_keeps h hkeeps hsound
    exact ⟨hlog.log, hlog.arrivals, h.armed, hopened⟩
  by_cases hhost : host = hostId
  · refine viewed_seen (decide_eq_true hhost) hinv ?_
    have hbook := OwnLog.book_markSeen h.log.sound h.log.current (hcurrent.symm.trans hhost) paneId
    refine congrArg₂ View.mk hbook ?_
    unfold deskOf
    rw [OwnAlerts.ownPanes_cons hhost]
    rfl
  · refine viewed_hidden (decide_eq_false hhost) hinv ?_ ?_
    · exact OwnLog.book_markSeen_other h.log.sound h.log.current
        (fun hsame => hhost (hcurrent.trans hsame)) paneId
    · unfold deskOf
      rw [OwnAlerts.ownPanes_cons_other hhost]
      rfl

theorem viewed_saved {host : Text} {ok : Bool} (h : Inv hostId s)
    (hs : step times s (.saved host ok) = some t) : Viewed times hostId s (.saved host ok) t := by
  have hs : s.saved times host ok = some t := hs
  unfold Services.saved at hs
  split at hs
  · next save rest hsaves =>
    split at hs
    · next hhost =>
      obtain ⟨log, hlog, rfl⟩ := logs_eq hs
      have hafter : log = if ok then (returned s.log rest).acknowledge save
          else returned s.log rest := by
        simp only [AgentStatus.step, hsaves, Option.some.injEq] at hlog
        exact hlog.symm
      subst hafter
      have harrivals : s.arrivals.map Arrival.message =
          (if ok then (returned s.log rest).acknowledge save
            else returned s.log rest).queue.filter Message.taken := by
        rw [OwnCache.saved_queue]
        exact h.arrivals
      have hinv : Inv hostId { s with
          log := if ok then (returned s.log rest).acknowledge save else returned s.log rest
          alerts := if ok && save.removed then
              s.alerts.cancelAgentStatusNotification save.item.hostId save.item.paneId
            else s.alerts } := by
        refine ⟨OwnCache.inv_saved h.log hsaves ok, harrivals, ?_, ?_⟩
        · dsimp only
          split
          · exact OwnAlerts.armed_cancel h.armed _ _
          · exact h.armed
        · dsimp only
          split
          · exact h.opened
          · exact h.opened
      by_cases hown : host = hostId
      · have hsave : save.item.hostId = hostId := hhost.trans hown
        refine viewed_seen (decide_eq_true hown) hinv ?_
        refine congrArg₂ View.mk (OwnLog.book_saved h.log.sound hsaves hsave ok) ?_
        show deskOf hostId s.opened (if ok && save.removed then _ else _) =
          ((viewOf hostId s).saved ok).desk
        unfold View.saved viewOf
        rw [OwnLog.saves_cons hsaves hsave, hsave]
        dsimp only [OwnLog.pendingOf]
        split
        · exact OwnAlerts.desk_cancel s.alerts save.item.paneId
        · rfl
      · have hsave : save.item.hostId ≠ hostId := fun hsame => hown (hhost.symm.trans hsame)
        refine viewed_hidden (decide_eq_false hown) hinv
          (OwnLog.book_saved_other h.log.sound hsaves hsave ok) ?_
        dsimp only
        split
        · exact OwnAlerts.desk_cancel_other hsave save.item.paneId
        · rfl
    · cases hs
  · cases hs

theorem viewed_step {e : Event} (h : Inv hostId s) (hclean : Clean times hostId s e)
    (hs : step times s e = some t) : Viewed times hostId s e t := by
  cases e with
  | arrive arrival => exact viewed_arrive h hclean hs
  | begin => exact viewed_begin h hs
  | read => exact viewed_read h hs
  | loaded ok => exact viewed_loaded h hclean hs
  | apply arrival => exact viewed_apply h hclean hs
  | markSeen host paneId => exact viewed_markSeen h hs
  | notePaneOpened host paneId => exact viewed_notePaneOpened h hs
  | markAllSeen host => exact viewed_markAllSeen h hs
  | remove host paneId => exact viewed_remove h hs
  | removeAll host => exact viewed_removeAll h hs
  | saved host ok => exact viewed_saved h hs
  | switchTo host => exact viewed_switchTo h hclean hs
  | saveSettings settings =>
    cases hs
    exact viewed_seen rfl ⟨h.log, h.arrivals, h.armed, h.opened⟩ rfl
  | advance duration =>
    cases hs
    refine viewed_seen rfl ⟨h.log, h.arrivals, OwnAlerts.armed_advance h.armed duration,
      OwnAlerts.opened_advance h.opened duration⟩ ?_
    exact congrArg (View.mk _) (OwnAlerts.desk_advance h.armed duration)

end Steps

theorem inv_start (hostId : Text) (zone : TimeZone) (now : Nat) (store : List NotificationAck) :
    Inv hostId (.start zone now store) where
  log := {
    sound := ⟨List.nodup_nil, fun _ _ hrow => absurd hrow List.not_mem_nil,
      fun _ hsave => absurd hsave List.not_mem_nil⟩
    current := List.not_mem_nil
    queue := fun _ hmessage => absurd hmessage List.not_mem_nil
    head := fun hloading => absurd rfl hloading
    cache := fun hacks => absurd hacks.symm (Option.some_ne_none hostId) }
  arrivals := rfl
  armed hheld := absurd rfl hheld
  opened _ hpane := absurd hpane List.not_mem_nil

/-- What a call of the computer alone is for the notification of a pane. -/
def ownSight (paneId : Text) (call : Nat × OwnCall) : Option (Nat × Sight) :=
  match call with
  | («at», .shown alerts) => some («at», .shown alerts)
  | («at», .withdrawn pane) => if pane = paneId then some («at», .withdrawn) else none

section Runs

variable {ι : Type} [DecidableEq ι] {idFor : Text → Text → ι} {times : Times} {hostId : Text}

theorem sight_eq (hid : ∀ h p h' p', idFor h p = idFor h' p' → h = h' ∧ p = p') (paneId : Text)
    (call : Nat × Call) :
    sight idFor hostId paneId call = (callOf hostId call).bind (ownSight paneId) := by
  have hshown : ∀ alerts : List AgentStatus,
      (if ofHost hostId alerts = [] then none
        else some (call.1, Sight.shown (ofHost hostId alerts))) =
      (if ofHost hostId alerts = [] then none
        else some (call.1, OwnCall.shown (ofHost hostId alerts))).bind (ownSight paneId) := by
    intro alerts
    split
    · rfl
    · rfl
  obtain ⟨«at», call⟩ := call
  cases call with
  | alert status => exact hshown [status]
  | summary held content => exact hshown held
  | cancel host pane =>
    show (if idFor host pane = idFor hostId paneId then some («at», Sight.withdrawn) else none) =
      (if host = hostId then some («at», OwnCall.withdrawn pane) else none).bind (ownSight paneId)
    by_cases hhost : host = hostId
    · rw [if_pos hhost, hhost]
      by_cases hpane : pane = paneId
      · rw [hpane, if_pos rfl]
        exact (if_pos rfl).symm
      · rw [if_neg fun hsame => hpane (hid _ _ _ _ hsame).2]
        exact (if_neg hpane).symm
    · rw [if_neg hhost, if_neg fun hsame => hhost (hid _ _ _ _ hsame).1]
      rfl

theorem sights_eq (hid : ∀ h p h' p', idFor h p = idFor h' p' → h = h' ∧ p = p') (paneId : Text)
    (s : Services) :
    sights idFor hostId paneId s = (viewOf hostId s).desk.calls.filterMap (ownSight paneId) := by
  show s.alerts.calls.filterMap (sight idFor hostId paneId) =
    (s.alerts.calls.filterMap (callOf hostId)).filterMap (ownSight paneId)
  rw [List.filterMap_filterMap]
  exact congrArg (List.filterMap · s.alerts.calls) (funext fun call => sight_eq hid paneId call)

theorem same_of_view (hid : ∀ h p h' p', idFor h p = idFor h' p' → h = h' ∧ p = p')
    {s s' : Services} (h : viewOf hostId s = viewOf hostId s') : Same idFor hostId s s' where
  accepted := congrArg (fun v => v.desk.accepted) h
  held := congrArg (fun v => v.desk.held) h
  withdrawn := congrArg (fun v => v.desk.withdrawn) h
  sights paneId := by
    rw [sights_eq hid, sights_eq hid, h]

theorem sees_run {zone : TimeZone} {now : Nat} {store : List NotificationAck} {es : List Event}
    (hclean : ∀ s e t, Occurs (step times) (.start zone now store) es s e t → Clean times hostId s e) :
    Lib.Observed.Sees (step times) (.start zone now store) es (Inv hostId) (viewOf hostId)
      (concerns hostId) fun v e => v.act times hostId e :=
  fun s e t hinv ho => viewed_step hinv (hclean s e t ho) ho.step_eq

end Runs

/-- The alerts of a computer are the same in two runs that differ in what concerns others. -/
theorem alert_isolation {ι : Type} [DecidableEq ι] (idFor : Text → Text → ι)
    (hid : ∀ h p h' p', idFor h p = idFor h' p' → h = h' ∧ p = p') (times : Times)
    (hostId : Text) (zone : TimeZone) (now : Nat) (store store' : List NotificationAck)
    (hstore : ∀ p, stored store hostId p = stored store' hostId p) (es es' : List Event)
    (hsame : es.filter (concerns hostId) = es'.filter (concerns hostId))
    (hclean : ∀ s e t, Occurs (step times) (.start zone now store) es s e t → Clean times hostId s e)
    (hclean' : ∀ s e t, Occurs (step times) (.start zone now store') es' s e t →
      Clean times hostId s e) :
    Law idFor times hostId zone now store store' es es' := by
  intro s s' hr hr'
  have hstart : viewOf hostId (.start zone now store) = viewOf hostId (.start zone now store') := by
    have hfun : stored store hostId = stored store' hostId := funext hstore
    exact congrArg (fun store => (⟨⟨[], store, []⟩, deskOf hostId [] { zone, now }⟩ : View)) hfun
  exact same_of_view hid (Lib.Observed.view_eq (sees_run hclean) (sees_run hclean')
    (inv_start hostId zone now store) (inv_start hostId zone now store') hstart hsame hr hr')

def here : Text := "a".toList

def there : Text := "b".toList

def blocked (hostId : Text) : AgentStatus where
  hostId := hostId
  paneId := "w1:p1".toList
  status := .blocked
  «at» := some "1".toList
  workspaceId := []
  tabId := []
  tabTitle := []
  paneTitle := []
  agentKind := []

/-- A message that comes in and is applied. -/
def received (hostId : Text) : List Event :=
  [.arrive (.agentStatus (blocked hostId)), .begin, .read, .loaded true,
    .apply (.agentStatus (blocked hostId))]

/-- The same pane of another computer is held as well, and opened. -/
def shared : List Event :=
  [.saveSettings { quietHoursEnabled := true }, .switchTo there,
    .notePaneOpened there "w1:p1".toList] ++ received there ++ [.switchTo here] ++
    received here ++ [.advance Notifications.day]

def alone : List Event :=
  [.saveSettings { quietHoursEnabled := true }, .switchTo here] ++ received here ++
    [.advance Notifications.day]

theorem alert_isolation_shared :
    (∃ s s', run (step AckRuns.plainTimes) (.start .even 0 []) shared = some s ∧
      run (step AckRuns.plainTimes) (.start .even 0 []) alone = some s' ∧
      s.alerts.calls ≠ s'.alerts.calls) ∧
    Law Prod.mk AckRuns.plainTimes here .even 0 [] [] shared alone := by
  have hshared : everyStep (step AckRuns.plainTimes)
      (fun s e => decide (Clean AckRuns.plainTimes here s e)) (.start .even 0 []) shared = true := by
    decide
  have halone : everyStep (step AckRuns.plainTimes)
      (fun s e => decide (Clean AckRuns.plainTimes here s e)) (.start .even 0 []) alone = true := by
    decide
  have hruns : ((run (step AckRuns.plainTimes) (.start .even 0 []) shared).any fun s =>
      (run (step AckRuns.plainTimes) (.start .even 0 []) alone).any fun s' =>
        decide (s.alerts.calls ≠ s'.alerts.calls)) = true := by decide
  refine ⟨?_, alert_isolation Prod.mk (fun _ _ _ _ hsame => Prod.mk.inj hsame)
    AckRuns.plainTimes here .even 0 [] [] (fun _ => rfl) shared alone (by decide) ?_ ?_⟩
  · obtain ⟨s, hs, hrest⟩ := (Option.any_eq_true _ _).mp hruns
    obtain ⟨s', hs', hne⟩ := (Option.any_eq_true _ _).mp hrest
    exact ⟨s, s', hs, hs', of_decide_eq_true hne⟩
  · intro s e t ho
    have hgood := occurs_good hshared ho
    exact of_decide_eq_true hgood
  · intro s e t ho
    have hgood := occurs_good halone ho
    exact of_decide_eq_true hgood

/-- A pane of another computer has been opened. -/
def openedThere : List Event :=
  [.saveSettings { audienceOpenedOnly := true }, .switchTo there,
    .notePaneOpened there "w1:p1".toList, .switchTo here] ++ received here

def openedNowhere : List Event :=
  [.saveSettings { audienceOpenedOnly := true }, .switchTo here] ++ received here

theorem alert_isolation_break :
    ¬∀ times hostId zone now store es es',
      es.filter (concerns hostId) = es'.filter (concerns hostId) →
        Law Prod.mk times hostId zone now store store es es' := by
  intro hall
  have hruns : ((run (step AckRuns.plainTimes) (.start .even 0 []) openedThere).any fun s =>
      (run (step AckRuns.plainTimes) (.start .even 0 []) openedNowhere).any fun s' =>
        decide (ofHost here s.alerts.accepted ≠ ofHost here s'.alerts.accepted)) = true := by
    decide
  obtain ⟨s, hs, hrest⟩ := (Option.any_eq_true _ _).mp hruns
  obtain ⟨s', hs', hne⟩ := (Option.any_eq_true _ _).mp hrest
  refine of_decide_eq_true hne ?_
  have hsame : openedThere.filter (concerns here) = openedNowhere.filter (concerns here) := by
    decide
  exact (hall AckRuns.plainTimes here .even 0 [] _ _ hsame s s' hs hs').accepted

end HerdrMobile.App.AlertIsolation
