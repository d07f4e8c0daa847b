import HerdrMobile.App.AckRuns
import HerdrMobile.App.Notifications

/-!
# The log and the alerts together

`AgentStatusService` over `NotificationsService`: what the messages, the openings of panes and the
removals do to the log and to the alerts. A step is one of the log or one of the alerts, with what
the log asks of the alerts. A relaunch loses everything but the store, so a run is the life of one
process.
-/
namespace HerdrMobile.App.Alerts

open HerdrMobile.Lib.Strings
open HerdrMobile.App.AgentStatus (AgentSummary Message Times ackFor)
open HerdrMobile.App.Notifications (NotificationSettings TimeZone AgentStatus)
open HerdrMobile.App.PlainStore (NotificationAck)

set_option autoImplicit false

/-- A message with all its texts. -/
inductive Arrival where
  | agentStatus (status : AgentStatus)
  | treeSnapshot (hostId : Text) (agents : List AgentSummary)
deriving DecidableEq

namespace Arrival

def message : Arrival → Message
  | .agentStatus status => .agentStatus status.toAttentionItem
  | .treeSnapshot hostId agents => .treeSnapshot hostId agents

def hostId (arrival : Arrival) : Text := arrival.message.hostId

end Arrival

/-- `arrivals` are the messages of the queue that will be applied. `opened` records the panes that
were opened with their computers, and no step reads it. -/
structure Services where
  log : AgentStatus.State
  alerts : Notifications.State
  arrivals : List Arrival := []
  opened : List (Text × Text) := []

/-- A call of the person is about the computer that is connected. -/
inductive Event where
  | arrive (arrival : Arrival)
  | begin
  | read
  | loaded (ok : Bool)
  | apply (arrival : Arrival)
  | markSeen (hostId paneId : Text)
  | notePaneOpened (hostId paneId : Text)
  | markAllSeen (hostId : Text)
  | remove (hostId paneId : Text)
  | removeAll (hostId : Text)
  | saved (hostId : Text) (ok : Bool)
  | switchTo (hostId : Text)
  | saveSettings (settings : NotificationSettings)
  | advance (duration : Nat)
deriving DecidableEq

namespace Services

variable (times : Times) (s : Services)

def start (zone : TimeZone) (now : Nat) (store : List NotificationAck) : Services where
  log := { store := store }
  alerts := { zone, now }

/-- A step of the log. -/
def logs (e : AgentStatus.Event) : Option Services :=
  (AgentStatus.step times s.log e).map fun log => { s with log := log }

/-- A call for the connected computer. -/
def called (hostId : Text) (e : AgentStatus.Event) : Option Services :=
  if hostId = s.log.currentHostId then s.logs times e else none

/-- A live change without an acknowledgement is posted. -/
def posts (status : AgentStatus) : Bool :=
  (ackFor times s.log.acks status.paneId status.status status.at).isNone

def alertsAfter (arrival : Arrival) : Notifications.State :=
  match arrival with
  | .agentStatus status =>
    if s.posts times status then s.alerts.postAgentStatusNotification status else s.alerts
  | .treeSnapshot _ _ => s.alerts

/-- The message at the head of the queue. -/
def apply (arrival : Arrival) : Option Services :=
  match s.arrivals with
  | first :: rest =>
    if first = arrival then
      ({ s with arrivals := rest, alerts := s.alertsAfter times arrival } : Services).logs times
        .apply
    else none
  | [] => none

/-- The save at the head of the queue has returned; a stored removal withdraws the alert. -/
def saved (hostId : Text) (ok : Bool) : Option Services :=
  match s.log.saves with
  | save :: _ =>
    if save.item.hostId = hostId then
      let alerts :=
        if ok && save.removed then
          s.alerts.cancelAgentStatusNotification save.item.hostId save.item.paneId
        else s.alerts
      ({ s with alerts := alerts } : Services).logs times (.saved ok)
    else none
  | [] => none

end Services

def step (times : Times) (s : Services) : Event → Option Services
  | .arrive arrival =>
    let arrivals := if arrival.message.taken then s.arrivals ++ [arrival] else s.arrivals
    ({ s with arrivals := arrivals } : Services).logs times (.arrive arrival.message)
  | .begin => s.logs times .begin
  | .read => s.logs times .read
  | .loaded ok => s.logs times (.loaded ok)
  | .apply arrival => s.apply times arrival
  | .markSeen hostId paneId => s.called times hostId (.markSeen paneId)
  | .notePaneOpened hostId paneId =>
    ({ s with
      alerts := s.alerts.notePaneOpened paneId
      opened := (hostId, paneId) :: s.opened } : Services).called times hostId (.markSeen paneId)
  | .markAllSeen hostId => s.called times hostId .markAllSeen
  | .remove hostId paneId => s.called times hostId (.remove paneId)
  | .removeAll hostId => s.called times hostId .removeAll
  | .saved hostId ok => s.saved times hostId ok
  | .switchTo hostId => s.logs times (.switchTo hostId)
  | .saveSettings settings => some { s with alerts := s.alerts.saveSettings settings }
  | .advance duration => some { s with alerts := s.alerts.advance duration }

end HerdrMobile.App.Alerts
