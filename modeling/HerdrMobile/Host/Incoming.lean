import HerdrMobile.App.Tree
import HerdrMobile.Host.HeldRuns

/-!
# One line of the subscription

What the bridge tells the Device of a push, beside what the push does to the watched
pane and to a held submit. The tree and the agents are Herdr's at that moment; whether a
snapshot of them can be fetched is up to the calls.
-/
namespace HerdrMobile.Host.Incoming

open HerdrMobile.Proto.Messages HerdrMobile.Proto.Tree HerdrMobile.App.Tree
open HerdrMobile.Host.Herdr HerdrMobile.Host.Scheduler

set_option autoImplicit false

/-- Herdr's own state. -/
structure World where
  tree : TreeSnapshot
  agents : List RawAgent

def World.working (w : World) (paneId : PaneId) : Bool :=
  w.agents.any fun agent => agent.paneId == paneId && agent.agentStatus == "working".toList

/-- A push: its object, or the fields of a flat one. -/
structure Push where
  event : TreeEvent
  pane : Option PaneSummary := none
  workspace : Option WorkspaceSummary := none
  tab : Option TabSummary := none
  paneId : Option PaneId := none
  agentStatus : Option Text := none
  agent : Option Text := none
  deriving DecidableEq

inductive SubscriptionAction where
  | none
  | resubscribe
  deriving DecidableEq

def paneIdOf (push : Push) : Option PaneId := (push.pane.map PaneSummary.paneId).or push.paneId

def Push.update (push : Push) : TreeUpdate := ⟨push.event, push.pane, push.workspace, push.tab⟩

/-- What a push is to the watched pane or to a held submit. -/
def Push.forBridge (push : Push) : Option Watch.Push :=
  match push.event, paneIdOf push with
  | .paneAgentStatusChanged, some paneId => some (.paneAgentStatusChanged paneId push.agentStatus)
  | .paneUpdated, some paneId =>
    some (.paneUpdated paneId (push.pane.map PaneSummary.revision)
      (push.pane.map PaneSummary.viewportRows))
  | .paneClosed, some paneId => some (.paneClosed paneId)
  | _, _ => none

def agentStatusKindOf (raw : Text) : Option AgentStatusKind :=
  if raw = "idle".toList then some .idle
  else if raw = "working".toList then some .working
  else if raw = "blocked".toList then some .blocked
  else if raw = "done".toList then some .done
  else if raw = "unknown".toList then some .unknown
  else none

/-- R-11-059: the settle window of an agent's statuses. -/
def agentStatusSettle : Nat := 30 * second

def settleAgentStatus (paneId : PaneId) (now : Nat) (settled : PaneId → Option Nat) :
    Bool × (PaneId → Option Nat) :=
  let due := (settled paneId).all fun last => agentStatusSettle ≤ now - last
  (due, if due then Function.update settled paneId (some now) else settled)

def fetchTree (herdr : HerdrCalls) (w : World) (log : Log) : Option TreeSnapshot × Log :=
  match herdr.fetchSnapshot log with
  | (.ok _, log) => (some w.tree, log)
  | (.error _, log) => (none, log)

/-- The notification of a pane's agent, unless the pane is gone. -/
def agentStatusOf (push : Push) (status : AgentStatusKind) (paneId : PaneId) (tree : TreeSnapshot) :
    Option AgentStatus :=
  (tree.panes paneId).map fun pane =>
    { paneId := paneId
      workspaceId := pane.workspaceId
      tabId := pane.tabId
      tabTitle := ((tree.tabs pane.tabId).map TabSummary.title).getD []
      paneTitle := pane.title
      agentKind := (push.agent.or pane.agent).getD []
      status := status }

/-- The status that a push tells the Device of: only `blocked` and `done`. -/
def notable (push : Push) : Option (PaneId × AgentStatusKind) :=
  match push.event, paneIdOf push, push.agentStatus.bind agentStatusKindOf with
  | .paneAgentStatusChanged, some paneId, some .blocked => some (paneId, .blocked)
  | .paneAgentStatusChanged, some paneId, some .done => some (paneId, .done)
  | _, _, _ => none

/-- R-11-057, R-11-059: the notification, the settled panes and the calls. -/
def notify (herdr : HerdrCalls) (w : World) (now : Nat) (push : Push)
    (settled : PaneId → Option Nat) (log : Log) :
    Option AgentStatus × (PaneId → Option Nat) × Log :=
  match notable push with
  | none => (none, settled, log)
  | some (paneId, status) =>
    match settleAgentStatus paneId now settled with
    | (false, settled) => (none, settled, log)
    | (true, settled) =>
      let (tree, log) := fetchTree herdr w log
      (tree.bind (agentStatusOf push status paneId), settled, log)

/-- R-11-046: the events that a fresh snapshot follows. -/
def followed : TreeEvent → Bool
  | .workspaceCreated | .workspaceUpdated | .workspaceRenamed | .workspaceClosed | .tabClosed
  | .paneClosed | .paneAgentStatusChanged | .paneFocused => true
  | _ => false

def follow (herdr : HerdrCalls) (w : World) (push : Push) (log : Log) : Option TreeSnapshot × Log :=
  if followed push.event then fetchTree herdr w log else (none, log)

def actionOf (push : Push) : SubscriptionAction :=
  if push.event = .paneCreated then .resubscribe else .none

/-- The messages of a push, in the order they are sent. -/
def messagesOf (push : Push) (notice : Option AgentStatus) (tree : Option TreeSnapshot) :
    List Message :=
  (notice.map Message.agentStatus).toList ++ [.treeUpdate push.update] ++
    (tree.map Message.treeSnapshot).toList

/-- The panes with an agent-status entry in the `events.subscribe` request: every pane of
a fresh snapshot, or none when there is no snapshot. -/
def currentSubscriptionEntries (herdr : HerdrCalls) (w : World) (log : Log) : (PaneId → Bool) × Log :=
  match fetchTree herdr w log with
  | (some tree, log) => (fun paneId => (tree.panes paneId).isSome, log)
  | (none, log) => (fun _ => false, log)

end HerdrMobile.Host.Incoming
