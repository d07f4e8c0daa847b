import HerdrMobile.Proto.Messages

/-!
# The messages of the tree

Workspaces, tabs and panes as `tree_snapshot`, `tree_update` and `agent_status` carry
them. The lists of a snapshot are maps by id: the order of the rows is not modelled. The
group of a workspace, which only a snapshot has, and the agents of a snapshot are left
out.
-/
namespace HerdrMobile.Proto.Tree

open HerdrMobile.Proto.Messages

set_option autoImplicit false

inductive TreeEvent where
  | workspaceCreated
  | workspaceUpdated
  | workspaceRenamed
  | workspaceClosed
  | tabCreated
  | tabClosed
  | tabRenamed
  | tabFocused
  | paneCreated
  | paneClosed
  | paneUpdated
  | paneFocused
  | paneAgentStatusChanged
  | layoutUpdated
  deriving DecidableEq

structure WorkspaceSummary where
  workspaceId : Text
  name : Text
  focused : Bool
  repoName : Option Text
  isLinkedWorktree : Bool
  deriving DecidableEq

structure TabSummary where
  tabId : Text
  workspaceId : Text
  title : Text
  focused : Bool
  deriving DecidableEq

structure PaneSummary where
  paneId : PaneId
  workspaceId : Text
  tabId : Text
  terminalId : Text
  label : Text
  title : Text
  cwd : Text
  focused : Bool
  agent : Option Text
  agentStatus : Text
  revision : Nat
  viewportRows : Nat
  deriving DecidableEq

@[ext] structure TreeSnapshot where
  workspaces : Text → Option WorkspaceSummary
  tabs : Text → Option TabSummary
  panes : PaneId → Option PaneSummary

structure TreeUpdate where
  event : TreeEvent
  pane : Option PaneSummary
  workspace : Option WorkspaceSummary
  tab : Option TabSummary
  deriving DecidableEq

inductive AgentStatusKind where
  | idle
  | working
  | blocked
  | done
  | unknown
  deriving DecidableEq

structure AgentStatus where
  paneId : PaneId
  workspaceId : Text
  tabId : Text
  tabTitle : Text
  paneTitle : Text
  agentKind : Text
  status : AgentStatusKind
  deriving DecidableEq

/-- The messages that keep the tree and the statuses of a Device, and the frame of a
resynchronisation; `error` is the one of an attempt to subscribe that failed. -/
inductive Message where
  | treeSnapshot (tree : TreeSnapshot)
  | treeUpdate (update : TreeUpdate)
  | agentStatus (status : AgentStatus)
  | paneFrame (frame : PaneFrame)
  | error

end HerdrMobile.Proto.Tree
