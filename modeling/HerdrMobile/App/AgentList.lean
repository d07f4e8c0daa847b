import Mathlib.Data.List.Sort
import HerdrMobile.App.TreeLists
import HerdrMobile.Lib.Strings

/-!
# The agent list of a Device

`AgentListService` keeps the tree in three maps and a table of the tabs of each workspace, and
builds the spaces of its view from them. The axis and the collapsed spaces, which only present
rows, are not modelled, and the search text matches by a given rule.
-/
namespace HerdrMobile.App.AgentList

open HerdrMobile.Lib.Ordered HerdrMobile.Proto.Messages HerdrMobile.Proto.Tree
open HerdrMobile.App.TreeLists

set_option autoImplicit false

/-- What the list reads of an item of the attention log. -/
structure AttentionItem where
  paneId : PaneId
  «at» : Option Text
  deriving DecidableEq

structure AgentRow where
  paneId : PaneId
  workspaceId : Text
  workspaceName : Text
  tabId : Text
  tabTitle : Text
  paneDisplayName : Text
  title : Text
  agentKind : Text
  status : AgentStatusKind
  «at» : Option Text
  needsAttention : Bool
  deriving DecidableEq

structure ShellRow where
  paneId : PaneId
  workspaceId : Text
  workspaceName : Text
  tabId : Text
  paneDisplayName : Text
  title : Text
  deriving DecidableEq

inductive PaneRow where
  | agent (row : AgentRow)
  | shell (row : ShellRow)
  deriving DecidableEq

namespace PaneRow

def paneId : PaneRow → PaneId
  | .agent row => row.paneId
  | .shell row => row.paneId

def workspaceId : PaneRow → Text
  | .agent row => row.workspaceId
  | .shell row => row.workspaceId

def tabId : PaneRow → Text
  | .agent row => row.tabId
  | .shell row => row.tabId

def paneDisplayName : PaneRow → Text
  | .agent row => row.paneDisplayName
  | .shell row => row.paneDisplayName

def title : PaneRow → Text
  | .agent row => row.title
  | .shell row => row.title

def needsAttention : PaneRow → Bool
  | .agent row => row.needsAttention
  | .shell _ => false

end PaneRow

structure TabGroup where
  tabId : Text
  title : Text
  rows : List PaneRow
  deriving DecidableEq

structure WorktreeGroup where
  workspaceId : Text
  name : Text
  tabs : List TabGroup
  deriving DecidableEq

structure SpaceGroup where
  key : Text
  name : Text
  worktrees : List WorktreeGroup
  deriving DecidableEq

structure AgentListView where
  spaces : List SpaceGroup
  pinnedRows : List PaneRow
  workspaceCount : Nat
  attentionCount : Nat
  deriving DecidableEq

structure AgentListService where
  workspaces : List Workspace
  tabs : List TabSummary
  tabOrder : Text → Option (List Text)
  panes : List PaneSummary
  statusAt : PaneId → Option Text
  attention : List AttentionItem
  pinned : List PaneId
  search : Text

namespace AgentListService

def start : AgentListService where
  workspaces := []
  tabs := []
  tabOrder := fun _ => none
  panes := []
  statusAt := fun _ => none
  attention := []
  pinned := []
  search := []

/-- `putIfAbsent` of an empty list, and `add`. -/
def addTab (order : Text → Option (List Text)) (tab : TabSummary) : Text → Option (List Text) :=
  Function.update order tab.workspaceId (some ((order tab.workspaceId).getD [] ++ [tab.tabId]))

/-- Pins of panes that are gone go with them. -/
def applySnapshot (snapshot : Snapshot) (s : AgentListService) : AgentListService :=
  let panes := ofList PaneSummary.paneId snapshot.panes
  { s with
    workspaces := ofList idOfWorkspace snapshot.workspaces
    tabs := ofList TabSummary.tabId snapshot.tabs
    tabOrder := snapshot.tabs.foldl addTab fun _ => none
    panes := panes
    statusAt := snapshot.agents.foldl
      (fun statusAt agent => Function.update statusAt agent.paneId agent.statusAt) fun _ => none
    pinned := s.pinned.filter fun id => (get PaneSummary.paneId panes id).isSome }

/-- An update carries no time of the change that it reports. -/
def putPane (pane : PaneSummary) (s : AgentListService) : AgentListService :=
  let changed := (get PaneSummary.paneId s.panes pane.paneId).all fun previous =>
    previous.agentStatus ≠ pane.agentStatus
  { s with
    statusAt := if changed then Function.update s.statusAt pane.paneId none else s.statusAt
    panes := put PaneSummary.paneId s.panes pane }

def applyUpdate (update : Update) (s : AgentListService) : AgentListService :=
  match update.event with
  | .workspaceCreated | .workspaceUpdated | .workspaceRenamed =>
    match update.workspace with
    | none => s
    | some w => { s with workspaces := put idOfWorkspace s.workspaces w }
  | .workspaceClosed =>
    match update.workspace with
    | none => s
    | some w =>
      let tabIds := (s.tabOrder w.workspaceId).getD []
      { s with
        workspaces := remove idOfWorkspace s.workspaces w.workspaceId
        tabOrder := Function.update s.tabOrder w.workspaceId none
        tabs := s.tabs.filter fun tab => tab.tabId ∉ tabIds
        panes := s.panes.filter fun pane => pane.workspaceId ≠ w.workspaceId }
  | .tabCreated | .tabRenamed | .tabFocused =>
    match update.tab with
    | none => s
    | some tab =>
      { s with
        tabOrder :=
          if (get TabSummary.tabId s.tabs tab.tabId).isSome then s.tabOrder
          else addTab s.tabOrder tab
        tabs := put TabSummary.tabId s.tabs tab }
  | .tabClosed =>
    match update.tab with
    | none => s
    | some tab =>
      { s with
        tabs := remove TabSummary.tabId s.tabs tab.tabId
        tabOrder := Function.update s.tabOrder tab.workspaceId
          ((s.tabOrder tab.workspaceId).map fun ids => ids.erase tab.tabId)
        panes := s.panes.filter fun pane => pane.tabId ≠ tab.tabId }
  | .paneCreated | .paneUpdated | .paneFocused | .paneAgentStatusChanged =>
    match update.pane with
    | none => s
    | some pane => s.putPane pane
  | .paneClosed =>
    match update.pane with
    | none => s
    | some pane =>
      { s with
        panes := remove PaneSummary.paneId s.panes pane.paneId
        statusAt := Function.update s.statusAt pane.paneId none }
  | .layoutUpdated => s

/-- The stored pins are a set in the order of insertion. -/
def togglePinned (paneId : PaneId) (s : AgentListService) : AgentListService :=
  { s with
    pinned := if paneId ∈ s.pinned then s.pinned.erase paneId else s.pinned ++ [paneId] }

def statusKindOf (raw : Text) : AgentStatusKind :=
  if raw = "idle".toList then .idle
  else if raw = "working".toList then .working
  else if raw = "blocked".toList then .blocked
  else if raw = "done".toList then .done
  else .unknown

def paneDisplayName (paneId : PaneId) (label : Text) : Text :=
  if !label.isEmpty then label
  else
    let afterColon := (paneId.splitOn ':').getLast?.getD []
    let suffix := if afterColon.head? = some 'p' then afterColon.tail else afterColon
    "pane ".toList ++ suffix

def rowFromPane (s : AgentListService) (pane : PaneSummary) (agentKind : Text)
    (attention : Option AttentionItem) : Option PaneRow :=
  match get TabSummary.tabId s.tabs pane.tabId,
    get idOfWorkspace s.workspaces pane.workspaceId with
  | some tab, some workspace =>
    let status := statusKindOf pane.agentStatus
    let attention := if status ≠ .blocked ∧ status ≠ .done then none else attention
    some (.agent
      { paneId := pane.paneId
        workspaceId := pane.workspaceId
        workspaceName := workspace.name
        tabId := pane.tabId
        tabTitle := tab.title
        paneDisplayName := paneDisplayName pane.paneId pane.label
        title := pane.title
        agentKind := agentKind
        status := status
        «at» := (attention.bind AttentionItem.at).or (s.statusAt pane.paneId)
        needsAttention := attention.isSome })
  | _, _ => none

def shellRow (s : AgentListService) (pane : PaneSummary) : PaneRow :=
  .shell
    { paneId := pane.paneId
      workspaceId := pane.workspaceId
      workspaceName :=
        ((get idOfWorkspace s.workspaces pane.workspaceId).map fun w => w.name).getD []
      tabId := pane.tabId
      paneDisplayName := paneDisplayName pane.paneId pane.label
      title := pane.title }

/-- The last item of the log for a pane. -/
def attentionByPane (s : AgentListService) (paneId : PaneId) : Option AttentionItem :=
  (s.attention.filter fun item => item.paneId = paneId).getLast?

/-- The row of a pane, if it has one. -/
def rowOf (s : AgentListService) (pane : PaneSummary) : Option PaneRow :=
  match pane.agent with
  | none => some (s.shellRow pane)
  | some agentKind => s.rowFromPane pane agentKind (s.attentionByPane pane.paneId)

def isAttentionRow : PaneRow → Bool
  | .agent row => row.status = .blocked || row.status = .done
  | .shell _ => false

def isLiveRow : PaneRow → Bool
  | .agent row => !(row.status = .blocked || row.status = .done)
  | .shell _ => false

def isShellRow : PaneRow → Bool
  | .agent _ => false
  | .shell _ => true

/-- Attention, then the other agents, then the shells, each in the order of the panes. -/
def rows (s : AgentListService) : List PaneRow :=
  let all := s.panes.filterMap s.rowOf
  all.filter isAttentionRow ++ all.filter isLiveRow ++ all.filter isShellRow

/-- Attention comes first, then the order of the panes; two panes never tie. -/
def rowLe (s : AgentListService) (a b : PaneRow) : Bool :=
  if a.needsAttention ≠ b.needsAttention then a.needsAttention
  else (s.panes.map PaneSummary.paneId).idxOf a.paneId ≤
    (s.panes.map PaneSummary.paneId).idxOf b.paneId

/-- `null` where the title of an unknown tab is asked for. -/
def tabGroup (s : AgentListService) (all : List PaneRow) (workspaceId tabId : Text) :
    Option TabGroup :=
  (get TabSummary.tabId s.tabs tabId).map fun tab =>
    { tabId := tabId
      title := tab.title
      rows := (all.filter fun row => row.workspaceId = workspaceId ∧ row.tabId = tabId).insertionSort
        fun a b => s.rowLe a b = true }

def worktreeGroup (s : AgentListService) (all : List PaneRow) (w : Workspace) :
    Option WorktreeGroup :=
  (((s.tabOrder w.workspaceId).getD []).mapM (s.tabGroup all w.workspaceId)).map fun tabs =>
    { workspaceId := w.workspaceId, name := w.name, tabs := tabs }

/-- The spaces in the order of their first members. -/
def addWorktree (spaces : List (Text × List WorktreeGroup)) (entry : Text × WorktreeGroup) :
    List (Text × List WorktreeGroup) :=
  match spaces with
  | [] => [(entry.1, [entry.2])]
  | space :: spaces =>
    if space.1 = entry.1 then (space.1, space.2 ++ [entry.2]) :: spaces
    else space :: addWorktree spaces entry

/-- The member with the id of the space comes first. -/
def parentFirst (key : Text) (members : List WorktreeGroup) : List WorktreeGroup :=
  match members.find? fun worktree => worktree.workspaceId = key with
  | none => members
  | some parent => parent :: members.eraseP fun worktree => worktree.workspaceId = key

def buildSpaces (s : AgentListService) (all : List PaneRow) : Option (List SpaceGroup) :=
  (s.workspaces.mapM fun w =>
    (s.worktreeGroup all w).map fun worktree => (w.spaceId.getD w.workspaceId, worktree)).map
  fun entries => (entries.foldl addWorktree []).map fun space =>
    { key := space.1
      name := ((get idOfWorkspace s.workspaces space.1).map fun w => w.name).getD
        ((space.2.head?.map WorktreeGroup.name).getD [])
      worktrees := parentFirst space.1 space.2 }

end AgentListService

section Narrow

variable (hit : Text → Bool)

def hitsRow (row : PaneRow) : Bool :=
  hit row.paneDisplayName || hit row.title ||
    match row with
    | .agent row => hit row.agentKind
    | .shell _ => false

def narrowTab (tab : TabGroup) : Option TabGroup :=
  if hit tab.title then some tab
  else
    let rows := tab.rows.filter (hitsRow hit)
    if rows.isEmpty then none else some { tab with rows := rows }

def narrowWorktree (worktree : WorktreeGroup) : Option WorktreeGroup :=
  if hit worktree.name then some worktree
  else
    let tabs := worktree.tabs.filterMap (narrowTab hit)
    if tabs.isEmpty then none else some { worktree with tabs := tabs }

def narrowSpace (space : SpaceGroup) : Option SpaceGroup :=
  if hit space.name then some space
  else
    let worktrees := space.worktrees.filterMap (narrowWorktree hit)
    if worktrees.isEmpty then none else some { space with worktrees := worktrees }

end Narrow

section View

-- `hits query text`: the text contains the query, whatever their letter case.
variable (hits : Text → Text → Bool)

def narrow (spaces : List SpaceGroup) (query : Text) : List SpaceGroup :=
  if query.isEmpty then spaces else spaces.filterMap (narrowSpace (hits query))

/-- The panes of the spaces, with the workspace and the tab that each is drawn under. -/
def placed (spaces : List SpaceGroup) : List (Text × Text × PaneId) :=
  spaces.flatMap fun space => space.worktrees.flatMap fun worktree =>
    worktree.tabs.flatMap fun tab => tab.rows.map fun row =>
      (worktree.workspaceId, tab.tabId, row.paneId)

namespace AgentListService

/-- The panes that a search finds. -/
def searchMatches (s : AgentListService) (rows : List PaneRow) : Option (List PaneId) :=
  if s.search.isEmpty then some []
  else (s.buildSpaces rows).map fun spaces =>
    (placed (narrow hits spaces s.search)).map fun place => place.2.2

/-- The rows of the spaces are those that are not pinned. -/
def build (s : AgentListService) : Option AgentListView := do
  let rows := s.rows
  let pinned := s.pinned.filterMap fun id => rows.find? fun row => row.paneId = id
  let found ← s.searchMatches hits rows
  let spaces ← s.buildSpaces (rows.filter fun row => row.paneId ∉ s.pinned)
  return {
    spaces := narrow hits spaces s.search
    pinnedRows := pinned.filter fun row => s.search.isEmpty || row.paneId ∈ found
    workspaceCount := s.workspaces.length
    attentionCount := (rows.filter fun row => isAttentionRow row && row.needsAttention).length }

end AgentListService

end View

end HerdrMobile.App.AgentList
