import HerdrMobile.App.Tree
import HerdrMobile.Lib.Ordered

/-!
# The tree of a Device, in its order

The tree service with the lists that it keeps. Where no id comes twice, its lists read as the
maps by id do.
-/
namespace HerdrMobile.App.TreeLists

open HerdrMobile.Lib.Ordered HerdrMobile.Proto.Messages HerdrMobile.Proto.Tree

set_option autoImplicit false

/-- A workspace with the group it belongs to. -/
structure Workspace extends WorkspaceSummary where
  spaceId : Option Text
  deriving DecidableEq

structure AgentSummary where
  paneId : PaneId
  agentKind : Text
  status : Text
  statusAt : Option Text
  deriving DecidableEq

structure Snapshot where
  workspaces : List Workspace
  tabs : List TabSummary
  panes : List PaneSummary
  agents : List AgentSummary
  deriving DecidableEq

structure Update where
  event : TreeEvent
  pane : Option PaneSummary
  workspace : Option Workspace
  tab : Option TabSummary
  deriving DecidableEq

def idOfWorkspace (w : Workspace) : Text := w.workspaceId

def Snapshot.empty : Snapshot := ⟨[], [], [], []⟩

/-- `_upsert` is `put`. -/
def applyTreeUpdate (s : Snapshot) (update : Update) : Snapshot :=
  match update.event with
  | .workspaceCreated | .workspaceUpdated | .workspaceRenamed =>
    match update.workspace with
    | none => s
    | some w => { s with workspaces := put idOfWorkspace s.workspaces w }
  | .workspaceClosed =>
    match update.workspace with
    | none => s
    | some w =>
      { s with
        workspaces := remove idOfWorkspace s.workspaces w.workspaceId
        tabs := s.tabs.filter fun tab => tab.workspaceId ≠ w.workspaceId
        panes := s.panes.filter fun pane => pane.workspaceId ≠ w.workspaceId }
  | .tabCreated | .tabRenamed | .tabFocused =>
    match update.tab with
    | none => s
    | some tab => { s with tabs := put TabSummary.tabId s.tabs tab }
  | .tabClosed =>
    match update.tab with
    | none => s
    | some tab =>
      { s with
        tabs := remove TabSummary.tabId s.tabs tab.tabId
        panes := s.panes.filter fun pane => pane.tabId ≠ tab.tabId }
  | .paneCreated | .paneUpdated | .paneFocused | .paneAgentStatusChanged =>
    match update.pane with
    | none => s
    | some pane => { s with panes := put PaneSummary.paneId s.panes pane }
  | .paneClosed =>
    match update.pane with
    | none => s
    | some pane => { s with panes := remove PaneSummary.paneId s.panes pane.paneId }
  | .layoutUpdated => s

structure TabNode where
  tab : TabSummary
  panes : List PaneSummary

structure WorkspaceNode where
  workspace : Workspace
  tabs : List TabNode

/-- A tab or a pane whose parent is missing is left out. -/
def buildTree (s : Snapshot) : List WorkspaceNode :=
  s.workspaces.map fun w =>
    { workspace := w
      tabs := (s.tabs.filter fun tab => tab.workspaceId = w.workspaceId).map fun tab =>
        { tab := tab
          panes := s.panes.filter fun pane => pane.tabId = tab.tabId } }

/-- The ids of the tabs of a workspace, in their order. -/
def Snapshot.tabsOf (s : Snapshot) (workspaceId : Text) : List Text :=
  s.tabs.filterMap fun tab => if tab.workspaceId = workspaceId then some tab.tabId else none

structure Snapshot.Distinct (s : Snapshot) : Prop where
  workspaces : Lib.Ordered.Distinct idOfWorkspace s.workspaces
  tabs : Lib.Ordered.Distinct TabSummary.tabId s.tabs
  panes : Lib.Ordered.Distinct PaneSummary.paneId s.panes

theorem distinct_empty : Snapshot.empty.Distinct :=
  ⟨List.nodup_nil, List.nodup_nil, List.nodup_nil⟩

theorem applyTreeUpdate_distinct {s : Snapshot} (h : s.Distinct) (update : Update) :
    (applyTreeUpdate s update).Distinct := by
  obtain ⟨event, pane, workspace, tab⟩ := update
  cases event with
  | workspaceCreated | workspaceUpdated | workspaceRenamed =>
    cases workspace with
    | none => exact h
    | some w => exact ⟨distinct_put h.workspaces w, h.tabs, h.panes⟩
  | workspaceClosed =>
    cases workspace with
    | none => exact h
    | some w =>
      exact ⟨distinct_filter h.workspaces _, distinct_filter h.tabs _, distinct_filter h.panes _⟩
  | tabCreated | tabRenamed | tabFocused =>
    cases tab with
    | none => exact h
    | some tab => exact ⟨h.workspaces, distinct_put h.tabs tab, h.panes⟩
  | tabClosed =>
    cases tab with
    | none => exact h
    | some tab => exact ⟨h.workspaces, distinct_filter h.tabs _, distinct_filter h.panes _⟩
  | paneCreated | paneUpdated | paneFocused | paneAgentStatusChanged =>
    cases pane with
    | none => exact h
    | some pane => exact ⟨h.workspaces, h.tabs, distinct_put h.panes pane⟩
  | paneClosed =>
    cases pane with
    | none => exact h
    | some pane => exact ⟨h.workspaces, h.tabs, distinct_filter h.panes _⟩
  | layoutUpdated => exact h

/-- The maps by id. -/
def Snapshot.byId (s : Snapshot) : TreeSnapshot where
  workspaces id := (get idOfWorkspace s.workspaces id).map Workspace.toWorkspaceSummary
  tabs id := get TabSummary.tabId s.tabs id
  panes id := get PaneSummary.paneId s.panes id

def Update.byId (update : Update) : TreeUpdate where
  event := update.event
  pane := update.pane
  workspace := update.workspace.map Workspace.toWorkspaceSummary
  tab := update.tab

theorem map_update {α β : Type} (f : α → β) (m : Text → Option α) (k : Text) (x : Option α) :
    (fun id => (Function.update m k x id).map f) =
      Function.update (fun id => (m id).map f) k (x.map f) := by
  funext id
  rw [Function.update_apply, Function.update_apply]
  split
  · rfl
  · rfl

/-- Read by id, the lists follow the updates as the maps do. -/
theorem applyTreeUpdate_byId {s : Snapshot} (h : s.Distinct) (update : Update) :
    (applyTreeUpdate s update).byId = Tree.applyTreeUpdate s.byId update.byId := by
  obtain ⟨event, pane, workspace, tab⟩ := update
  cases event with
  | workspaceCreated | workspaceUpdated | workspaceRenamed =>
    cases workspace with
    | none => rfl
    | some w =>
      refine TreeSnapshot.ext ?_ rfl rfl
      show (fun id => (get idOfWorkspace (put idOfWorkspace s.workspaces w) id).map _) = _
      rw [get_put_eq_update, map_update]
      rfl
  | workspaceClosed =>
    cases workspace with
    | none => rfl
    | some w =>
      refine TreeSnapshot.ext ?_ ?_ ?_
      · show (fun id => (get idOfWorkspace (remove idOfWorkspace s.workspaces _) id).map _) = _
        rw [get_remove_eq_update h.workspaces, map_update]
        rfl
      · exact funext fun id => get_filter h.tabs _ id
      · exact funext fun id => get_filter h.panes _ id
  | tabCreated | tabRenamed | tabFocused =>
    cases tab with
    | none => rfl
    | some tab => exact TreeSnapshot.ext rfl (get_put_eq_update s.tabs tab) rfl
  | tabClosed =>
    cases tab with
    | none => rfl
    | some tab =>
      refine TreeSnapshot.ext rfl (get_remove_eq_update h.tabs tab.tabId) ?_
      exact funext fun id => get_filter h.panes _ id
  | paneCreated | paneUpdated | paneFocused | paneAgentStatusChanged =>
    cases pane with
    | none => rfl
    | some pane => exact TreeSnapshot.ext rfl rfl (get_put_eq_update s.panes pane)
  | paneClosed =>
    cases pane with
    | none => rfl
    | some pane => exact TreeSnapshot.ext rfl rfl (get_remove_eq_update h.panes pane.paneId)
  | layoutUpdated => rfl

/-- So they do after any updates. -/
theorem applyAll_byId {s : Snapshot} (h : s.Distinct) (updates : List Update) :
    (updates.foldl applyTreeUpdate s).byId = Tree.applyAll s.byId (updates.map Update.byId) := by
  induction updates generalizing s with
  | nil => rfl
  | cons update updates ih =>
    rw [List.foldl_cons, ih (applyTreeUpdate_distinct h update), applyTreeUpdate_byId h]
    rfl

end HerdrMobile.App.TreeLists
