import HerdrMobile.Lib.Replay
import HerdrMobile.Proto.Tree

/-!
# The tree of a Device

What the tree service of the Device makes of the messages about the tree.
-/
namespace HerdrMobile.App.Tree

open HerdrMobile.Lib.Replay HerdrMobile.Proto.Messages HerdrMobile.Proto.Tree

set_option autoImplicit false

/-- A closed workspace takes its tabs and panes with it, a closed tab its panes. An
update without its object changes nothing. -/
def applyTreeUpdate (t : TreeSnapshot) (update : TreeUpdate) : TreeSnapshot :=
  match update.event with
  | .workspaceCreated | .workspaceUpdated | .workspaceRenamed =>
    match update.workspace with
    | none => t
    | some w => { t with workspaces := Function.update t.workspaces w.workspaceId (some w) }
  | .workspaceClosed =>
    match update.workspace with
    | none => t
    | some w =>
      { workspaces := Function.update t.workspaces w.workspaceId none
        tabs := fun id => (t.tabs id).filter (·.workspaceId ≠ w.workspaceId)
        panes := fun id => (t.panes id).filter (·.workspaceId ≠ w.workspaceId) }
  | .tabCreated | .tabRenamed | .tabFocused =>
    match update.tab with
    | none => t
    | some tab => { t with tabs := Function.update t.tabs tab.tabId (some tab) }
  | .tabClosed =>
    match update.tab with
    | none => t
    | some tab =>
      { t with
        tabs := Function.update t.tabs tab.tabId none
        panes := fun id => (t.panes id).filter (·.tabId ≠ tab.tabId) }
  | .paneCreated | .paneUpdated | .paneFocused | .paneAgentStatusChanged =>
    match update.pane with
    | none => t
    | some pane => { t with panes := Function.update t.panes pane.paneId (some pane) }
  | .paneClosed =>
    match update.pane with
    | none => t
    | some pane => { t with panes := Function.update t.panes pane.paneId none }
  | .layoutUpdated => t

/-- What a message makes of the tree a Device has, if it has one yet. -/
def adopt (t : Option TreeSnapshot) : Message → Option TreeSnapshot
  | .treeSnapshot tree => some tree
  | .treeUpdate update => t.map (applyTreeUpdate · update)
  | .agentStatus _ | .paneFrame _ | .error => t

/-- The tree last conveyed: the last snapshot with the updates after it. -/
def conveyed (messages : List Message) : Option TreeSnapshot := messages.foldl adopt none

theorem conveyed_append (messages rest : List Message) :
    conveyed (messages ++ rest) = rest.foldl adopt (conveyed messages) := by
  unfold conveyed
  rw [List.foldl_append]

/-- The update touches each cell of the tree on its own. -/
structure Local (update : TreeUpdate) : Prop where
  workspaces : ∀ id, ∃ op : Op WorkspaceSummary, ∀ t : TreeSnapshot,
    (applyTreeUpdate t update).workspaces id = op.apply (t.workspaces id)
  tabs : ∀ id, ∃ op : Op TabSummary, ∀ t : TreeSnapshot,
    (applyTreeUpdate t update).tabs id = op.apply (t.tabs id)
  panes : ∀ id, ∃ op : Op PaneSummary, ∀ t : TreeSnapshot,
    (applyTreeUpdate t update).panes id = op.apply (t.panes id)

/-- The cells of the map are changed each on its own. -/
def Cellwise {α : Type} (f : (Text → Option α) → Text → Option α) : Prop :=
  ∀ id, ∃ op : Op α, ∀ m, f m id = op.apply (m id)

theorem cellwise_same {α : Type} : Cellwise fun m : Text → Option α => m :=
  fun id => ⟨.keep, fun m => (Op.apply_keep (m id)).symm⟩

theorem cellwise_update {α : Type} (key : Text) (x : Option α) :
    Cellwise fun m => Function.update m key x := by
  intro id
  by_cases h : id = key
  · subst h
    cases x with
    | none =>
      refine ⟨.drop fun _ => true, fun m => (Function.update_self ..).trans ?_⟩
      cases m id with
      | none => rfl
      | some a => rfl
    | some a => exact ⟨.put a, fun m => Function.update_self ..⟩
  · exact ⟨.keep, fun m => (Function.update_of_ne h ..).trans (Op.apply_keep _).symm⟩

theorem cellwise_filter {α : Type} (p : α → Bool) :
    Cellwise fun (m : Text → Option α) id => (m id).filter p := by
  intro id
  refine ⟨.drop fun a => !p a, fun m => ?_⟩
  simp [Op.apply]

theorem local_of {update : TreeUpdate} {f : (Text → Option WorkspaceSummary) → _}
    {g : (Text → Option TabSummary) → _} {k : (PaneId → Option PaneSummary) → _}
    (hf : Cellwise f) (hg : Cellwise g) (hk : Cellwise k)
    (h : ∀ t : TreeSnapshot, applyTreeUpdate t update = ⟨f t.workspaces, g t.tabs, k t.panes⟩) :
    Local update where
  workspaces id := by
    obtain ⟨op, hop⟩ := hf id
    exact ⟨op, fun t => by rw [h]; exact hop t.workspaces⟩
  tabs id := by
    obtain ⟨op, hop⟩ := hg id
    exact ⟨op, fun t => by rw [h]; exact hop t.tabs⟩
  panes id := by
    obtain ⟨op, hop⟩ := hk id
    exact ⟨op, fun t => by rw [h]; exact hop t.panes⟩

theorem local_of_same {update : TreeUpdate} (h : ∀ t : TreeSnapshot, applyTreeUpdate t update = t) :
    Local update :=
  local_of cellwise_same cellwise_same cellwise_same h

theorem applyTreeUpdate_local (update : TreeUpdate) : Local update := by
  obtain ⟨event, pane, workspace, tab⟩ := update
  cases event with
  | workspaceCreated | workspaceUpdated | workspaceRenamed =>
    cases workspace with
    | none => exact local_of_same fun _ => rfl
    | some w => exact local_of (cellwise_update _ _) cellwise_same cellwise_same fun _ => rfl
  | workspaceClosed =>
    cases workspace with
    | none => exact local_of_same fun _ => rfl
    | some w =>
      exact local_of (cellwise_update _ _) (cellwise_filter _) (cellwise_filter _) fun _ => rfl
  | tabCreated | tabRenamed | tabFocused =>
    cases tab with
    | none => exact local_of_same fun _ => rfl
    | some tab => exact local_of cellwise_same (cellwise_update _ _) cellwise_same fun _ => rfl
  | tabClosed =>
    cases tab with
    | none => exact local_of_same fun _ => rfl
    | some tab =>
      exact local_of cellwise_same (cellwise_update _ _) (cellwise_filter _) fun _ => rfl
  | paneCreated | paneUpdated | paneFocused | paneAgentStatusChanged | paneClosed =>
    cases pane with
    | none => exact local_of_same fun _ => rfl
    | some pane => exact local_of cellwise_same cellwise_same (cellwise_update _ _) fun _ => rfl
  | layoutUpdated => exact local_of_same fun _ => rfl

/-- The updates in their order. -/
def applyAll (t : TreeSnapshot) (updates : List TreeUpdate) : TreeSnapshot :=
  updates.foldl applyTreeUpdate t

/-- Each cell sees the changes to it alone. -/
theorem applyAll_replay {α : Type} (cell : TreeSnapshot → Option α)
    (hcell : ∀ update, ∃ op : Op α, ∀ t : TreeSnapshot, cell (applyTreeUpdate t update) = op.apply (cell t))
    (updates : List TreeUpdate) :
    ∃ ops : List (Op α), ∀ t : TreeSnapshot, cell (applyAll t updates) = replay ops (cell t) := by
  induction updates with
  | nil => exact ⟨[], fun _ => rfl⟩
  | cons update updates ih =>
    obtain ⟨ops, hops⟩ := ih
    obtain ⟨op, hop⟩ := hcell update
    refine ⟨op :: ops, fun t => ?_⟩
    show cell (applyAll (applyTreeUpdate t update) updates) = replay ops (op.apply (cell t))
    rw [hops, hop]

/-- Updates that a snapshot was taken after lead to that snapshot again. -/
theorem applyAll_applyAll (t : TreeSnapshot) (updates : List TreeUpdate) :
    applyAll (applyAll t updates) updates = applyAll t updates := by
  have hcell : ∀ {α : Type} (cell : TreeSnapshot → Option α),
      (∀ update, ∃ op : Op α, ∀ t : TreeSnapshot, cell (applyTreeUpdate t update) = op.apply (cell t)) →
      cell (applyAll (applyAll t updates) updates) = cell (applyAll t updates) := by
    intro α cell hlocal
    obtain ⟨ops, hops⟩ := applyAll_replay cell hlocal updates
    rw [hops, hops, replay_replay]
  have hw : ∀ id, (applyAll (applyAll t updates) updates).workspaces id
      = (applyAll t updates).workspaces id :=
    fun id => hcell (·.workspaces id) fun update => (applyTreeUpdate_local update).workspaces id
  have ht : ∀ id, (applyAll (applyAll t updates) updates).tabs id = (applyAll t updates).tabs id :=
    fun id => hcell (·.tabs id) fun update => (applyTreeUpdate_local update).tabs id
  have hp : ∀ id, (applyAll (applyAll t updates) updates).panes id = (applyAll t updates).panes id :=
    fun id => hcell (·.panes id) fun update => (applyTreeUpdate_local update).panes id
  exact TreeSnapshot.ext (funext hw) (funext ht) (funext hp)

end HerdrMobile.App.Tree
