import HerdrMobile.App.AgentList
import HerdrMobile.Lib.Run

/-!
# The reducers of the tree

The tree service, the agent list and the attention log fold the same updates, each into its own
tables. They agree as long as no tab is named with another workspace than the one it is listed
under, and then every row of the agent list has its place.
-/
namespace HerdrMobile.App.AgentListRuns

open HerdrMobile.Lib.Run HerdrMobile.Lib.Ordered HerdrMobile.Proto.Messages
open HerdrMobile.Proto.Tree HerdrMobile.App.TreeLists HerdrMobile.App.AgentList

set_option autoImplicit false

/-- `_panesByHost`: what `AgentStatusService` takes to be present on each computer. -/
abbrev PanesByHost := Text → Option (List PaneSummary)

def onTreeSnapshot (snapshot : Snapshot) (hostId : Text) (m : PanesByHost) : PanesByHost :=
  Function.update m hostId (some (ofList PaneSummary.paneId snapshot.panes))

def onTreeUpdate (update : Update) (hostId : Text) (m : PanesByHost) : PanesByHost :=
  let panes := (m hostId).getD []
  match update.event with
  | .paneCreated | .paneUpdated | .paneFocused | .paneAgentStatusChanged =>
    match update.pane with
    | none => m
    | some pane => Function.update m hostId (some (put PaneSummary.paneId panes pane))
  | .paneClosed =>
    match update.pane with
    | none => m
    | some pane => Function.update m hostId (some (remove PaneSummary.paneId panes pane.paneId))
  | .tabClosed =>
    match update.tab with
    | none => m
    | some tab =>
      Function.update m hostId (some (panes.filter fun pane => pane.tabId ≠ tab.tabId))
  | .workspaceClosed =>
    match update.workspace with
    | none => m
    | some w =>
      Function.update m hostId (some (panes.filter fun pane => pane.workspaceId ≠ w.workspaceId))
  | _ => m

/-- What the three services hold of the connected computer. -/
structure Services where
  tree : Snapshot
  list : AgentListService
  panes : PanesByHost

def Services.start : Services := ⟨.empty, .start, fun _ => none⟩

inductive Event where
  | snapshot (snapshot : Snapshot)
  | update (update : Update)
  | attention (items : List AttentionItem)
  | togglePinned (paneId : PaneId)
  | setSearch (text : Text)

/-- The messages come from the computer `hostId`. -/
def Services.step (hostId : Text) (s : Services) : Event → Option Services
  | .snapshot snapshot =>
    some ⟨snapshot, s.list.applySnapshot snapshot, onTreeSnapshot snapshot hostId s.panes⟩
  | .update update =>
    some ⟨applyTreeUpdate s.tree update, s.list.applyUpdate update,
      onTreeUpdate update hostId s.panes⟩
  | .attention items => some { s with list := { s.list with attention := items } }
  | .togglePinned paneId => some { s with list := s.list.togglePinned paneId }
  | .setSearch text => some { s with list := { s.list with search := text } }

/-- The three services hold the same workspaces, tabs and panes, in the same order and with the
same parents, and no id comes twice. -/
structure Agree (hostId : Text) (s : Services) : Prop where
  distinct : s.tree.Distinct
  workspaces : s.list.workspaces = s.tree.workspaces
  tabs : s.list.tabs = s.tree.tabs
  order : ∀ workspaceId, (s.list.tabOrder workspaceId).getD [] = s.tree.tabsOf workspaceId
  panes : s.list.panes = s.tree.panes
  present : (s.panes hostId).getD [] = s.tree.panes

/-- The tab is not known, or known in the workspace that it is named with. -/
def Settled (tabs : List TabSummary) (tab : TabSummary) : Prop :=
  ∀ known ∈ tabs, known.tabId = tab.tabId → known.workspaceId = tab.workspaceId

/-- No tab changes its workspace, and a snapshot has no id twice. -/
def Keeps (s : Services) : Event → Prop
  | .snapshot snapshot => snapshot.Distinct
  | .update update =>
    match update.event, update.tab with
    | .tabCreated, some tab | .tabRenamed, some tab | .tabFocused, some tab
    | .tabClosed, some tab => Settled s.tree.tabs tab
    | _, _ => True
  | .attention _ | .togglePinned _ | .setSearch _ => True

section Tabs

variable {s : Snapshot} {id w : Text}

theorem mem_tabsOf : id ∈ s.tabsOf w ↔ ∃ tab ∈ s.tabs, tab.tabId = id ∧ tab.workspaceId = w := by
  unfold Snapshot.tabsOf
  rw [List.mem_filterMap]
  refine exists_congr fun tab => and_congr_right fun _ => ?_
  by_cases h : tab.workspaceId = w
  · simp [h]
  · simp [h]

theorem nodup_tabsOf (h : s.Distinct) : (s.tabsOf w).Nodup := by
  have hsub : (s.tabsOf w).Sublist (s.tabs.map TabSummary.tabId) := by
    unfold Snapshot.tabsOf
    induction s.tabs with
    | nil => exact List.Sublist.slnil
    | cons tab tabs ih =>
      rw [List.filterMap_cons, List.map_cons]
      by_cases htab : tab.workspaceId = w
      · rw [if_pos htab]
        exact ih.cons_cons _
      · rw [if_neg htab]
        exact ih.cons _
  exact hsub.nodup h.tabs

theorem tabsOf_append (tabs : List TabSummary) (tab : TabSummary) :
    ({ s with tabs := tabs ++ [tab] } : Snapshot).tabsOf w =
      ({ s with tabs := tabs } : Snapshot).tabsOf w ++
        if tab.workspaceId = w then [tab.tabId] else [] := by
  unfold Snapshot.tabsOf
  rw [List.filterMap_append]
  by_cases h : tab.workspaceId = w
  · simp [h]
  · simp [h]

theorem foldl_addTab (tabs : List TabSummary) (workspaces : List Workspace)
    (panes : List PaneSummary) (agents : List AgentSummary) :
    ((tabs.foldl AgentListService.addTab fun _ => none) w).getD [] =
      Snapshot.tabsOf ⟨workspaces, tabs, panes, agents⟩ w := by
  induction tabs using List.reverseRecOn with
  | nil => rfl
  | append_singleton tabs tab ih =>
    rw [List.foldl_append, List.foldl_cons, List.foldl_nil]
    have happend := tabsOf_append (s := ⟨workspaces, tabs, panes, agents⟩) (w := w) tabs tab
    rw [happend, ← ih, AgentListService.addTab, Function.update_apply]
    by_cases h : w = tab.workspaceId
    · rw [if_pos h, if_pos h.symm, h]
      rfl
    · rw [if_neg h, if_neg fun heq => h heq.symm, List.append_nil]

theorem tabsOf_remove (tabId : Text) :
    ({ s with tabs := remove TabSummary.tabId s.tabs tabId } : Snapshot).tabsOf w =
      (s.tabsOf w).filter fun id => id ≠ tabId := by
  unfold Snapshot.tabsOf remove
  induction s.tabs with
  | nil => rfl
  | cons tab tabs ih =>
    by_cases hid : tab.tabId = tabId
    · rw [List.filter_cons_of_neg (by simp [hid]), ih, List.filterMap_cons]
      by_cases hw : tab.workspaceId = w
      · simp [hw, hid]
      · simp [hw]
    · rw [List.filter_cons_of_pos (by simp [hid]), List.filterMap_cons, List.filterMap_cons, ih]
      by_cases hw : tab.workspaceId = w
      · simp [hw, hid]
      · simp [hw]

end Tabs

section Step

variable {hostId : Text} {s t : Services} {e : Event}

theorem update_getD {α : Type} (m : Text → Option (List α)) (k : Text) (x : Option (List α)) :
    ((Function.update m k x) k).getD [] = x.getD [] := by
  rw [Function.update_self]

/-- The three fold a snapshot alike exactly where no id comes twice. -/
theorem agree_snapshot (snapshot : Snapshot) :
    Agree hostId ⟨snapshot, s.list.applySnapshot snapshot,
      onTreeSnapshot snapshot hostId s.panes⟩ ↔ snapshot.Distinct := by
  refine ⟨Agree.distinct, fun h => ⟨h, ?_, ?_, ?_, ?_, ?_⟩⟩
  · exact (ofList_eq_iff _ _).mpr h.workspaces
  · exact (ofList_eq_iff _ _).mpr h.tabs
  · exact fun w => foldl_addTab snapshot.tabs snapshot.workspaces snapshot.panes snapshot.agents
  · exact (ofList_eq_iff _ _).mpr h.panes
  · exact (update_getD ..).trans ((ofList_eq_iff _ _).mpr h.panes)

/-- A tab that moves stays listed under its old workspace. -/
theorem agree_putTab (h : Agree hostId s) (tab : TabSummary) :
    Agree hostId ⟨{ s.tree with tabs := put TabSummary.tabId s.tree.tabs tab },
      { s.list with
        tabOrder :=
          if (get TabSummary.tabId s.list.tabs tab.tabId).isSome then s.list.tabOrder
          else AgentListService.addTab s.list.tabOrder tab
        tabs := put TabSummary.tabId s.list.tabs tab },
      s.panes⟩ ↔ Settled s.tree.tabs tab := by
  rw [h.tabs]
  constructor
  · intro hagree known hknown hid
    by_contra hmoved
    have hsome : (get TabSummary.tabId s.tree.tabs tab.tabId).isSome = true :=
      get_isSome_iff.mpr ⟨known, hknown, hid⟩
    have horder := hagree.order known.workspaceId
    rw [if_pos hsome] at horder
    have hlisted : tab.tabId ∈ s.tree.tabsOf known.workspaceId :=
      (mem_tabsOf).mpr ⟨known, hknown, hid, rfl⟩
    rw [← h.order, horder] at hlisted
    obtain ⟨other, hother, hotherId, hotherWorkspace⟩ := (mem_tabsOf).mp hlisted
    have hsame : other = tab :=
      eq_of_mem hagree.distinct.tabs hother (mem_put_self _ _ tab) hotherId
    exact hmoved (hsame ▸ hotherWorkspace.symm)
  · intro hsettled
    refine ⟨applyTreeUpdate_distinct h.distinct ⟨.tabCreated, none, none, some tab⟩,
      h.workspaces, rfl, fun w => ?_, h.panes, h.present⟩
    dsimp only
    by_cases hknown : (get TabSummary.tabId s.tree.tabs tab.tabId).isSome = true
    · rw [if_pos hknown, h.order]
      refine (filterMap_put _ (get_isSome_iff.mp hknown) fun known hmem hid => ?_).symm
      rw [hsettled known hmem hid, hid]
    · have hfresh : ∀ known ∈ s.tree.tabs, known.tabId ≠ tab.tabId :=
        fun known hmem hid => hknown (get_isSome_iff.mpr ⟨known, hmem, hid⟩)
      rw [if_neg hknown, put_fresh hfresh]
      have happend := tabsOf_append (s := s.tree) (w := w) s.tree.tabs tab
      rw [happend, AgentListService.addTab, Function.update_apply, h.order]
      by_cases hw : w = tab.workspaceId
      · rw [if_pos hw, if_pos hw.symm, hw]
        rfl
      · rw [if_neg hw, if_neg fun heq => hw heq.symm, List.append_nil, h.order]

/-- A tab that is closed under another workspace stays listed under its own. -/
theorem agree_tabClosed (h : Agree hostId s) (tab : TabSummary) {m : PanesByHost}
    (hpresent : (m hostId).getD [] = s.tree.panes.filter fun pane => pane.tabId ≠ tab.tabId) :
    Agree hostId ⟨{ s.tree with
        tabs := remove TabSummary.tabId s.tree.tabs tab.tabId
        panes := s.tree.panes.filter fun pane => pane.tabId ≠ tab.tabId },
      { s.list with
        tabs := remove TabSummary.tabId s.list.tabs tab.tabId
        tabOrder := Function.update s.list.tabOrder tab.workspaceId
          ((s.list.tabOrder tab.workspaceId).map fun ids => ids.erase tab.tabId)
        panes := s.list.panes.filter fun pane => pane.tabId ≠ tab.tabId },
      m⟩ ↔ Settled s.tree.tabs tab := by
  have hafter : ∀ w, Snapshot.tabsOf { s.tree with
      tabs := remove TabSummary.tabId s.tree.tabs tab.tabId
      panes := s.tree.panes.filter fun pane => pane.tabId ≠ tab.tabId } w =
        (s.tree.tabsOf w).filter fun id => id ≠ tab.tabId := fun w =>
    tabsOf_remove tab.tabId
  constructor
  · intro hagree known hknown hid
    by_contra hmoved
    have horder := hagree.order known.workspaceId
    dsimp only at horder
    rw [Function.update_of_ne hmoved, h.order, hafter] at horder
    have hlisted : tab.tabId ∈ s.tree.tabsOf known.workspaceId :=
      (mem_tabsOf).mpr ⟨known, hknown, hid, rfl⟩
    rw [horder] at hlisted
    exact of_decide_eq_true (List.mem_filter.mp hlisted).2 rfl
  · intro hsettled
    refine ⟨applyTreeUpdate_distinct h.distinct ⟨.tabClosed, none, none, some tab⟩,
      h.workspaces, ?_, fun w => ?_, ?_, hpresent⟩
    · dsimp only
      rw [h.tabs]
    · dsimp only
      rw [hafter, Function.update_apply]
      by_cases hw : w = tab.workspaceId
      · have herase : ((s.list.tabOrder tab.workspaceId).map fun ids => ids.erase tab.tabId).getD [] =
            ((s.list.tabOrder tab.workspaceId).getD []).erase tab.tabId := by
          cases s.list.tabOrder tab.workspaceId with
          | none => rfl
          | some ids => rfl
        rw [if_pos hw, herase, h.order, hw, (nodup_tabsOf h.distinct).erase_eq_filter]
        refine List.filter_congr fun id _ => ?_
        by_cases hid : id = tab.tabId
        · simp [hid]
        · simp [hid]
      · rw [if_neg hw, h.order]
        refine (List.filter_eq_self.mpr fun id hid => ?_).symm
        obtain ⟨known, hknown, hknownId, rfl⟩ := (mem_tabsOf).mp hid
        refine decide_eq_true fun heq => hw ?_
        exact hsettled known hknown (hknownId.trans heq)
    · dsimp only
      rw [h.panes]

theorem agree_workspaceClosed (h : Agree hostId s) (w : Workspace) {m : PanesByHost}
    (hpresent : (m hostId).getD [] =
      s.tree.panes.filter fun pane => pane.workspaceId ≠ w.workspaceId) :
    Agree hostId ⟨{ s.tree with
        workspaces := remove idOfWorkspace s.tree.workspaces w.workspaceId
        tabs := s.tree.tabs.filter fun tab => tab.workspaceId ≠ w.workspaceId
        panes := s.tree.panes.filter fun pane => pane.workspaceId ≠ w.workspaceId },
      { s.list with
        workspaces := remove idOfWorkspace s.list.workspaces w.workspaceId
        tabOrder := Function.update s.list.tabOrder w.workspaceId none
        tabs := s.list.tabs.filter fun tab =>
          tab.tabId ∉ (s.list.tabOrder w.workspaceId).getD []
        panes := s.list.panes.filter fun pane => pane.workspaceId ≠ w.workspaceId },
      m⟩ := by
  refine ⟨applyTreeUpdate_distinct h.distinct ⟨.workspaceClosed, none, some w, none⟩, ?_, ?_,
    fun v => ?_, ?_, hpresent⟩
  · dsimp only
    rw [h.workspaces]
  · dsimp only
    rw [h.tabs, h.order]
    refine List.filter_congr fun tab htab => ?_
    rw [decide_eq_decide, mem_tabsOf]
    refine not_congr ⟨?_, fun heq => ⟨tab, htab, rfl, heq⟩⟩
    rintro ⟨other, hother, hid, hworkspace⟩
    exact eq_of_mem h.distinct.tabs hother htab hid ▸ hworkspace
  · dsimp only
    have hafter : Snapshot.tabsOf { s.tree with
        workspaces := remove idOfWorkspace s.tree.workspaces w.workspaceId
        tabs := s.tree.tabs.filter fun tab => tab.workspaceId ≠ w.workspaceId
        panes := s.tree.panes.filter fun pane => pane.workspaceId ≠ w.workspaceId } v =
          if v = w.workspaceId then [] else s.tree.tabsOf v := by
      unfold Snapshot.tabsOf
      dsimp only
      rw [List.filterMap_filter]
      by_cases hv : v = w.workspaceId
      · rw [if_pos hv, hv]
        refine List.filterMap_eq_nil_iff.mpr fun tab _ => ?_
        by_cases htab : tab.workspaceId = w.workspaceId
        · simp [htab]
        · simp [htab]
      · rw [if_neg hv]
        refine List.filterMap_congr fun tab _ => ?_
        by_cases htab : tab.workspaceId = v
        · simp [htab, hv]
        · simp [htab]
    rw [hafter, Function.update_apply]
    by_cases hv : v = w.workspaceId
    · rw [if_pos hv, if_pos hv]
      rfl
    · rw [if_neg hv, if_neg hv, h.order]
  · dsimp only
    rw [h.panes]

theorem agree_putWorkspace (h : Agree hostId s) (w : Workspace) :
    Agree hostId ⟨{ s.tree with workspaces := put idOfWorkspace s.tree.workspaces w },
      { s.list with workspaces := put idOfWorkspace s.list.workspaces w }, s.panes⟩ := by
  refine ⟨applyTreeUpdate_distinct h.distinct ⟨.workspaceCreated, none, some w, none⟩, ?_, h.tabs,
    h.order, h.panes, h.present⟩
  dsimp only
  rw [h.workspaces]

/-- Only the panes change, and in all three alike. -/
theorem agree_panes (h : Agree hostId s) {panes : List PaneSummary} {m : PanesByHost}
    {statusAt : PaneId → Option Text} (hdistinct : Lib.Ordered.Distinct PaneSummary.paneId panes)
    (hpresent : (m hostId).getD [] = panes) :
    Agree hostId ⟨{ s.tree with panes := panes },
      { s.list with panes := panes, statusAt := statusAt }, m⟩ :=
  ⟨⟨h.distinct.workspaces, h.distinct.tabs, hdistinct⟩, h.workspaces, h.tabs, h.order, rfl,
    hpresent⟩

theorem agree_update (h : Agree hostId s) (update : Update) :
    Agree hostId ⟨applyTreeUpdate s.tree update, s.list.applyUpdate update,
      onTreeUpdate update hostId s.panes⟩ ↔ Keeps s (.update update) := by
  obtain ⟨event, pane, workspace, tab⟩ := update
  have hsame : Agree hostId ⟨s.tree, s.list, s.panes⟩ := h
  cases event with
  | workspaceCreated | workspaceUpdated | workspaceRenamed =>
    cases workspace with
    | none => exact iff_of_true hsame trivial
    | some w => exact iff_of_true (agree_putWorkspace h w) trivial
  | workspaceClosed =>
    cases workspace with
    | none => exact iff_of_true hsame trivial
    | some w =>
      refine iff_of_true (agree_workspaceClosed h w ?_) trivial
      exact (update_getD ..).trans (by rw [h.present]; rfl)
  | tabCreated | tabRenamed | tabFocused =>
    cases tab with
    | none => exact iff_of_true hsame trivial
    | some tab => exact agree_putTab h tab
  | tabClosed =>
    cases tab with
    | none => exact iff_of_true hsame trivial
    | some tab =>
      refine agree_tabClosed h tab ?_
      exact (update_getD ..).trans (by rw [h.present]; rfl)
  | paneCreated | paneUpdated | paneFocused | paneAgentStatusChanged =>
    cases pane with
    | none => exact iff_of_true hsame trivial
    | some pane =>
      refine iff_of_true ?_ trivial
      have hagree := (@agree_panes _ _ h _
        (Function.update s.panes hostId (some (put PaneSummary.paneId s.tree.panes pane)))
        (s.list.putPane pane).statusAt)
        (distinct_put h.distinct.panes pane) (update_getD ..)
      simp only [applyTreeUpdate, AgentListService.applyUpdate, onTreeUpdate, h.present]
      unfold AgentListService.putPane at hagree ⊢
      rw [h.panes] at hagree ⊢
      exact hagree
  | paneClosed =>
    cases pane with
    | none => exact iff_of_true hsame trivial
    | some pane =>
      refine iff_of_true ?_ trivial
      have hagree := (@agree_panes _ _ h _
        (Function.update s.panes hostId
          (some (remove PaneSummary.paneId s.tree.panes pane.paneId)))
        (Function.update s.list.statusAt pane.paneId none))
        (distinct_filter h.distinct.panes _) (update_getD ..)
      simp only [applyTreeUpdate, AgentListService.applyUpdate, onTreeUpdate, h.present, h.panes]
      exact hagree
  | layoutUpdated => exact iff_of_true hsame trivial

theorem agree_step (h : Agree hostId s) (hs : s.step hostId e = some t) :
    Agree hostId t ↔ Keeps s e := by
  cases e with
  | snapshot snapshot =>
    cases hs
    exact agree_snapshot snapshot
  | update update =>
    cases hs
    exact agree_update h update
  | attention items | togglePinned paneId | setSearch text =>
    cases hs
    exact iff_of_true ⟨h.distinct, h.workspaces, h.tabs, h.order, h.panes, h.present⟩ trivial

theorem agree_start (hostId : Text) : Agree hostId .start :=
  ⟨distinct_empty, rfl, rfl, fun _ => rfl, rfl, rfl⟩

/-- The tree screen joins the tabs to the workspaces as the agent list does. -/
theorem buildTree_parents (h : Agree hostId s) :
    (buildTree s.tree).map (fun node => (node.workspace, node.tabs.map fun tab => tab.tab.tabId)) =
      s.list.workspaces.map fun w => (w, (s.list.tabOrder w.workspaceId).getD []) := by
  unfold buildTree
  rw [List.map_map, h.workspaces]
  refine List.map_congr_left fun w _ => ?_
  rw [h.order]
  refine congrArg (Prod.mk w) ?_
  show ((s.tree.tabs.filter _).map _).map _ = _
  rw [List.map_map]
  unfold Snapshot.tabsOf
  induction s.tree.tabs with
  | nil => rfl
  | cons tab tabs ih =>
    by_cases htab : tab.workspaceId = w.workspaceId
    · rw [List.filter_cons_of_pos (by simp [htab]), List.filterMap_cons, if_pos htab,
        List.map_cons, ih]
      rfl
    · rw [List.filter_cons_of_neg (by simp [htab]), List.filterMap_cons, if_neg htab, ih]

end Step

/-- The services agree, and so do the joins that their screens show. -/
structure Same (hostId : Text) (s : Services) : Prop where
  agree : Agree hostId s
  parents : (buildTree s.tree).map
      (fun node => (node.workspace, node.tabs.map fun tab => tab.tab.tabId)) =
    s.list.workspaces.map fun w => (w, (s.list.tabOrder w.workspaceId).getD [])

theorem agree_visits {hostId : Text} {es : List Event}
    (hkeeps : ∀ s e t, Occurs (Services.step hostId) .start es s e t → Keeps s e) {s : Services}
    (hvisits : Visits (Services.step hostId) .start es s) : Agree hostId s := by
  refine visits_invariant (Agree hostId) (agree_start hostId) (fun hagree hocc => ?_) hvisits
  exact (agree_step hagree hocc.step_eq).mpr (hkeeps _ _ _ hocc)

theorem reducers_agree_iff (hostId : Text) (es : List Event) :
    (∀ s, Visits (Services.step hostId) .start es s → Same hostId s) ↔
      ∀ s e t, Occurs (Services.step hostId) .start es s e t → Keeps s e := by
  constructor
  · intro hall s e t hocc
    exact (agree_step (hall s hocc.before).agree hocc.step_eq).mp (hall t hocc.after).agree
  · intro hkeeps s hvisits
    have hagree := agree_visits hkeeps hvisits
    exact ⟨hagree, buildTree_parents hagree⟩

def workspaceOf (workspaceId : Text) : Workspace where
  workspaceId := workspaceId
  name := workspaceId
  focused := false
  repoName := none
  isLinkedWorktree := false
  spaceId := none

def tabOf (tabId workspaceId : Text) : TabSummary where
  tabId := tabId
  workspaceId := workspaceId
  title := tabId
  focused := false

/-- A tab of the workspace `a` is renamed in the workspace `b` and closed there. -/
def movedTab : List Event :=
  let moved := tabOf "t".toList "b".toList
  [.snapshot ⟨[workspaceOf "a".toList, workspaceOf "b".toList], [tabOf "t".toList "a".toList], [], []⟩,
    .update ⟨.tabRenamed, none, none, some moved⟩, .update ⟨.tabClosed, none, none, some moved⟩]

/-- The agent list still lists a tab that the tree has closed. -/
theorem movedTab_stays :
    ¬∀ hostId es s, Visits (Services.step hostId) .start es s →
      ∀ workspaceId, (s.list.tabOrder workspaceId).getD [] = s.tree.tabsOf workspaceId := by
  intro hall
  have hlast : (run (Services.step "h".toList) .start movedTab).any (fun s =>
      decide ((s.list.tabOrder "a".toList).getD [] ≠ s.tree.tabsOf "a".toList)) = true := by decide
  obtain ⟨s, hs, hne⟩ := (Option.any_eq_true _ _).mp hlast
  exact of_decide_eq_true hne (hall _ _ s (visits_end hs) _)

end HerdrMobile.App.AgentListRuns
