import Mathlib.Data.List.Perm.Basic
import HerdrMobile.App.AgentListRuns

/-!
# Every pane has its place

The spaces of the agent list, built from tables that agree, draw a pane under its own tab and
nowhere else, and leave out a pane whose tab or workspace is not known. A search only takes
rows away.
-/
namespace HerdrMobile.App.Places

open HerdrMobile.Lib.Run HerdrMobile.Lib.Ordered HerdrMobile.Proto.Messages
open HerdrMobile.Proto.Tree HerdrMobile.App.TreeLists HerdrMobile.App.AgentList
open HerdrMobile.App.AgentListRuns HerdrMobile.App.AgentList.AgentListService

set_option autoImplicit false

def placeOf (row : PaneRow) : Text × Text × PaneId := (row.workspaceId, row.tabId, row.paneId)

def placedIn (worktree : WorktreeGroup) : List (Text × Text × PaneId) :=
  worktree.tabs.flatMap fun tab => tab.rows.map fun row =>
    (worktree.workspaceId, tab.tabId, row.paneId)

theorem placed_eq (spaces : List SpaceGroup) :
    placed spaces = spaces.flatMap fun space => space.worktrees.flatMap placedIn := rfl

section Grouping

variable {β : Type}

theorem addWorktree_perm (spaces : List (Text × List WorktreeGroup))
    (entry : Text × WorktreeGroup) :
    ((addWorktree spaces entry).flatMap Prod.snd).Perm
      (spaces.flatMap Prod.snd ++ [entry.2]) := by
  induction spaces with
  | nil => simp [addWorktree]
  | cons space spaces ih =>
    rw [addWorktree]
    by_cases hkey : space.1 = entry.1
    · rw [if_pos hkey, List.flatMap_cons, List.flatMap_cons, List.append_assoc, List.append_assoc]
      exact List.Perm.append_left _ List.perm_append_comm
    · rw [if_neg hkey, List.flatMap_cons, List.flatMap_cons, List.append_assoc]
      exact ih.append_left _

theorem foldl_addWorktree_perm (entries : List (Text × WorktreeGroup)) :
    ((entries.foldl addWorktree []).flatMap Prod.snd).Perm (entries.map Prod.snd) := by
  induction entries using List.reverseRecOn with
  | nil => exact List.Perm.refl _
  | append_singleton entries entry ih =>
    rw [List.foldl_append, List.foldl_cons, List.foldl_nil, List.map_append]
    exact (addWorktree_perm _ entry).trans (ih.append_right _)

theorem parentFirst_perm (key : Text) (members : List WorktreeGroup) :
    (parentFirst key members).Perm members := by
  unfold parentFirst
  split
  · exact List.Perm.refl _
  · rename_i parent hfind
    induction members with
    | nil => cases hfind
    | cons member members ih =>
      rw [List.find?_cons] at hfind
      by_cases hkey : member.workspaceId = key
      · rw [decide_eq_true hkey] at hfind
        cases hfind
        rw [List.eraseP_cons_of_pos (by simp [hkey])]
      · rw [decide_eq_false hkey] at hfind
        rw [List.eraseP_cons_of_neg (by simp [hkey])]
        exact (List.Perm.swap _ _ _).trans ((ih hfind).cons member)

end Grouping

section Rows

variable {s : AgentListService} {pane : PaneSummary} {row : PaneRow}

theorem place_of_row (h : s.rowOf pane = some row) :
    placeOf row = (pane.workspaceId, pane.tabId, pane.paneId) := by
  unfold rowOf at h
  split at h
  · cases h
    rfl
  · unfold rowFromPane at h
    split at h
    · cases h
      rfl
    · cases h

theorem live_of_row (row : PaneRow) :
    (isLiveRow row && !isAttentionRow row) = isLiveRow row ∧
      (!isLiveRow row && !isAttentionRow row) = isShellRow row := by
  cases row with
  | shell row => exact ⟨rfl, rfl⟩
  | agent row =>
    simp only [isLiveRow, isAttentionRow, isShellRow]
    cases decide (row.status = .blocked) || decide (row.status = .done) with
    | true => exact ⟨rfl, rfl⟩
    | false => exact ⟨rfl, rfl⟩

theorem rows_perm (s : AgentListService) : s.rows.Perm (s.panes.filterMap s.rowOf) := by
  unfold rows
  generalize s.panes.filterMap s.rowOf = all
  have hlive : (all.filter fun row => !isAttentionRow row).filter isLiveRow =
      all.filter isLiveRow := by
    rw [List.filter_filter]
    exact List.filter_congr fun row _ => (live_of_row row).1
  have hshell : ((all.filter fun row => !isAttentionRow row).filter fun row => !isLiveRow row) =
      all.filter isShellRow := by
    rw [List.filter_filter]
    exact List.filter_congr fun row _ => (live_of_row row).2
  have hrest := List.filter_append_perm isLiveRow (all.filter fun row => !isAttentionRow row)
  rw [hlive, hshell] at hrest
  have hall := List.filter_append_perm isAttentionRow all
  dsimp only
  rw [List.append_assoc]
  exact (hrest.append_left _).trans hall

end Rows

section Spaces

variable {s : AgentListService} {all : List PaneRow}

/-- The tabs of a workspace, as the table lists them. -/
def tabIdsOf (s : AgentListService) (workspaceId : Text) : List Text :=
  (s.tabOrder workspaceId).getD []

/-- The tables stand for one tree: a workspace lists each of its tabs once, and nothing else. -/
structure Joined (s : AgentListService) : Prop where
  workspaces : Lib.Ordered.Distinct idOfWorkspace s.workspaces
  tabs : Lib.Ordered.Distinct TabSummary.tabId s.tabs
  panes : Lib.Ordered.Distinct PaneSummary.paneId s.panes
  once : ∀ w, (tabIdsOf s w).Nodup
  known : ∀ w id, id ∈ tabIdsOf s w ↔ ∃ tab ∈ s.tabs, tab.tabId = id ∧ tab.workspaceId = w

theorem joined_of_agree {hostId : Text} {v : Services} (h : Agree hostId v) : Joined v.list where
  workspaces := h.workspaces ▸ h.distinct.workspaces
  tabs := h.tabs ▸ h.distinct.tabs
  panes := h.panes ▸ h.distinct.panes
  once w := by
    rw [tabIdsOf, h.order]
    exact nodup_tabsOf h.distinct
  known w id := by
    rw [tabIdsOf, h.order, h.tabs]
    exact mem_tabsOf

theorem mapM_eq_some {α β : Type} {f : α → Option β} {g : α → β} {l : List α}
    (h : ∀ a ∈ l, f a = some (g a)) : l.mapM f = some (l.map g) := by
  induction l with
  | nil => rfl
  | cons a l ih =>
    obtain ⟨ha, hrest⟩ := List.forall_mem_cons.mp h
    rw [List.mapM_cons, ha, ih hrest]
    rfl

def groupOf (s : AgentListService) (all : List PaneRow) (workspaceId tabId : Text) : TabGroup where
  tabId := tabId
  title := ((get TabSummary.tabId s.tabs tabId).map TabSummary.title).getD []
  rows := (all.filter fun row => row.workspaceId = workspaceId ∧ row.tabId = tabId).insertionSort
    fun a b => s.rowLe a b = true

theorem tabGroup_eq (h : Joined s) {w id : Text} (hid : id ∈ tabIdsOf s w) :
    s.tabGroup all w id = some (groupOf s all w id) := by
  obtain ⟨tab, htab, rfl, -⟩ := (h.known w id).mp hid
  have hget := (get_eq_some_iff h.tabs).mpr ⟨htab, rfl⟩
  unfold tabGroup groupOf
  rw [hget]
  rfl

def worktreeOf (s : AgentListService) (all : List PaneRow) (w : Workspace) : WorktreeGroup where
  workspaceId := w.workspaceId
  name := w.name
  tabs := (tabIdsOf s w.workspaceId).map (groupOf s all w.workspaceId)

theorem worktreeGroup_eq (h : Joined s) (w : Workspace) :
    s.worktreeGroup all w = some (worktreeOf s all w) := by
  have htabs : (tabIdsOf s w.workspaceId).mapM (s.tabGroup all w.workspaceId) = some _ :=
    mapM_eq_some fun id hid => tabGroup_eq h hid
  unfold worktreeGroup
  rw [← tabIdsOf, htabs]
  rfl

theorem placedIn_worktreeOf (w : Workspace) :
    (placedIn (worktreeOf s all w)).Perm
      ((tabIdsOf s w.workspaceId).flatMap fun id =>
        ((all.filter fun row => row.workspaceId = w.workspaceId).filter
          fun row => row.tabId = id).map placeOf) := by
  unfold placedIn worktreeOf
  dsimp only
  rw [List.flatMap_map]
  refine List.Perm.flatMap_left _ fun id _ => ?_
  have hsort : (groupOf s all w.workspaceId id).rows.Perm
      ((all.filter fun row => row.workspaceId = w.workspaceId).filter fun row => row.tabId = id) := by
    unfold groupOf
    rw [List.filter_filter]
    refine (List.perm_insertionSort _ _).trans (List.Perm.of_eq (List.filter_congr fun row _ => ?_))
    rw [Bool.and_comm, ← Bool.decide_and]
  have hplace : ∀ row ∈ (all.filter fun row => row.workspaceId = w.workspaceId).filter
      (fun row => row.tabId = id), (w.workspaceId, id, row.paneId) = placeOf row := by
    intro row hrow
    have htab := of_decide_eq_true (List.mem_filter.mp hrow).2
    have hworkspace := of_decide_eq_true (List.mem_filter.mp (List.mem_filter.mp hrow).1).2
    rw [placeOf, htab, hworkspace]
  rw [← List.map_congr_left hplace]
  exact hsort.map _

/-- The row has a place: its workspace is known and lists its tab. -/
def Placed (s : AgentListService) (row : PaneRow) : Prop :=
  row.workspaceId ∈ s.workspaces.map idOfWorkspace ∧ row.tabId ∈ tabIdsOf s row.workspaceId

instance (s : AgentListService) (row : PaneRow) : Decidable (Placed s row) :=
  inferInstanceAs (Decidable (_ ∧ _))

theorem worktrees_perm (h : Joined s) :
    (s.workspaces.flatMap fun w => placedIn (worktreeOf s all w)).Perm
      ((all.filter fun row => Placed s row).map placeOf) := by
  have hinner : ∀ w : Workspace, (placedIn (worktreeOf s all w)).Perm
      (((all.filter fun row => row.tabId ∈ tabIdsOf s row.workspaceId).filter
        fun row => row.workspaceId = w.workspaceId).map placeOf) := by
    intro w
    refine (placedIn_worktreeOf w).trans ?_
    refine (flatMap_group_perm PaneRow.tabId placeOf _ (h.once w.workspaceId)).trans ?_
    rw [List.filter_filter, List.filter_filter]
    refine List.Perm.of_eq (congrArg _ (List.filter_congr fun row _ => ?_))
    by_cases hw : row.workspaceId = w.workspaceId
    · simp [hw]
    · simp [hw]
  have houter := flatMap_group_perm (l := all.filter fun row => row.tabId ∈ tabIdsOf s row.workspaceId)
    PaneRow.workspaceId placeOf (s.workspaces.map idOfWorkspace) h.workspaces
  rw [List.flatMap_map] at houter
  refine (List.Perm.flatMap_left _ fun w _ => hinner w).trans (houter.trans ?_)
  rw [List.filter_filter]
  refine List.Perm.of_eq (congrArg _ (List.filter_congr fun row _ => ?_))
  rw [← Bool.decide_and]
  rfl

theorem placed_buildSpaces (h : Joined s) (all : List PaneRow) :
    ∃ spaces, s.buildSpaces all = some spaces ∧
      (placed spaces).Perm ((all.filter fun row => Placed s row).map placeOf) := by
  have hentries : (s.workspaces.mapM fun w => (s.worktreeGroup all w).map fun worktree =>
      (w.spaceId.getD w.workspaceId, worktree)) =
        some (s.workspaces.map fun w => (w.spaceId.getD w.workspaceId, worktreeOf s all w)) := by
    refine mapM_eq_some fun w _ => ?_
    rw [worktreeGroup_eq h w]
    rfl
  unfold buildSpaces
  rw [hentries]
  refine ⟨_, rfl, ?_⟩
  refine List.Perm.trans ?_ (worktrees_perm h)
  rw [placed_eq, List.flatMap_map]
  dsimp only
  have hmembers := foldl_addWorktree_perm
    (s.workspaces.map fun w => (w.spaceId.getD w.workspaceId, worktreeOf s all w))
  rw [List.map_map] at hmembers
  have hplaced := hmembers.flatMap_right placedIn
  rw [List.flatMap_map, List.flatMap_assoc] at hplaced
  refine List.Perm.trans ?_ hplaced
  refine List.Perm.flatMap_left _ fun space _ => ?_
  exact (parentFirst_perm space.1 space.2).flatMap_right placedIn

end Spaces

section Search

variable {hit : Text → Bool}

theorem narrowTab_sublist {tab kept : TabGroup} (h : narrowTab hit tab = some kept) :
    kept.tabId = tab.tabId ∧ kept.rows.Sublist tab.rows := by
  unfold narrowTab at h
  split at h
  · cases h
    exact ⟨rfl, List.Sublist.refl _⟩
  · dsimp only at h
    split at h
    · cases h
    · cases h
      exact ⟨rfl, List.filter_sublist⟩

/-- What is kept of a list of groups has a part of their places. -/
theorem filterMap_places {α β : Type} {f : α → Option α} {places : α → List β}
    (h : ∀ a b, f a = some b → (places b).Sublist (places a)) (l : List α) :
    ((l.filterMap f).flatMap places).Sublist (l.flatMap places) := by
  induction l with
  | nil => exact List.Sublist.refl _
  | cons a l ih =>
    rw [List.flatMap_cons, List.filterMap_cons]
    cases hf : f a with
    | none => exact ih.trans (List.sublist_append_right _ _)
    | some b =>
      rw [List.flatMap_cons]
      exact (h a b hf).append ih

theorem narrowWorktree_sublist {worktree kept : WorktreeGroup}
    (h : narrowWorktree hit worktree = some kept) :
    (placedIn kept).Sublist (placedIn worktree) := by
  unfold narrowWorktree at h
  split at h
  · cases h
    exact List.Sublist.refl _
  · dsimp only at h
    split at h
    · cases h
    · cases h
      refine filterMap_places (fun tab kept hkept => ?_) worktree.tabs
      obtain ⟨hid, hrows⟩ := narrowTab_sublist hkept
      rw [hid]
      exact hrows.map _

theorem narrowSpace_sublist {space kept : SpaceGroup} (h : narrowSpace hit space = some kept) :
    (kept.worktrees.flatMap placedIn).Sublist (space.worktrees.flatMap placedIn) := by
  unfold narrowSpace at h
  split at h
  · cases h
    exact List.Sublist.refl _
  · dsimp only at h
    split at h
    · cases h
    · cases h
      exact filterMap_places (fun _ _ hkept => narrowWorktree_sublist hkept) space.worktrees

theorem narrow_sublist (hits : Text → Text → Bool) (spaces : List SpaceGroup) (query : Text) :
    (placed (narrow hits spaces query)).Sublist (placed spaces) := by
  unfold narrow
  split
  · exact List.Sublist.refl _
  · exact filterMap_places (fun _ _ hkept => narrowSpace_sublist hkept) spaces

end Search

section Panes

variable {s : AgentListService}

def placeOfPane (pane : PaneSummary) : Text × Text × PaneId :=
  (pane.workspaceId, pane.tabId, pane.paneId)

/-- The pane is not pinned, its workspace is known, and its tab is known in that workspace. -/
def Shown (s : AgentListService) (pane : PaneSummary) : Prop :=
  pane.paneId ∉ s.pinned ∧ pane.workspaceId ∈ s.workspaces.map idOfWorkspace ∧
    pane.tabId ∈ tabIdsOf s pane.workspaceId

instance (s : AgentListService) (pane : PaneSummary) : Decidable (Shown s pane) :=
  inferInstanceAs (Decidable (_ ∧ _ ∧ _))

theorem rowOf_isSome (h : Joined s) {pane : PaneSummary} (hshown : Shown s pane) :
    ∃ row, s.rowOf pane = some row := by
  obtain ⟨-, hworkspace, htab⟩ := hshown
  obtain ⟨w, hw, hwid⟩ := List.mem_map.mp hworkspace
  obtain ⟨tab, hmem, hid, -⟩ := (h.known _ _).mp htab
  have hgetTab := (get_eq_some_iff h.tabs).mpr ⟨hmem, hid⟩
  have hgetWorkspace := (get_eq_some_iff h.workspaces).mpr ⟨hw, hwid⟩
  unfold rowOf
  cases pane.agent with
  | none => exact ⟨_, rfl⟩
  | some agentKind =>
    unfold rowFromPane
    rw [hgetTab, hgetWorkspace]
    exact ⟨_, rfl⟩

theorem shown_iff {pane : PaneSummary} {row : PaneRow} (h : s.rowOf pane = some row) :
    Shown s pane ↔ row.paneId ∉ s.pinned ∧ Placed s row := by
  have hplace := place_of_row h
  unfold placeOf at hplace
  obtain ⟨hworkspace, hrest⟩ := Prod.mk.inj hplace
  obtain ⟨htab, hpane⟩ := Prod.mk.inj hrest
  unfold Shown Placed
  rw [hworkspace, htab, hpane]

theorem placedRows_perm (h : Joined s) :
    (((s.rows.filter fun row => row.paneId ∉ s.pinned).filter fun row => Placed s row).map
        placeOf).Perm ((s.panes.filter fun pane => Shown s pane).map placeOfPane) := by
  have hrows := (((rows_perm s).filter fun row => decide (row.paneId ∉ s.pinned)).filter
    fun row => decide (Placed s row)).map placeOf
  refine hrows.trans (List.Perm.of_eq ?_)
  rw [List.filter_filter]
  induction s.panes with
  | nil => rfl
  | cons pane panes ih =>
    cases hrow : s.rowOf pane with
    | none =>
      have hnot : ¬Shown s pane := by
        intro hshown
        obtain ⟨row, hsome⟩ := rowOf_isSome h hshown
        cases hrow.symm.trans hsome
      rw [List.filterMap_cons_none hrow, ih, List.filter_cons_of_neg (by simpa using hnot)]
    | some row =>
      have hiff := shown_iff hrow
      have hplace : placeOf row = placeOfPane pane := place_of_row hrow
      rw [List.filterMap_cons_some hrow]
      by_cases hshown : Shown s pane
      · obtain ⟨hpin, hplaced⟩ := hiff.mp hshown
        rw [List.filter_cons_of_pos (by simp [hpin, hplaced]),
          List.filter_cons_of_pos (by simpa using hshown), List.map_cons, List.map_cons, ih, hplace]
      · have hnot : ¬(row.paneId ∉ s.pinned ∧ Placed s row) := fun hrow => hshown (hiff.mpr hrow)
        rw [List.filter_cons_of_neg (by simpa [and_comm] using hnot),
          List.filter_cons_of_neg (by simpa using hshown), ih]

/-- The places of a pane: its own tab, if it is shown, and none else. -/
def placesOf (s : AgentListService) (pane : PaneSummary) : List (Text × Text × PaneId) :=
  if Shown s pane then [placeOfPane pane] else []

theorem shownPlaces_eq (h : Joined s) {pane : PaneSummary} (hpane : pane ∈ s.panes) :
    (((s.panes.filter fun pane => Shown s pane).map placeOfPane).filter
      fun place => place.2.2 = pane.paneId) = placesOf s pane := by
  have hone := filter_key h.panes hpane
  have hswap : ((s.panes.filter fun pane => Shown s pane).filter
      fun other => other.paneId = pane.paneId) =
        (s.panes.filter fun other => other.paneId = pane.paneId).filter
          fun pane => Shown s pane := by
    rw [List.filter_filter, List.filter_filter]
    exact List.filter_congr fun other _ => Bool.and_comm _ _
  rw [List.filter_map]
  show ((s.panes.filter fun pane => Shown s pane).filter
    fun other => other.paneId = pane.paneId).map placeOfPane = _
  rw [hswap, hone]
  unfold placesOf
  by_cases hshown : Shown s pane
  · rw [if_pos hshown, List.filter_cons_of_pos (by simpa using hshown)]
    rfl
  · rw [if_neg hshown, List.filter_cons_of_neg (by simpa using hshown)]
    rfl

/-- Every pane is drawn at its place alone, and without a search it is drawn. -/
structure Fair (s : AgentListService) (view : AgentListView) : Prop where
  every : ∀ pane ∈ s.panes,
    ((placed view.spaces).filter fun place => place.2.2 = pane.paneId).Sublist (placesOf s pane)
  drawn : s.search = [] → ∀ pane ∈ s.panes,
    ((placed view.spaces).filter fun place => place.2.2 = pane.paneId) = placesOf s pane
  known : ∀ place ∈ placed view.spaces, ∃ pane ∈ s.panes, Shown s pane ∧ place = placeOfPane pane

theorem perm_placesOf {places : List (Text × Text × PaneId)} {pane : PaneSummary}
    (h : places.Perm (placesOf s pane)) : places = placesOf s pane := by
  unfold placesOf at h ⊢
  by_cases hshown : Shown s pane
  · rw [if_pos hshown] at h ⊢
    exact List.perm_singleton.mp h
  · rw [if_neg hshown] at h ⊢
    exact List.perm_nil.mp h

theorem build_fair (hits : Text → Text → Bool) (h : Joined s) :
    ∃ view, s.build hits = some view ∧ Fair s view := by
  obtain ⟨every, hevery, -⟩ := placed_buildSpaces h s.rows
  obtain ⟨spaces, hspaces, hperm⟩ :=
    placed_buildSpaces h (s.rows.filter fun row => row.paneId ∉ s.pinned)
  have hall := hperm.trans (placedRows_perm h)
  have hplaces : ∀ pane ∈ s.panes,
      ((placed spaces).filter fun place => place.2.2 = pane.paneId) = placesOf s pane := by
    intro pane hpane
    have hfilter := hall.filter fun place => decide (place.2.2 = pane.paneId)
    rw [shownPlaces_eq h hpane] at hfilter
    exact perm_placesOf hfilter
  have hsub := narrow_sublist hits spaces s.search
  have hsome : ∃ found, s.searchMatches hits s.rows = some found := by
    unfold searchMatches
    rw [hevery]
    split
    · exact ⟨_, rfl⟩
    · exact ⟨_, rfl⟩
  obtain ⟨found, hfound⟩ := hsome
  unfold build
  dsimp only
  rw [hfound, hspaces]
  refine ⟨_, rfl, ?_, ?_, ?_⟩
  · intro pane hpane
    rw [← hplaces pane hpane]
    exact hsub.filter _
  · intro hsearch pane hpane
    rw [← hplaces pane hpane]
    simp [narrow, hsearch]
  · intro place hplace
    obtain ⟨pane, hpane, rfl⟩ := List.mem_map.mp (hall.subset (hsub.subset hplace))
    obtain ⟨hpane, hshown⟩ := List.mem_filter.mp hpane
    exact ⟨pane, hpane, of_decide_eq_true hshown, rfl⟩

end Panes

theorem list_keeps (hits : Text → Text → Bool) (hostId : Text) (es : List Event)
    (hkeeps : ∀ s e t, Occurs (Services.step hostId) .start es s e t → Keeps s e) (s : Services)
    (hvisits : Visits (Services.step hostId) .start es s) :
    Joined s.list ∧ ∃ view, s.list.build hits = some view ∧ Fair s.list view := by
  have hjoined := joined_of_agree (agree_visits hkeeps hvisits)
  exact ⟨hjoined, build_fair hits hjoined⟩

def paneOf (paneId tabId workspaceId : Text) : PaneSummary where
  paneId := paneId
  workspaceId := workspaceId
  tabId := tabId
  terminalId := []
  label := []
  title := []
  cwd := []
  focused := false
  agent := none
  agentStatus := []
  revision := 0
  viewportRows := 24

/-- A pane whose tab no update has named yet. -/
def earlyPane : List Event :=
  [.snapshot ⟨[workspaceOf "a".toList], [tabOf "t".toList "a".toList],
      [paneOf "p".toList "t".toList "a".toList], []⟩,
    .update ⟨.paneCreated, some (paneOf "q".toList "u".toList "a".toList), none, none⟩]

theorem list_keeps_early : ∃ s,
    Visits (Services.step "h".toList) .start earlyPane s ∧ s.list.panes.length = 2 ∧
      Joined s.list ∧ ∃ view, s.list.build (fun _ _ => false) = some view ∧ Fair s.list view := by
  have hlast : (run (Services.step "h".toList) .start earlyPane).any (fun s =>
      decide (s.list.panes.length = 2)) = true := by decide
  obtain ⟨s, hs, hp⟩ := (Option.any_eq_true _ _).mp hlast
  have hvisits := visits_end hs
  refine ⟨s, hvisits, of_decide_eq_true hp, list_keeps _ "h".toList earlyPane ?_ s hvisits⟩
  rintro u e v ⟨pre, post, hes, -, -⟩
  have hmem : e ∈ earlyPane := by
    rw [hes]
    simp
  obtain rfl | hmem := List.mem_cons.mp hmem
  · have hdistinct : ∀ {l : List Text}, decide l.Nodup = true → l.Nodup := of_decide_eq_true
    exact ⟨hdistinct (by decide), hdistinct (by decide), hdistinct (by decide)⟩
  · cases List.mem_singleton.mp hmem
    trivial

/-- It is under no tab. -/
theorem early_pane_hidden :
    ¬∀ (hits : Text → Text → Bool) hostId es s, Visits (Services.step hostId) .start es s →
      ∃ view, s.list.build hits = some view ∧ ∀ pane ∈ s.list.panes,
        ((placed view.spaces).filter fun place => place.2.2 = pane.paneId).length = 1 := by
  intro hall
  have hlast : (run (Services.step "h".toList) .start earlyPane).any (fun s =>
      (s.list.build fun _ _ => false).any fun view =>
        decide (∃ pane ∈ s.list.panes,
          ((placed view.spaces).filter fun place => place.2.2 = pane.paneId).length ≠ 1)) = true := by
    decide
  obtain ⟨s, hs, hview⟩ := (Option.any_eq_true _ _).mp hlast
  obtain ⟨view, hbuild, hp⟩ := (Option.any_eq_true _ _).mp hview
  obtain ⟨pane, hpane, hne⟩ := of_decide_eq_true hp
  obtain ⟨view', hbuild', hone⟩ := hall _ _ _ s (visits_end hs)
  cases hbuild.symm.trans hbuild'
  exact hne (hone pane hpane)

end HerdrMobile.App.Places
