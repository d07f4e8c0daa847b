import HerdrMobile.Lib.Groups
import HerdrMobile.Proto.Payloads
import Mathlib.Data.List.Perm.Subperm

/-!
# The groups of workspaces

The workspaces of one repository stand under the first of them that is not a linked worktree.
The indices are collected in a hash table by the private key of the repository, and the groups
are taken from it in any order.
-/
namespace HerdrMobile.Host.Spaces

open HerdrMobile.Lib.Groups HerdrMobile.Proto.Messages
open HerdrMobile.Proto.Payloads (WorkspaceSummary)

set_option autoImplicit false

structure RawWorktree where
  repoName : Text
  isLinkedWorktree : Bool
  repoKey : Option Text

structure RawWorkspace where
  workspaceId : Text
  label : Text
  focused : Bool
  worktree : Option RawWorktree

def RawWorkspace.repoKey (w : RawWorkspace) : Option Text := w.worktree.bind RawWorktree.repoKey

/-- A worktree that is not a linked one. -/
def RawWorkspace.isParent (w : RawWorkspace) : Bool :=
  w.worktree.any fun worktree => !worktree.isLinkedWorktree

def mapWorkspace (w : RawWorkspace) : WorkspaceSummary where
  workspaceId := w.workspaceId
  name := w.label
  focused := w.focused
  repoName := w.worktree.map RawWorktree.repoName
  isLinkedWorktree := w.worktree.any RawWorktree.isLinkedWorktree
  spaceId := none

section Ids

variable (workspaces : List RawWorkspace)

def keyAt (idx : Nat) : Option Text := workspaces[idx]?.bind RawWorkspace.repoKey

def membersByKey : List (Text × List Nat) :=
  groups (keyAt workspaces) (List.range workspaces.length)

/-- What every member of a group gets, if the group is eligible. -/
def groupId (members : List Nat) : Option Text :=
  if members.length < 2 then none
  else
    (members.find? fun idx => workspaces[idx]?.any RawWorkspace.isParent).bind fun parent =>
      workspaces[parent]?.map RawWorkspace.workspaceId

/-- `out[idx] = id` for each member. -/
def assign (out : List (Option Text)) (members : List Nat) : List (Option Text) :=
  match groupId workspaces members with
  | none => out
  | some id => members.foldl (fun out idx => out.set idx (some id)) out

/-- `values` are the groups of `membersByKey` in the order of the iteration. -/
def spaceIds (values : List (List Nat)) : List (Option Text) :=
  values.foldl (assign workspaces) (List.replicate workspaces.length none)

def mapWorkspaces (values : List (List Nat)) : List WorkspaceSummary :=
  List.zipWith (fun workspace spaceId => { mapWorkspace workspace with spaceId := spaceId })
    workspaces (spaceIds workspaces values)

/-- An order in which the hash table can give its groups. -/
def Iterates (values : List (List Nat)) : Prop :=
  values.Perm ((membersByKey workspaces).map Prod.snd)

end Ids

section Law

variable (workspaces : List RawWorkspace)

/-- The first workspace with the key that is not a linked worktree. -/
def IsParentOf (key : Text) (parent : RawWorkspace) : Prop :=
  ∃ p : Nat, workspaces[p]? = some parent ∧ parent.repoKey = some key ∧ parent.isParent = true ∧
    ∀ q (v : RawWorkspace), q < p → workspaces[q]? = some v → v.repoKey = some key →
      v.isParent = false

/-- Another workspace than the `i`-th has the key. -/
def Shared (i : Nat) (key : Text) : Prop :=
  ∃ j, ∃ v : RawWorkspace, j ≠ i ∧ workspaces[j]? = some v ∧ v.repoKey = some key

/-- Every workspace has the id of its group's parent, and those of no group have none. -/
structure Grouping (ids : List (Option Text)) : Prop where
  length : ids.length = workspaces.length
  given : ∀ i (w : RawWorkspace), workspaces[i]? = some w →
    ((∃ id, ids[i]? = some (some id)) ↔ ∃ key, w.repoKey = some key ∧ Shared workspaces i key ∧
      ∃ v ∈ workspaces, v.repoKey = some key ∧ v.isParent = true)
  parent : ∀ (i : Nat) (w : RawWorkspace) (id : Text),
    workspaces[i]? = some w → ids[i]? = some (some id) →
      ∃ key parent, w.repoKey = some key ∧ IsParentOf workspaces key parent ∧
        id = parent.workspaceId

/-- The workspaces with other names of their repositories. -/
def rename (names : Nat → Text) : List RawWorkspace :=
  workspaces.mapIdx fun i w =>
    { w with worktree := w.worktree.map fun t => { t with repoName := names i } }

end Law

variable {workspaces : List RawWorkspace} {values : List (List Nat)} {members : List Nat}
  {out : List (Option Text)} {i : Nat} {key id : Text} {w : RawWorkspace}

/-- The indices of the workspaces with the key. -/
def memberIndices (workspaces : List RawWorkspace) (key : Text) : List Nat :=
  sharing (keyAt workspaces) (List.range workspaces.length) key

theorem mem_memberIndices : i ∈ memberIndices workspaces key ↔ keyAt workspaces i = some key := by
  rw [memberIndices, mem_sharing, List.mem_range, and_iff_right_iff_imp]
  intro h
  obtain ⟨w, hw, -⟩ := Option.bind_eq_some_iff.mp h
  exact (List.getElem?_eq_some_iff.mp hw).1

theorem keyAt_iff : keyAt workspaces i = some key ↔
    ∃ v, workspaces[i]? = some v ∧ v.repoKey = some key := Option.bind_eq_some_iff

theorem mem_values (h : Iterates workspaces values) : members ∈ values ↔
    ∃ key, members = memberIndices workspaces key ∧ members ≠ [] := by
  have hspec := (groups_spec (keyAt workspaces) (List.range workspaces.length)).2
  rw [h.mem_iff, List.mem_map]
  constructor
  · rintro ⟨⟨key, members'⟩, hmem, rfl⟩
    exact ⟨key, (hspec key members').mp hmem⟩
  · rintro ⟨key, hmembers⟩
    exact ⟨(key, members), (hspec key members).mpr hmembers, rfl⟩

theorem length_assign : (assign workspaces out members).length = out.length := by
  unfold assign
  split
  · rfl
  · rename_i id hid
    clear hid
    induction members generalizing out with
    | nil => rfl
    | cons idx members ih => exact (@ih (out.set idx (some id))).trans (List.length_set ..)

theorem foldl_set_of_notMem (h : i ∉ members) :
    (members.foldl (fun out idx => out.set idx (some id)) out)[i]? = out[i]? := by
  induction members generalizing out with
  | nil => rfl
  | cons idx members ih =>
    have hne : idx ≠ i := fun heq => h (heq ▸ List.mem_cons_self)
    have hrest : i ∉ members := fun hmem => h (List.mem_cons_of_mem _ hmem)
    rw [List.foldl_cons, ih hrest, List.getElem?_set_ne hne]

theorem foldl_set_of_mem (h : i ∈ members) (hlen : i < out.length) :
    (members.foldl (fun out idx => out.set idx (some id)) out)[i]? = some (some id) := by
  induction members generalizing out with
  | nil => cases h
  | cons idx members ih =>
    rw [List.foldl_cons]
    by_cases hrest : i ∈ members
    · exact ih hrest (by rwa [List.length_set])
    · obtain rfl | h := List.mem_cons.mp h
      · rw [foldl_set_of_notMem hrest, List.getElem?_set_self hlen]
      · exact absurd h hrest

theorem assign_of_notMem (h : i ∉ members) : (assign workspaces out members)[i]? = out[i]? := by
  unfold assign
  split
  · rfl
  · exact foldl_set_of_notMem h

theorem assign_of_mem (h : i ∈ members) (hlen : i < out.length)
    (hout : out[i]? = some none ∨ out[i]? = some (groupId workspaces members)) :
    (assign workspaces out members)[i]? = some (groupId workspaces members) := by
  unfold assign
  split
  · next hnone =>
    rw [hnone] at hout ⊢
    exact hout.elim id id
  · next id hid =>
    rw [hid]
    exact foldl_set_of_mem h hlen

/-- An index is in one group only, so the groups before and after it change nothing of it. -/
theorem foldl_assign (hi : i ∈ members) (hlen : i < out.length)
    (honly : ∀ members' ∈ values, i ∈ members' → members' = members)
    (hout : out[i]? = some none ∨ out[i]? = some (groupId workspaces members)) :
    (values.foldl (assign workspaces) out)[i]? =
      if members ∈ values then some (groupId workspaces members) else out[i]? := by
  induction values generalizing out with
  | nil => rfl
  | cons members' values ih =>
    have honly' : ∀ m ∈ values, i ∈ m → m = members :=
      fun m hm => honly m (List.mem_cons_of_mem _ hm)
    have hlen' : i < (assign workspaces out members').length := by rwa [length_assign]
    rw [List.foldl_cons]
    by_cases hmem : i ∈ members'
    · obtain rfl := honly members' List.mem_cons_self hmem
      have hat := assign_of_mem hmem hlen hout
      rw [ih hlen' honly' (.inr hat), hat, if_pos List.mem_cons_self, ite_self]
    · have hat : (assign workspaces out members')[i]? = out[i]? := assign_of_notMem hmem
      have hne : ¬members = members' := by
        rintro rfl
        exact hmem hi
      rw [ih hlen' honly' (by rwa [hat]), hat]
      simp only [List.mem_cons, hne, false_or]

theorem foldl_assign_alone (halone : ∀ members ∈ values, i ∉ members) :
    (values.foldl (assign workspaces) out)[i]? = out[i]? := by
  induction values generalizing out with
  | nil => rfl
  | cons members values ih =>
    rw [List.foldl_cons, ih fun m hm => halone m (List.mem_cons_of_mem _ hm),
      assign_of_notMem (halone members List.mem_cons_self)]

theorem length_spaceIds : (spaceIds workspaces values).length = workspaces.length := by
  have hfold : ∀ out, (values.foldl (assign workspaces) out).length = out.length := by
    induction values with
    | nil => exact fun _ => rfl
    | cons members values ih => exact fun out => (ih _).trans length_assign
  exact (hfold _).trans List.length_replicate

theorem spaceIds_at (h : Iterates workspaces values) (hw : workspaces[i]? = some w) :
    (spaceIds workspaces values)[i]? =
      some (w.repoKey.bind fun key => groupId workspaces (memberIndices workspaces key)) := by
  have hi : i < workspaces.length := (List.getElem?_eq_some_iff.mp hw).1
  have hstart : (List.replicate workspaces.length (none : Option Text))[i]? = some none :=
    List.getElem?_replicate_of_lt hi
  have hkeyAt : keyAt workspaces i = w.repoKey := by rw [keyAt, hw, Option.bind_some]
  cases hkey : w.repoKey with
  | none =>
    refine (foldl_assign_alone fun members hm hin => ?_).trans hstart
    obtain ⟨key, rfl, -⟩ := (mem_values h).mp hm
    rw [mem_memberIndices, hkeyAt, hkey] at hin
    cases hin
  | some key =>
    have hin : i ∈ memberIndices workspaces key := by rw [mem_memberIndices, hkeyAt, hkey]
    have hvalue : memberIndices workspaces key ∈ values :=
      (mem_values h).mpr ⟨key, rfl, List.ne_nil_of_mem hin⟩
    have hlen : i < (List.replicate workspaces.length (none : Option Text)).length := by
      rwa [List.length_replicate]
    refine (foldl_assign hin hlen ?_ (.inl hstart)).trans (if_pos hvalue)
    intro members hm hin'
    obtain ⟨key', rfl, -⟩ := (mem_values h).mp hm
    rw [mem_memberIndices] at hin hin'
    rw [Option.some.inj (hin.symm.trans hin')]

theorem two_le_length {l : List Nat} (hl : l.Nodup) (hi : i ∈ l) :
    2 ≤ l.length ↔ ∃ j ∈ l, j ≠ i := by
  constructor
  · intro hlen
    by_contra hall
    have hsub : l ⊆ [i] := by
      intro j hj
      by_contra hne
      exact hall ⟨j, hj, fun heq => hne (List.mem_singleton.mpr heq)⟩
    have hle := (hl.subperm hsub).length_le
    rw [List.length_singleton] at hle
    omega
  · rintro ⟨j, hj, hne⟩
    have hpair : [j, i] ⊆ l := by
      intro k hk
      obtain rfl | hk := List.mem_cons.mp hk
      · exact hj
      · exact List.mem_singleton.mp hk ▸ hi
    have hnodup : [j, i].Nodup := by simp [hne]
    exact (hnodup.subperm hpair).length_le

/-- The first index of the group with the parent's mark is the parent's. -/
theorem find_parent {p : Nat} :
    ((memberIndices workspaces key).find? fun idx =>
      workspaces[idx]?.any RawWorkspace.isParent) = some p ↔
    ∃ parent, workspaces[p]? = some parent ∧ parent.repoKey = some key ∧ parent.isParent = true ∧
      ∀ q (v : RawWorkspace), q < p → workspaces[q]? = some v → v.repoKey = some key →
        v.isParent = false := by
  have hat : ∀ q, (keyAt workspaces q = some key ∧
      workspaces[q]?.any RawWorkspace.isParent = true) ↔
        ∃ v, workspaces[q]? = some v ∧ v.repoKey = some key ∧ v.isParent = true := by
    intro q
    rw [keyAt_iff]
    cases workspaces[q]? with
    | none => simp
    | some v => simp
  rw [memberIndices, sharing, List.find?_filter, List.find?_range_eq_some]
  simp only [decide_eq_true_eq, Bool.not_eq_true', decide_eq_false_iff_not, List.mem_range]
  constructor
  · rintro ⟨hp, -, hbefore⟩
    obtain ⟨parent, hparent, hkey, hmark⟩ := (hat p).mp hp
    refine ⟨parent, hparent, hkey, hmark, fun q v hq hv hv' => ?_⟩
    cases hmark' : v.isParent with
    | false => rfl
    | true => exact absurd ((hat q).mpr ⟨v, hv, hv', hmark'⟩) (hbefore q hq)
  · rintro ⟨parent, hparent, hkey, hmark, hbefore⟩
    refine ⟨(hat p).mpr ⟨parent, hparent, hkey, hmark⟩, ?_, fun q hq hfirst => ?_⟩
    · exact (List.getElem?_eq_some_iff.mp hparent).1
    · obtain ⟨v, hv, hv', hmark'⟩ := (hat q).mp hfirst
      rw [hbefore q v hq hv hv'] at hmark'
      cases hmark'

theorem groupId_iff (hw : workspaces[i]? = some w) (hkey : w.repoKey = some key) :
    groupId workspaces (memberIndices workspaces key) = some id ↔
      Shared workspaces i key ∧ ∃ parent, IsParentOf workspaces key parent ∧
        id = parent.workspaceId := by
  have hin : i ∈ memberIndices workspaces key :=
    (mem_memberIndices).mpr ((keyAt_iff).mpr ⟨w, hw, hkey⟩)
  have hnodup : (memberIndices workspaces key).Nodup := List.nodup_range.filter _
  have hother : (∃ j ∈ memberIndices workspaces key, j ≠ i) ↔ Shared workspaces i key := by
    constructor
    · rintro ⟨j, hj, hne⟩
      obtain ⟨v, hv⟩ := (keyAt_iff).mp ((mem_memberIndices).mp hj)
      exact ⟨j, v, hne, hv⟩
    · rintro ⟨j, v, hne, hv⟩
      exact ⟨j, (mem_memberIndices).mpr ((keyAt_iff).mpr ⟨v, hv⟩), hne⟩
  rw [← hother, ← two_le_length hnodup hin, groupId]
  by_cases hlone : (memberIndices workspaces key).length < 2
  · rw [if_pos hlone]
    constructor
    · intro h
      cases h
    · rintro ⟨hlen, -⟩
      omega
  · rw [if_neg hlone, Option.bind_eq_some_iff]
    refine Iff.trans ?_ (and_iff_right (by omega)).symm
    constructor
    · rintro ⟨p, hp, hid⟩
      obtain ⟨parent, hparent, hrest⟩ := (find_parent).mp hp
      rw [hparent] at hid
      exact ⟨parent, ⟨p, hparent, hrest⟩, (Option.some.inj hid).symm⟩
    · rintro ⟨parent, ⟨p, hparent, hrest⟩, rfl⟩
      refine ⟨p, (find_parent).mpr ⟨parent, hparent, hrest⟩, ?_⟩
      rw [hparent]
      rfl

/-- Of the members that are not linked worktrees one is the first. -/
theorem exists_parent : (∃ parent, IsParentOf workspaces key parent) ↔
    ∃ v ∈ workspaces, v.repoKey = some key ∧ v.isParent = true := by
  constructor
  · rintro ⟨parent, p, hparent, hkey, hmark, -⟩
    exact ⟨parent, List.mem_of_getElem? hparent, hkey, hmark⟩
  · rintro ⟨v, hv, hkey, hmark⟩
    obtain ⟨i, hi⟩ := List.mem_iff_getElem?.mp hv
    have hin : i ∈ memberIndices workspaces key :=
      (mem_memberIndices).mpr ((keyAt_iff).mpr ⟨v, hi, hkey⟩)
    have hsome : ((memberIndices workspaces key).find? fun idx =>
        workspaces[idx]?.any RawWorkspace.isParent).isSome := by
      rw [List.find?_isSome]
      refine ⟨i, hin, ?_⟩
      rw [hi]
      exact hmark
    obtain ⟨p, hp⟩ := Option.isSome_iff_exists.mp hsome
    obtain ⟨parent, hparent⟩ := (find_parent).mp hp
    exact ⟨parent, p, hparent⟩

theorem spaceIds_iff (h : Iterates workspaces values) (hw : workspaces[i]? = some w) :
    (spaceIds workspaces values)[i]? = some (some id) ↔
      ∃ key, w.repoKey = some key ∧ Shared workspaces i key ∧
        ∃ parent, IsParentOf workspaces key parent ∧ id = parent.workspaceId := by
  rw [spaceIds_at h hw, Option.some.injEq, Option.bind_eq_some_iff]
  exact exists_congr fun key => and_congr_right fun hkey => groupId_iff hw hkey

theorem spaceIds_grouping (h : Iterates workspaces values) :
    Grouping workspaces (spaceIds workspaces values) where
  length := length_spaceIds
  given i w hw := by
    constructor
    · rintro ⟨id, hid⟩
      obtain ⟨key, hkey, hshared, parent, hparent, -⟩ := (spaceIds_iff h hw).mp hid
      exact ⟨key, hkey, hshared, (exists_parent).mp ⟨parent, hparent⟩⟩
    · rintro ⟨key, hkey, hshared, hmember⟩
      obtain ⟨parent, hparent⟩ := (exists_parent).mpr hmember
      exact ⟨_, (spaceIds_iff h hw).mpr ⟨key, hkey, hshared, parent, hparent, rfl⟩⟩
  parent i w id hw hid := by
    obtain ⟨key, hkey, -, parent, hparent, heq⟩ := (spaceIds_iff h hw).mp hid
    exact ⟨key, parent, hkey, hparent, heq⟩

theorem mapWorkspaces_spaceIds :
    (mapWorkspaces workspaces values).map WorkspaceSummary.spaceId =
      spaceIds workspaces values := by
  have hlen : (spaceIds workspaces values).length = workspaces.length := length_spaceIds
  unfold mapWorkspaces
  generalize spaceIds workspaces values = ids at hlen ⊢
  rw [List.map_zipWith]
  induction workspaces generalizing ids with
  | nil => rw [List.length_eq_zero_iff.mp hlen, List.zipWith_nil_left]
  | cons workspace workspaces ih =>
    cases ids with
    | nil => cases hlen
    | cons spaceId ids => rw [List.zipWith_cons_cons, ih ids (Nat.succ.inj hlen)]

theorem mapWorkspaces_order :
    (mapWorkspaces workspaces values).map WorkspaceSummary.workspaceId =
      workspaces.map RawWorkspace.workspaceId := by
  have hlen : (spaceIds workspaces values).length = workspaces.length := length_spaceIds
  unfold mapWorkspaces
  generalize spaceIds workspaces values = ids at hlen ⊢
  rw [List.map_zipWith]
  induction workspaces generalizing ids with
  | nil => rfl
  | cons workspace workspaces ih =>
    cases ids with
    | nil => cases hlen
    | cons spaceId ids =>
      rw [List.zipWith_cons_cons, ih ids (Nat.succ.inj hlen), List.map_cons]
      rfl

section Names

variable (names : Nat → Text)

theorem rename_at : (rename workspaces names)[i]? = workspaces[i]?.map fun w =>
    { w with worktree := w.worktree.map fun t => { t with repoName := names i } } := by
  rw [rename, List.getElem?_mapIdx]

theorem length_rename : (rename workspaces names).length = workspaces.length :=
  List.length_mapIdx

theorem keyAt_rename : keyAt (rename workspaces names) = keyAt workspaces := by
  funext i
  rw [keyAt, keyAt, rename_at]
  cases hw : workspaces[i]? with
  | none => rfl
  | some w =>
    cases ht : w.worktree with
    | none => simp [RawWorkspace.repoKey, ht]
    | some t => simp [RawWorkspace.repoKey, ht]

theorem groupId_rename :
    groupId (rename workspaces names) members = groupId workspaces members := by
  have hmark : ∀ idx : Nat, (rename workspaces names)[idx]?.any RawWorkspace.isParent =
      workspaces[idx]?.any RawWorkspace.isParent := by
    intro idx
    rw [rename_at]
    cases hw : workspaces[idx]? with
    | none => rfl
    | some w => cases ht : w.worktree <;> simp [RawWorkspace.isParent, ht]
  have hid : ∀ idx : Nat, (rename workspaces names)[idx]?.map RawWorkspace.workspaceId =
      workspaces[idx]?.map RawWorkspace.workspaceId := by
    intro idx
    rw [rename_at, Option.map_map]
    rfl
  simp only [groupId, hmark, hid]

theorem memberIndices_rename :
    memberIndices (rename workspaces names) key = memberIndices workspaces key := by
  rw [memberIndices, memberIndices, keyAt_rename, length_rename]

/-- The groups come from the keys alone, in whatever order the table gives them. -/
theorem spaceIds_rename {values' : List (List Nat)} (h : Iterates workspaces values)
    (h' : Iterates (rename workspaces names) values') :
    spaceIds (rename workspaces names) values' = spaceIds workspaces values := by
  refine List.ext_getElem? fun i => ?_
  cases hw : workspaces[i]? with
  | none =>
    have hout : workspaces.length ≤ i := List.getElem?_eq_none_iff.mp hw
    rw [List.getElem?_eq_none, List.getElem?_eq_none]
    · rwa [length_spaceIds]
    · rwa [length_spaceIds, length_rename]
  | some w =>
    have hw' : (rename workspaces names)[i]? = _ := rename_at names
    rw [hw, Option.map_some] at hw'
    rw [spaceIds_at h' hw', spaceIds_at h hw]
    simp only [groupId_rename, memberIndices_rename]
    cases ht : w.worktree <;> simp [RawWorkspace.repoKey, ht]

end Names

/-- Every list of workspaces keeps its order and is grouped by the keys, whatever the names and
the order of the table. -/
theorem space_ids_grouped (workspaces : List RawWorkspace) (values : List (List Nat))
    (h : Iterates workspaces values) :
    Grouping workspaces (spaceIds workspaces values) ∧
      (mapWorkspaces workspaces values).map WorkspaceSummary.workspaceId =
        workspaces.map RawWorkspace.workspaceId ∧
      (mapWorkspaces workspaces values).map WorkspaceSummary.spaceId =
        spaceIds workspaces values ∧
      ∀ names values', Iterates (rename workspaces names) values' →
        spaceIds (rename workspaces names) values' = spaceIds workspaces values :=
  ⟨spaceIds_grouping h, mapWorkspaces_order, mapWorkspaces_spaceIds,
    fun names _ h' => spaceIds_rename names h h'⟩

/-- A linked worktree before its parent, a repository of the same name and a plain directory. -/
def worktrees : List RawWorkspace :=
  [⟨['w', '1'], [], false, some ⟨['a', 'p', 'p'], true, some ['k']⟩⟩,
    ⟨['w', '2'], [], true, some ⟨['a', 'p', 'p'], false, some ['k']⟩⟩,
    ⟨['w', '3'], [], false, some ⟨['a', 'p', 'p'], false, some ['m']⟩⟩,
    ⟨['w', '4'], [], false, none⟩]

theorem space_ids_grouped_worktrees :
    spaceIds worktrees [[2], [0, 1]] = 
        [some ['w', '2'], some ['w', '2'], none, none] ∧
      Grouping worktrees (spaceIds worktrees [[2], [0, 1]]) :=
  ⟨by decide, (space_ids_grouped worktrees [[2], [0, 1]] (List.Perm.swap ..)).1⟩

end HerdrMobile.Host.Spaces
