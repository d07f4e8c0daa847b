import HerdrMobile.App.AgentStatus
import HerdrMobile.App.CodeUnits
import HerdrMobile.App.Places
import HerdrMobile.Lib.Rfc3339

/-!
# The sections by priority

The agent list also shows its agents in sections: those that are pinned, those that wait for a
person, and the others by their status. It orders the times in a section as texts, and the
notification log orders them as instants.
-/
namespace HerdrMobile.App.Priority

open HerdrMobile.Lib.Run HerdrMobile.Lib.Ordered HerdrMobile.Lib.Rfc3339
open HerdrMobile.Proto.Messages HerdrMobile.Proto.Tree HerdrMobile.App.AgentList
open HerdrMobile.App.AgentStatus (Times compareAt)
open HerdrMobile.App.PairingText (codeUnits)
open HerdrMobile.App.CodeUnits (codeUnits_injective)

set_option autoImplicit false

/-- `String.compareTo`. -/
def compareTo (a b : Text) : Ordering :=
  if codeUnits a < codeUnits b then .lt
  else if codeUnits b < codeUnits a then .gt
  else .eq

/-- `DateTime.tryParse` of a text of the form of RFC 3339, in microseconds. The separator is no
`t`, and numbers that are out of range run over. -/
def tryParse (t : Text) : Option Int :=
  match read t with
  | none => none
  | some s =>
    if s.separator = 't' then none else some (s.seconds * 10 ^ 6 + leading 6 s.fraction)

theorem compareTo_self (t : Text) : compareTo t t = .eq := by
  unfold compareTo
  rw [if_neg (lt_irrefl _), if_neg (lt_irrefl _)]

def dartTimes : Times where
  tryParse := tryParse
  compareTo := compareTo
  compareTo_self := compareTo_self

structure PrioritySection where
  title : Text
  rows : List AgentRow
  deriving DecidableEq

/-- Oldest first, and no time last. -/
def ageCompare (a b : AgentRow) : Int :=
  match a.at, b.at with
  | none, none => 0
  | none, some _ => 1
  | some _, none => -1
  | some x, some y =>
    match compareTo x y with
    | .lt => -1
    | .eq => 0
    | .gt => 1

def needsYouCompare (a b : AgentRow) : Int :=
  let rankA : Int := if a.status = .blocked then 0 else 1
  let rankB : Int := if b.status = .blocked then 0 else 1
  if rankA ≠ rankB then rankA - rankB else ageCompare a b

/-- What a comparison has to be for a sort. -/
structure Consistent (compare : AgentRow → AgentRow → Int) : Prop where
  total : ∀ a b, compare a b ≤ 0 ∨ compare b a ≤ 0
  trans : ∀ a b c, compare a b ≤ 0 → compare b c ≤ 0 → compare a c ≤ 0

/-- `List.sort`: nothing is promised of the order of rows that tie. -/
structure Sorter where
  sort : (AgentRow → AgentRow → Int) → List AgentRow → List AgentRow
  perm : ∀ compare rows, (sort compare rows).Perm rows
  sorted : ∀ compare rows, Consistent compare →
    (sort compare rows).Pairwise fun a b => compare a b ≤ 0

def agentOf : PaneRow → Option AgentRow
  | .agent row => some row
  | .shell _ => none

/-- A section without rows is left out. -/
def sectionOf (title : Text) (rows : List AgentRow) : List PrioritySection :=
  if rows.isEmpty then [] else [⟨title, rows⟩]

section Build

variable (sorter : Sorter)

def bucket (rows : List AgentRow) (status : AgentStatusKind) : List AgentRow :=
  sorter.sort ageCompare (rows.filter fun row => row.status = status)

def buildPrioritySections (attention live : List AgentRow) : List PrioritySection :=
  sectionOf "NEEDS YOU".toList (sorter.sort needsYouCompare attention) ++
    sectionOf "WORKING".toList (bucket sorter live .working) ++
    sectionOf "IDLE".toList (bucket sorter live .idle) ++
    sectionOf "UNKNOWN".toList (bucket sorter live .unknown)

end Build

section View

variable (s : AgentListService)

def attentionRows : List AgentRow :=
  (s.rows.filter AgentListService.isAttentionRow).filterMap agentOf

def liveRows : List AgentRow := (s.rows.filter AgentListService.isLiveRow).filterMap agentOf

def pinnedAgents : List AgentRow :=
  (s.pinned.filterMap fun id => s.rows.find? fun row => row.paneId = id).filterMap agentOf

def unpinned (rows : List AgentRow) : List AgentRow := rows.filter fun row => row.paneId ∉ s.pinned

/-- The sections behind that of the pins. -/
def statusSections (sorter : Sorter) : List PrioritySection :=
  buildPrioritySections sorter (unpinned s (attentionRows s)) (unpinned s (liveRows s))

def prioritySections (sorter : Sorter) : List PrioritySection :=
  sectionOf "PINNED".toList (pinnedAgents s) ++ statusSections s sorter

/-- Every agent that has a row. -/
def agentRows : List AgentRow := s.rows.filterMap agentOf

end View

/-- Blocked, done, and the rest. -/
def rank : AgentStatusKind → Nat
  | .blocked => 0
  | .done => 1
  | _ => 2

/-- The first row may come before the second one. -/
def Older (a b : AgentRow) : Prop :=
  match a.at, b.at with
  | _, none => True
  | none, some _ => False
  | some x, some y =>
    (∀ p q, instantOf x = some p → instantOf y = some q → p ≤ q) ∧
      compareAt dartTimes (some x) (some y) ≠ .gt

structure Law (sorter : Sorter) (s : AgentListService) : Prop where
  distinct : ((agentRows s).map AgentRow.paneId).Nodup
  placed : ((prioritySections s sorter).flatMap PrioritySection.rows).Perm (agentRows s)
  pinned : (pinnedAgents s).Perm ((agentRows s).filter fun row => row.paneId ∈ s.pinned)
  ranked : ((statusSections s sorter).flatMap PrioritySection.rows).Pairwise
    fun a b => rank a.status ≤ rank b.status
  aged : ∀ part ∈ statusSections s sorter, part.rows.Pairwise
    fun a b => a.status = b.status → Older a b

/-- The panes are in a map, and the pins in a set. -/
structure Keyed (s : AgentListService) : Prop where
  panes : Distinct PaneSummary.paneId s.panes
  pins : s.pinned.Nodup

/-- Every time is a valid one. -/
def Timed (s : AgentListService) : Prop :=
  ∀ row ∈ agentRows s, ∀ t, row.at = some t → (instantOf t).isSome = true

/-- The text comes first and the instant later. -/
def misordered (x y : Text) : Bool :=
  match instantOf x, instantOf y with
  | some p, some q => compareTo x y = .lt && q < p
  | _, _ => false

/-- No two times of one status are ordered one way as texts and the other way as instants. -/
def InOrder (s : AgentListService) : Prop :=
  ∀ a ∈ unpinned s (agentRows s), ∀ b ∈ unpinned s (agentRows s), a.status = b.status →
    ∀ x ∈ a.at, ∀ y ∈ b.at, misordered x y = false

section Times

variable {x y : Text}

theorem compareTo_le : compareTo x y ≠ .gt ↔ codeUnits x ≤ codeUnits y := by
  unfold compareTo
  split
  · next h => exact iff_of_true (by decide) (le_of_lt h)
  · split
    · next h => exact iff_of_false (fun hne => hne rfl) (not_le.mpr h)
    · next h => exact iff_of_true (by decide) (not_lt.mp h)

theorem eq_or_lt (h : compareTo x y ≠ .gt) : x = y ∨ compareTo x y = .lt := by
  unfold compareTo at h ⊢
  split
  · exact .inr rfl
  · next hlt =>
    have hle := (compareTo_le).mp h
    exact .inl (codeUnits_injective (le_antisymm hle (not_lt.mp hlt)))

theorem instantOf_eq_some {p : ℚ} :
    instantOf x = some p ↔ ∃ s, read x = some s ∧ s.valid = true ∧ s.instant = p := by
  unfold instantOf
  cases read x with
  | none => simp
  | some s =>
    dsimp only
    split
    · next h => simp [h]
    · next h => simp [h]

theorem misordered_false {p q : ℚ} (hx : instantOf x = some p) (hy : instantOf y = some q) :
    misordered x y = false ↔ (compareTo x y = .lt → p ≤ q) := by
  unfold misordered
  rw [hx, hy]
  dsimp only
  rw [Bool.and_eq_false_imp, decide_eq_true_iff, decide_eq_false_iff_not, not_lt]

/-- The notification log agrees where the texts and the instants do. -/
theorem compareAt_of_le {p q : ℚ} (hx : instantOf x = some p) (hy : instantOf y = some q)
    (hle : p ≤ q) (htext : compareTo x y ≠ .gt) :
    compareAt dartTimes (some x) (some y) ≠ .gt := by
  obtain ⟨s, hs, -, rfl⟩ := (instantOf_eq_some).mp hx
  obtain ⟨t, ht, -, rfl⟩ := (instantOf_eq_some).mp hy
  have hreadx : dartTimes.tryParse x =
      if s.separator = 't' then none
      else some (s.seconds * 10 ^ 6 + leading 6 s.fraction) := by
    show tryParse x = _
    rw [tryParse, hs]
  have hready : dartTimes.tryParse y =
      if t.separator = 't' then none
      else some (t.seconds * 10 ^ 6 + leading 6 t.fraction) := by
    show tryParse y = _
    rw [tryParse, ht]
  simp only [compareAt, Option.bind_some, hreadx, hready]
  split_ifs
  · exact htext
  · exact htext
  · exact htext
  · exact fun hgt => absurd (leading_mono 6 hle) (not_le.mpr (compare_gt_iff_gt.mp hgt))

end Times

section Compare

variable {a b c : AgentRow}

/-- No time is after every time. -/
theorem ageCompare_le : ageCompare a b ≤ 0 ↔
    ∀ y, b.at = some y → ∃ x, a.at = some x ∧ codeUnits x ≤ codeUnits y := by
  unfold ageCompare
  cases a.at with
  | none =>
    cases b.at with
    | none => exact iff_of_true le_rfl fun y hy => by cases hy
    | some y =>
      refine iff_of_false (not_le.mpr zero_lt_one) fun h => ?_
      obtain ⟨x, hx, -⟩ := h y rfl
      cases hx
  | some x =>
    cases b.at with
    | none => exact iff_of_true (neg_nonpos.mpr zero_le_one) fun y hy => by cases hy
    | some y =>
      dsimp only
      have hle := compareTo_le (x := x) (y := y)
      constructor
      · intro h z hz
        cases hz
        refine ⟨x, rfl, hle.mp fun hgt => ?_⟩
        rw [hgt] at h
        exact absurd h (by decide)
      · intro h
        obtain ⟨z, hz, hxy⟩ := h y rfl
        cases hz
        have hne := hle.mpr hxy
        cases hcompare : compareTo x y with
        | lt => decide
        | eq => decide
        | gt => exact absurd hcompare hne

theorem ageCompare_consistent : Consistent ageCompare where
  total a b := by
    rw [ageCompare_le, ageCompare_le]
    cases ha : a.at with
    | none => exact .inr fun y hy => by cases hy
    | some x =>
      cases hb : b.at with
      | none => exact .inl fun y hy => by cases hy
      | some y =>
        obtain hle | hle := le_total (codeUnits x) (codeUnits y)
        · refine .inl fun z hz => ⟨x, rfl, ?_⟩
          cases hz
          exact hle
        · refine .inr fun z hz => ⟨y, rfl, ?_⟩
          cases hz
          exact hle
  trans a b c hab hbc := by
    rw [ageCompare_le] at hab hbc ⊢
    intro z hz
    obtain ⟨y, hy, hyz⟩ := hbc z hz
    obtain ⟨x, hx, hxy⟩ := hab y hy
    exact ⟨x, hx, hxy.trans hyz⟩

theorem needsYouCompare_le : needsYouCompare a b ≤ 0 ↔
    (a.status = .blocked ∧ b.status ≠ .blocked) ∨
      ((a.status = .blocked ↔ b.status = .blocked) ∧ ageCompare a b ≤ 0) := by
  unfold needsYouCompare
  by_cases ha : a.status = .blocked
  · by_cases hb : b.status = .blocked
    · simp [ha, hb]
    · simp [ha, hb]
  · by_cases hb : b.status = .blocked
    · simp [ha, hb]
    · simp [ha, hb]

theorem needsYouCompare_consistent : Consistent needsYouCompare where
  total a b := by
    rw [needsYouCompare_le, needsYouCompare_le]
    have hage := (ageCompare_consistent).total a b
    tauto
  trans a b c hab hbc := by
    rw [needsYouCompare_le] at hab hbc ⊢
    have hage := (ageCompare_consistent).trans a b c
    tauto

end Compare

section Placed

variable {s : AgentListService} {sorter : Sorter} {row : AgentRow} {pane : PaneRow}

theorem sectionOf_rows (title : Text) (rows : List AgentRow) :
    (sectionOf title rows).flatMap PrioritySection.rows = rows := by
  cases rows with
  | nil => rfl
  | cons row rows => exact List.append_nil _

theorem mem_sectionOf {title : Text} {rows : List AgentRow} {part : PrioritySection}
    (h : part ∈ sectionOf title rows) : part.rows = rows := by
  unfold sectionOf at h
  split at h
  · cases h
  · rw [List.mem_singleton.mp h]

theorem statusSections_rows (s : AgentListService) (sorter : Sorter) :
    (statusSections s sorter).flatMap PrioritySection.rows =
      sorter.sort needsYouCompare (unpinned s (attentionRows s)) ++
        bucket sorter (unpinned s (liveRows s)) .working ++
        bucket sorter (unpinned s (liveRows s)) .idle ++
        bucket sorter (unpinned s (liveRows s)) .unknown := by
  unfold statusSections buildPrioritySections
  simp only [List.flatMap_append, sectionOf_rows]

theorem agentOf_eq_some : agentOf pane = some row ↔ pane = .agent row := by
  cases pane with
  | agent other => rw [agentOf, Option.some_inj, PaneRow.agent.injEq]
  | shell other => exact iff_of_false (fun h => by cases h) fun h => by cases h

theorem mem_agentRows : row ∈ agentRows s ↔ .agent row ∈ s.rows := by
  unfold agentRows
  rw [List.mem_filterMap]
  refine ⟨fun ⟨pane, hpane, h⟩ => ?_, fun h => ⟨_, h, rfl⟩⟩
  exact (agentOf_eq_some).mp h ▸ hpane

theorem mem_attentionRows (h : row ∈ attentionRows s) :
    row.status = .blocked ∨ row.status = .done := by
  obtain ⟨pane, hpane, hrow⟩ := List.mem_filterMap.mp h
  have hkind := (List.mem_filter.mp hpane).2
  rw [(agentOf_eq_some).mp hrow] at hkind
  simpa [AgentListService.isAttentionRow] using hkind

theorem mem_liveRows (h : row ∈ liveRows s) : row.status ≠ .blocked ∧ row.status ≠ .done := by
  obtain ⟨pane, hpane, hrow⟩ := List.mem_filterMap.mp h
  have hkind := (List.mem_filter.mp hpane).2
  rw [(agentOf_eq_some).mp hrow] at hkind
  simpa [AgentListService.isLiveRow] using hkind

/-- An agent waits for a person, or it does not. -/
theorem agentRows_perm (s : AgentListService) :
    (attentionRows s ++ liveRows s).Perm (agentRows s) := by
  have hlive : (s.rows.filter fun pane => !AgentListService.isAttentionRow pane).filterMap agentOf =
      liveRows s := by
    unfold liveRows
    induction s.rows with
    | nil => rfl
    | cons pane panes ih =>
      cases pane with
      | agent row =>
        have hkind : AgentListService.isLiveRow (.agent row) =
            !AgentListService.isAttentionRow (.agent row) := rfl
        simp only [List.filter_cons, hkind]
        split
        · rw [List.filterMap_cons, List.filterMap_cons, ih]
        · exact ih
      | shell row => exact ih
  have hsplit := (List.filter_append_perm AgentListService.isAttentionRow s.rows).filterMap agentOf
  rw [List.filterMap_append, hlive] at hsplit
  exact hsplit

/-- The agents that do not wait for a person, by their status. -/
theorem buckets_perm {rows : List AgentRow}
    (h : ∀ row ∈ rows, row.status ≠ .blocked ∧ row.status ≠ .done) :
    (bucket sorter rows .working ++ bucket sorter rows .idle ++ bucket sorter rows .unknown).Perm
      rows := by
  have hsorted : (bucket sorter rows .working ++ bucket sorter rows .idle ++
      bucket sorter rows .unknown).Perm
        ((rows.filter fun row => row.status = .working) ++
          (rows.filter fun row => row.status = .idle) ++
          (rows.filter fun row => row.status = .unknown)) :=
    ((sorter.perm _ _).append (sorter.perm _ _)).append (sorter.perm _ _)
  refine hsorted.trans ?_
  have hidle : ((rows.filter fun row => !decide (row.status = .working)).filter
      fun row => row.status = .idle) = rows.filter fun row => row.status = .idle := by
    rw [List.filter_filter]
    refine List.filter_congr fun row _ => ?_
    cases row.status <;> rfl
  have hunknown : ((rows.filter fun row => !decide (row.status = .working)).filter
      fun row => !decide (row.status = .idle)) = rows.filter fun row => row.status = .unknown := by
    rw [List.filter_filter]
    refine List.filter_congr fun row hrow => ?_
    obtain ⟨hblocked, hdone⟩ := h row hrow
    cases hstatus : row.status with
    | blocked => exact absurd hstatus hblocked
    | done => exact absurd hstatus hdone
    | _ => rfl
  have hrest := List.filter_append_perm (fun row : AgentRow => decide (row.status = .idle))
    (rows.filter fun row => !decide (row.status = .working))
  rw [hidle, hunknown] at hrest
  rw [List.append_assoc]
  exact (hrest.append_left _).trans (List.filter_append_perm _ rows)

theorem statusSections_perm (s : AgentListService) (sorter : Sorter) :
    ((statusSections s sorter).flatMap PrioritySection.rows).Perm (unpinned s (agentRows s)) := by
  rw [statusSections_rows, List.append_assoc, List.append_assoc, ← List.append_assoc (bucket ..)]
  have hlive : ∀ row ∈ unpinned s (liveRows s), row.status ≠ .blocked ∧ row.status ≠ .done :=
    fun row hrow => mem_liveRows (List.mem_of_mem_filter hrow)
  refine ((sorter.perm _ _).append (buckets_perm hlive)).trans ?_
  unfold unpinned
  rw [← List.filter_append]
  exact (agentRows_perm s).filter _

/-- Every pane has one row. -/
theorem rows_distinct (h : Keyed s) : (s.rows.map PaneRow.paneId).Nodup := by
  refine ((Places.rows_perm s).map _).nodup_iff.mpr ?_
  have hsub : ((s.panes.filterMap s.rowOf).map PaneRow.paneId).Sublist
      (s.panes.map PaneSummary.paneId) := by
    induction s.panes with
    | nil => exact List.Sublist.slnil
    | cons pane panes ih =>
      rw [List.filterMap_cons]
      cases hrow : s.rowOf pane with
      | none => exact ih.cons _
      | some row =>
        have hid : row.paneId = pane.paneId :=
          congrArg (fun place => place.2.2) (Places.place_of_row hrow)
        rw [List.map_cons, List.map_cons, hid]
        exact ih.cons_cons _
  exact hsub.nodup h.panes

theorem agentRows_distinct (h : Keyed s) : ((agentRows s).map AgentRow.paneId).Nodup := by
  have hsub : ((agentRows s).map AgentRow.paneId).Sublist (s.rows.map PaneRow.paneId) := by
    unfold agentRows
    induction s.rows with
    | nil => exact List.Sublist.slnil
    | cons pane panes ih =>
      cases pane with
      | agent row => exact ih.cons_cons _
      | shell row => exact ih.cons _
  exact hsub.nodup (rows_distinct h)

theorem id_of_find {id : PaneId} (h : s.rows.find? (fun row => row.paneId = id) = some pane) :
    pane.paneId = id := by
  simpa using List.find?_some h

theorem mem_pinnedAgents (h : Keyed s) :
    row ∈ pinnedAgents s ↔ row ∈ agentRows s ∧ row.paneId ∈ s.pinned := by
  unfold pinnedAgents
  simp only [List.mem_filterMap]
  rw [mem_agentRows]
  constructor
  · rintro ⟨pane, ⟨id, hid, hfound⟩, hrow⟩
    cases (agentOf_eq_some).mp hrow
    have hsame : row.paneId = id := id_of_find hfound
    exact ⟨List.mem_of_find?_eq_some hfound, hsame ▸ hid⟩
  · rintro ⟨hmem, hpin⟩
    refine ⟨.agent row, ⟨row.paneId, hpin, ?_⟩, rfl⟩
    cases hfound : s.rows.find? fun pane => pane.paneId = row.paneId with
    | none => exact absurd rfl (of_decide_eq_false
        (Bool.eq_false_iff.mpr (List.find?_eq_none.mp hfound _ hmem)))
    | some found =>
      have hid : found.paneId = row.paneId := id_of_find hfound
      have hsame : found = .agent row :=
        eq_of_mem (rows_distinct h) (List.mem_of_find?_eq_some hfound) hmem hid
      rw [hsame]

theorem pinnedAgents_perm (h : Keyed s) :
    (pinnedAgents s).Perm ((agentRows s).filter fun row => row.paneId ∈ s.pinned) := by
  refine (List.perm_ext_iff_of_nodup ?_ ?_).mpr fun row => ?_
  · unfold pinnedAgents
    refine List.Nodup.filterMap ?_ (List.Nodup.filterMap ?_ h.pins)
    · intro pane pane' row hrow hrow'
      exact ((agentOf_eq_some).mp hrow).trans ((agentOf_eq_some).mp hrow').symm
    · intro id id' pane hid hid'
      exact (id_of_find hid).symm.trans (id_of_find hid')
  · exact (agentRows_distinct h).of_map.filter _
  · rw [mem_pinnedAgents h, List.mem_filter, decide_eq_true_iff]

theorem prioritySections_perm (h : Keyed s) (sorter : Sorter) :
    ((prioritySections s sorter).flatMap PrioritySection.rows).Perm (agentRows s) := by
  unfold prioritySections
  rw [List.flatMap_append, sectionOf_rows]
  refine ((pinnedAgents_perm h).append (statusSections_perm s sorter)).trans ?_
  have hrest : unpinned s (agentRows s) =
      (agentRows s).filter fun row => !decide (row.paneId ∈ s.pinned) := by
    unfold unpinned
    exact List.filter_congr fun row _ => decide_not
  rw [hrest]
  exact List.filter_append_perm _ _

end Placed

section Order

variable {s : AgentListService} {sorter : Sorter} {row a b : AgentRow} {part : PrioritySection}

theorem mem_unpinned {rows : List AgentRow} :
    row ∈ unpinned s rows ↔ row ∈ rows ∧ row.paneId ∉ s.pinned := by
  rw [unpinned, List.mem_filter, decide_eq_true_iff]

theorem mem_statusSections (h : part ∈ statusSections s sorter) :
    part.rows = sorter.sort needsYouCompare (unpinned s (attentionRows s)) ∨
      ∃ status, part.rows = bucket sorter (unpinned s (liveRows s)) status := by
  unfold statusSections buildPrioritySections at h
  simp only [List.mem_append] at h
  obtain ((hneeds | hworking) | hidle) | hunknown := h
  · exact .inl (mem_sectionOf hneeds)
  · exact .inr ⟨_, mem_sectionOf hworking⟩
  · exact .inr ⟨_, mem_sectionOf hidle⟩
  · exact .inr ⟨_, mem_sectionOf hunknown⟩

/-- The rows of a section that are of one status are in the order of the texts. -/
theorem section_sorted (h : part ∈ statusSections s sorter) :
    part.rows.Pairwise fun a b => a.status = b.status → ageCompare a b ≤ 0 := by
  obtain hrows | ⟨status, hrows⟩ := mem_statusSections h
  · rw [hrows]
    refine (sorter.sorted _ _ needsYouCompare_consistent).imp fun {a b} hle hstatus => ?_
    obtain ⟨ha, hb⟩ | ⟨-, hage⟩ := (needsYouCompare_le).mp hle
    · exact absurd (hstatus ▸ ha) hb
    · exact hage
  · rw [hrows]
    refine (sorter.sorted _ _ ageCompare_consistent).imp fun {a b} hle _ => ?_
    exact hle

theorem mem_bucket {rows : List AgentRow} {status : AgentStatusKind} :
    row ∈ bucket sorter rows status ↔ row ∈ rows ∧ row.status = status := by
  rw [bucket, (sorter.perm _ _).mem_iff, List.mem_filter, decide_eq_true_iff]

theorem self_mem_sectionOf (title : Text) {rows : List AgentRow} (h : row ∈ rows) :
    ⟨title, rows⟩ ∈ sectionOf title rows := by
  unfold sectionOf
  rw [if_neg fun hempty => List.ne_nil_of_mem h (List.isEmpty_iff.mp hempty)]
  exact List.mem_singleton_self _

/-- The agents of one status are in one section. -/
theorem part_of (hrow : row ∈ unpinned s (agentRows s)) :
    ∃ part ∈ statusSections s sorter,
      ∀ other ∈ unpinned s (agentRows s), other.status = row.status → other ∈ part.rows := by
  have hmem : ∀ other ∈ unpinned s (agentRows s),
      (other ∈ unpinned s (attentionRows s) ∧ (other.status = .blocked ∨ other.status = .done)) ∨
        (other ∈ unpinned s (liveRows s) ∧ other.status ≠ .blocked ∧ other.status ≠ .done) := by
    intro other hother
    obtain ⟨hagent, hpin⟩ := (mem_unpinned).mp hother
    obtain hattention | hlive := List.mem_append.mp ((agentRows_perm s).mem_iff.mpr hagent)
    · exact .inl ⟨(mem_unpinned).mpr ⟨hattention, hpin⟩, mem_attentionRows hattention⟩
    · exact .inr ⟨(mem_unpinned).mpr ⟨hlive, hpin⟩, mem_liveRows hlive⟩
  have hneeds (h : row.status = .blocked ∨ row.status = .done) : ∃ part ∈ statusSections s sorter,
      ∀ other ∈ unpinned s (agentRows s), other.status = row.status → other ∈ part.rows := by
    have hall : ∀ other ∈ unpinned s (agentRows s), other.status = row.status →
        other ∈ sorter.sort needsYouCompare (unpinned s (attentionRows s)) := by
      intro other hother hstatus
      refine (sorter.perm _ _).mem_iff.mpr ?_
      obtain ⟨hattention, -⟩ | ⟨-, hblocked, hdone⟩ := hmem other hother
      · exact hattention
      · rw [hstatus] at hblocked hdone
        exact absurd h (not_or.mpr ⟨hblocked, hdone⟩)
    refine ⟨⟨"NEEDS YOU".toList, _⟩, ?_, hall⟩
    unfold statusSections buildPrioritySections
    simp only [List.mem_append]
    exact .inl (.inl (.inl (self_mem_sectionOf _ (hall row hrow rfl))))
  have hlive (hkind : row.status ≠ .blocked ∧ row.status ≠ .done) :
      ∀ other ∈ unpinned s (agentRows s), other.status = row.status →
        other ∈ bucket sorter (unpinned s (liveRows s)) row.status := by
    intro other hother hstatus
    obtain ⟨-, hwaits⟩ | ⟨hlive, -⟩ := hmem other hother
    · rw [hstatus] at hwaits
      exact absurd hwaits (not_or.mpr hkind)
    · exact (mem_bucket).mpr ⟨hlive, hstatus⟩
  have hbucket (title : Text) (hkind : row.status ≠ .blocked ∧ row.status ≠ .done)
      (hpart : ∀ part ∈ sectionOf title (bucket sorter (unpinned s (liveRows s)) row.status),
        part ∈ statusSections s sorter) : ∃ part ∈ statusSections s sorter,
      ∀ other ∈ unpinned s (agentRows s), other.status = row.status → other ∈ part.rows :=
    ⟨⟨title, _⟩, hpart _ (self_mem_sectionOf title (hlive hkind row hrow rfl)), hlive hkind⟩
  cases hstatus : row.status with
  | blocked => exact hstatus ▸ hneeds (.inl hstatus)
  | done => exact hstatus ▸ hneeds (.inr hstatus)
  | working =>
    rw [← hstatus]
    refine hbucket "WORKING".toList (by rw [hstatus]; decide) fun part hpart => ?_
    unfold statusSections buildPrioritySections
    simp only [List.mem_append]
    exact .inl (.inl (.inr (hstatus ▸ hpart)))
  | idle =>
    rw [← hstatus]
    refine hbucket "IDLE".toList (by rw [hstatus]; decide) fun part hpart => ?_
    unfold statusSections buildPrioritySections
    simp only [List.mem_append]
    exact .inl (.inr (hstatus ▸ hpart))
  | unknown =>
    rw [← hstatus]
    refine hbucket "UNKNOWN".toList (by rw [hstatus]; decide) fun part hpart => ?_
    unfold statusSections buildPrioritySections
    simp only [List.mem_append]
    exact .inr (hstatus ▸ hpart)

theorem rank_le_two (status : AgentStatusKind) : rank status ≤ 2 := by cases status <;> decide

theorem statusSections_ranked (s : AgentListService) (sorter : Sorter) :
    ((statusSections s sorter).flatMap PrioritySection.rows).Pairwise
      fun a b => rank a.status ≤ rank b.status := by
  have hlast {status : AgentStatusKind} {rows : List AgentRow}
      (hrows : ∀ row ∈ rows, row.status ≠ .blocked ∧ row.status ≠ .done)
      {row : AgentRow} (hrow : row ∈ bucket sorter rows status) : rank row.status = 2 := by
    obtain ⟨hblocked, hdone⟩ := hrows row ((mem_bucket).mp hrow).1
    cases hstatus : row.status with
    | blocked => exact absurd hstatus hblocked
    | done => exact absurd hstatus hdone
    | _ => rfl
  have hkinds : ∀ row ∈ unpinned s (liveRows s), row.status ≠ .blocked ∧ row.status ≠ .done :=
    fun row hrow => mem_liveRows ((mem_unpinned).mp hrow).1
  have hneeds : (sorter.sort needsYouCompare (unpinned s (attentionRows s))).Pairwise
      fun a b => rank a.status ≤ rank b.status := by
    refine ((sorter.sorted _ _ needsYouCompare_consistent).imp_of_mem ?_)
    intro a b ha hb hle
    have hkind {row : AgentRow}
        (hrow : row ∈ sorter.sort needsYouCompare (unpinned s (attentionRows s))) :
        row.status = .blocked ∨ row.status = .done :=
      mem_attentionRows ((mem_unpinned).mp ((sorter.perm _ _).mem_iff.mp hrow)).1
    obtain hblocked | hdone := hkind ha
    · rw [hblocked]
      exact Nat.zero_le _
    · obtain ⟨hblocked, -⟩ | ⟨hiff, -⟩ := (needsYouCompare_le).mp hle
      · rw [hblocked]
        exact Nat.zero_le _
      · obtain hblocked | hdone' := hkind hb
        · rw [hiff.mpr hblocked]
          exact Nat.zero_le _
        · rw [hdone, hdone']
  rw [statusSections_rows, List.append_assoc, List.append_assoc]
  refine List.pairwise_append.mpr ⟨hneeds, ?_, ?_⟩
  · have htwo : ∀ row ∈ bucket sorter (unpinned s (liveRows s)) .working ++
        (bucket sorter (unpinned s (liveRows s)) .idle ++
          bucket sorter (unpinned s (liveRows s)) .unknown), rank row.status = 2 := by
      intro row hrow
      obtain hworking | hrest := List.mem_append.mp hrow
      · exact hlast hkinds hworking
      · obtain hidle | hunknown := List.mem_append.mp hrest
        · exact hlast hkinds hidle
        · exact hlast hkinds hunknown
    refine List.pairwise_of_forall_mem_list fun a ha b hb => ?_
    rw [htwo a ha, htwo b hb]
  · intro a _ b hb
    have htwo : rank b.status = 2 := by
      obtain hworking | hrest := List.mem_append.mp hb
      · exact hlast hkinds hworking
      · obtain hidle | hunknown := List.mem_append.mp hrest
        · exact hlast hkinds hidle
        · exact hlast hkinds hunknown
    rw [htwo]
    exact rank_le_two _

/-- Two rows of one status whose texts are in order. -/
theorem older_of_ageCompare (htimed : Timed s) (hin : InOrder s)
    (ha : a ∈ unpinned s (agentRows s)) (hb : b ∈ unpinned s (agentRows s))
    (hstatus : a.status = b.status) (hle : ageCompare a b ≤ 0) : Older a b := by
  rw [ageCompare_le] at hle
  unfold Older
  cases hbat : b.at with
  | none => cases a.at <;> trivial
  | some y =>
    obtain ⟨x, hx, hunits⟩ := hle y hbat
    have htext : compareTo x y ≠ .gt := (compareTo_le).mpr hunits
    have hinstants : ∀ p q, instantOf x = some p → instantOf y = some q → p ≤ q := by
      intro p q hp hq
      obtain rfl | hlt := eq_or_lt htext
      · cases hp.symm.trans hq
        exact le_rfl
      · exact (misordered_false hp hq).mp (hin a ha b hb hstatus x hx y hbat) hlt
    obtain ⟨p, hp⟩ := Option.isSome_iff_exists.mp (htimed a ((mem_unpinned).mp ha).1 x hx)
    obtain ⟨q, hq⟩ := Option.isSome_iff_exists.mp (htimed b ((mem_unpinned).mp hb).1 y hbat)
    rw [hx]
    exact ⟨hinstants, compareAt_of_le hp hq (hinstants p q hp hq) htext⟩

theorem mem_part (h : part ∈ statusSections s sorter) (hrow : row ∈ part.rows) :
    row ∈ unpinned s (agentRows s) :=
  (statusSections_perm s sorter).mem_iff.mp (List.mem_flatMap.mpr ⟨part, h, hrow⟩)

theorem pairwise_either {R : AgentRow → AgentRow → Prop} {rows : List AgentRow}
    (h : rows.Pairwise R) (ha : a ∈ rows) (hb : b ∈ rows) (hne : a ≠ b) : R a b ∨ R b a := by
  induction rows with
  | nil => cases ha
  | cons row rows ih =>
    obtain ⟨hhead, htail⟩ := List.pairwise_cons.mp h
    obtain rfl | harest := List.mem_cons.mp ha
    · obtain rfl | hbrest := List.mem_cons.mp hb
      · exact absurd rfl hne
      · exact .inl (hhead b hbrest)
    · obtain rfl | hbrest := List.mem_cons.mp hb
      · exact .inr (hhead a harest)
      · exact ih htail harest hbrest

end Order

/-- Two rows of one status stand in one section, and the texts say in which order. -/
theorem inOrder_of_law {s : AgentListService} {sorter : Sorter} (htimed : Timed s)
    (hlaw : Law sorter s) : InOrder s := by
  intro a ha b hb hstatus x hx y hy
  obtain ⟨p, hp⟩ := Option.isSome_iff_exists.mp (htimed a ((mem_unpinned).mp ha).1 x hx)
  obtain ⟨q, hq⟩ := Option.isSome_iff_exists.mp (htimed b ((mem_unpinned).mp hb).1 y hy)
  refine (misordered_false hp hq).mpr fun hlt => ?_
  have hunits : codeUnits x < codeUnits y := by
    refine lt_of_le_of_ne ((compareTo_le).mp (by rw [hlt]; decide)) fun heq => ?_
    rw [codeUnits_injective heq, compareTo_self] at hlt
    cases hlt
  have hne : a ≠ b := by
    intro heq
    rw [heq] at hx
    cases hx.symm.trans hy
    exact lt_irrefl _ hunits
  obtain ⟨part, hpart, hall⟩ := @part_of s sorter b hb
  have hboth := (hlaw.aged part hpart).and (section_sorted hpart)
  obtain ⟨holder, -⟩ | ⟨-, hage⟩ := pairwise_either hboth (hall a ha hstatus) (hall b hb rfl) hne
  · have hab := holder hstatus
    unfold Older at hab
    rw [Option.mem_def.mp hx, Option.mem_def.mp hy] at hab
    exact hab.1 p q hp hq
  · obtain ⟨y', hy', hle⟩ := (ageCompare_le).mp (hage hstatus.symm) x hx
    cases hy.symm.trans hy'
    exact absurd hle (not_le.mpr hunits)

/-- Agents are in the order of their instants exactly if the texts of their times are. -/
theorem priority_law_iff (sorter : Sorter) (s : AgentListService) (hkeyed : Keyed s)
    (htimed : Timed s) : Law sorter s ↔ InOrder s := by
  refine ⟨inOrder_of_law htimed, fun hin => ?_⟩
  refine ⟨agentRows_distinct hkeyed, prioritySections_perm hkeyed sorter,
    pinnedAgents_perm hkeyed, statusSections_ranked s sorter, fun part hpart => ?_⟩
  refine (section_sorted hpart).imp_of_mem fun {a b} ha hb hage hstatus => ?_
  exact older_of_ageCompare htimed hin (mem_part hpart ha) (mem_part hpart hb) hstatus
    (hage hstatus)

section Runs

variable {s : AgentListService}

theorem keyed_applyUpdate (h : Keyed s) (update : TreeLists.Update) :
    Keyed (s.applyUpdate update) := by
  obtain ⟨event, pane, workspace, tab⟩ := update
  cases event with
  | workspaceCreated | workspaceUpdated | workspaceRenamed =>
    cases workspace with
    | none => exact h
    | some w => exact ⟨h.panes, h.pins⟩
  | workspaceClosed =>
    cases workspace with
    | none => exact h
    | some w => exact ⟨distinct_filter h.panes _, h.pins⟩
  | tabCreated | tabRenamed | tabFocused =>
    cases tab with
    | none => exact h
    | some tab => exact ⟨h.panes, h.pins⟩
  | tabClosed =>
    cases tab with
    | none => exact h
    | some tab => exact ⟨distinct_filter h.panes _, h.pins⟩
  | paneCreated | paneUpdated | paneFocused | paneAgentStatusChanged =>
    cases pane with
    | none => exact h
    | some pane => exact ⟨distinct_put h.panes pane, h.pins⟩
  | paneClosed =>
    cases pane with
    | none => exact h
    | some pane => exact ⟨distinct_filter h.panes _, h.pins⟩
  | layoutUpdated => exact h

theorem keyed_togglePinned (h : Keyed s) (paneId : PaneId) : Keyed (s.togglePinned paneId) := by
  refine ⟨h.panes, ?_⟩
  unfold AgentListService.togglePinned
  dsimp only
  split
  · exact h.pins.erase _
  · next hfresh =>
    refine List.nodup_append.mpr ⟨h.pins, List.nodup_singleton _, fun id hid id' hid' heq => ?_⟩
    rw [heq, List.mem_singleton.mp hid'] at hid
    exact hfresh hid

/-- Every list that a run of the services comes to is one of the law. -/
theorem keyed_visits {hostId : Text} {es : List AgentListRuns.Event} {v : AgentListRuns.Services}
    (hv : Visits (AgentListRuns.Services.step hostId) .start es v) : Keyed v.list := by
  have hstart : Keyed AgentListRuns.Services.start.list := ⟨List.nodup_nil, List.nodup_nil⟩
  refine visits_invariant (fun v => Keyed v.list) hstart (fun {u e w} h hocc => ?_) hv
  have hs := hocc.step_eq
  cases e with
  | snapshot snapshot =>
    cases hs
    exact ⟨distinct_ofList _ _, h.pins.filter _⟩
  | update update =>
    cases hs
    exact keyed_applyUpdate h update
  | attention items =>
    cases hs
    exact ⟨h.panes, h.pins⟩
  | togglePinned paneId =>
    cases hs
    exact keyed_togglePinned h paneId
  | setSearch text =>
    cases hs
    exact ⟨h.panes, h.pins⟩

end Runs

def Sorter.insertion : Sorter where
  sort compare := List.insertionSort fun a b => compare a b ≤ 0
  perm _ rows := List.perm_insertionSort _ rows
  sorted compare rows h := by
    have : Std.Total fun a b => compare a b ≤ 0 := ⟨h.total⟩
    have : IsTrans AgentRow fun a b => compare a b ≤ 0 := ⟨h.trans⟩
    exact List.pairwise_insertionSort _ rows

/-- The agents of one tab. -/
def agentsOf (agents : List (PaneId × Text × Option Text)) (pinned : List PaneId) :
    AgentListService :=
  { AgentListService.start with
    workspaces := [AgentListRuns.workspaceOf "w".toList]
    tabs := [AgentListRuns.tabOf "t".toList "w".toList]
    panes := agents.map fun agent =>
      { Places.paneOf agent.1 "t".toList "w".toList with
        agent := some "agent".toList
        agentStatus := agent.2.1 }
    statusAt := fun paneId =>
      (agents.find? fun agent => agent.1 = paneId).bind fun agent => agent.2.2
    pinned := pinned }

/-- As many digits in each fraction, and an agent without a time. -/
def sameDigits : AgentListService :=
  agentsOf
    [ ("a".toList, "working".toList, none),
      ("b".toList, "working".toList, some "2026-01-01T00:00:00.50Z".toList),
      ("c".toList, "working".toList, some "2026-01-01T00:00:00.25Z".toList),
      ("d".toList, "done".toList, some "2026-01-01T00:00:00.00Z".toList),
      ("e".toList, "blocked".toList, some "2026-01-01T00:00:00.75Z".toList),
      ("f".toList, "working".toList, some "2026-01-01T00:00:00Z".toList) ] ["f".toList]

theorem priority_law_same_digits : Law .insertion sameDigits ∧
    (prioritySections sameDigits .insertion).map
        (fun part => part.rows.map fun row : AgentRow => row.paneId) =
      [["f".toList], ["e".toList, "d".toList], ["c".toList, "b".toList, "a".toList]] := by
  have hkeyed : Keyed sameDigits := by
    refine ⟨?_, by decide⟩
    unfold Distinct
    decide
  have htimed : Timed sameDigits := by
    unfold Timed
    decide +kernel
  refine ⟨(priority_law_iff .insertion sameDigits hkeyed htimed).mpr ?_, by decide +kernel⟩
  unfold InOrder
  decide +kernel

/-- A second without a fraction, and half a second later. -/
def mixedDigits : AgentListService :=
  agentsOf
    [ ("a".toList, "working".toList, some "2026-01-01T00:00:00Z".toList),
      ("b".toList, "working".toList, some "2026-01-01T00:00:00.5Z".toList) ] []

theorem mixed_digits_misorder : ¬Law .insertion mixedDigits := by
  intro h
  have htimed : Timed mixedDigits := by
    unfold Timed
    decide +kernel
  have hout : ¬InOrder mixedDigits := by
    unfold InOrder
    decide +kernel
  exact hout (inOrder_of_law htimed h)

end HerdrMobile.App.Priority
