import HerdrMobile.Host.Subscription

/-!
# The settle window of agent statuses

A status is recorded as told before the snapshot that its `agent_status` is made of has been
fetched. So the window is that of the last message exactly as long as every status that is due has
its snapshot, with its pane in it.
-/
namespace HerdrMobile.Host.Settle

open HerdrMobile.Lib.Run HerdrMobile.Proto.Messages HerdrMobile.Proto.Tree HerdrMobile.App.Tree
open HerdrMobile.Host.Herdr HerdrMobile.Host.Input HerdrMobile.Host.Scheduler
open HerdrMobile.Host.Watch (FrameHash)
open HerdrMobile.Host.Incoming HerdrMobile.Host.Subscription

set_option autoImplicit false

/-- The settled panes, and every `agent_status` with its time, newest first. -/
structure Status where
  now : Nat
  settled : PaneId → Option Nat
  sent : List (PaneId × Nat)

def Status.start : Status := ⟨0, fun _ => none, []⟩

/-- A line of the subscription, after the calls of a log. -/
structure Told where
  elapsed : Nat
  world : World
  log : Log
  push : Push

def step (herdr : HerdrCalls) (s : Status) (e : Told) : Option Status :=
  let now := s.now + e.elapsed
  let (notice, settled, _) := notify herdr e.world now e.push s.settled e.log
  some ⟨now, settled, (notice.map fun notice => (notice.paneId, now)).toList ++ s.sent⟩

def due (s : Status) (e : Told) (paneId : PaneId) : Bool :=
  (settleAgentStatus paneId (s.now + e.elapsed) s.settled).1

/-- A status is withheld only within the window of a message that was sent, and where nothing is
sent the window stays. -/
structure Settling (s : Status) (e : Told) (t : Status) : Prop where
  withheld : ∀ paneId status, notable e.push = some (paneId, status) → due s e paneId = false →
    ∃ last, (paneId, last) ∈ s.sent ∧ last ≤ t.now ∧ t.now < last + agentStatusSettle
  unsent : t.sent = s.sent → t.settled = s.settled

/-- A status that is due has its snapshot, and the pane is there. -/
def fetched (herdr : HerdrCalls) (s : Status) (e : Told) : Bool :=
  (notable e.push).all fun (paneId, _) =>
    !due s e paneId || (herdr.sessionSnapshot e.log).isOk && (e.world.tree.panes paneId).isSome

variable {herdr : HerdrCalls} {s t : Status} {e : Told} {paneId : PaneId}
  {status : AgentStatusKind}

/-- What a line does: it is not of interest or withheld, or it is sent, or it is only recorded. -/
inductive Outcome (herdr : HerdrCalls) (s : Status) (e : Told) (t : Status) : Prop
  | silent : notable e.push = none → t.settled = s.settled → t.sent = s.sent →
      Outcome herdr s e t
  | withheld (paneId : PaneId) (status : AgentStatusKind) :
      notable e.push = some (paneId, status) → due s e paneId = false →
      t.settled = s.settled → t.sent = s.sent → Outcome herdr s e t
  | sent (paneId : PaneId) (status : AgentStatusKind) :
      notable e.push = some (paneId, status) → due s e paneId = true → fetched herdr s e = true →
      t.settled = Function.update s.settled paneId (some t.now) →
      t.sent = (paneId, t.now) :: s.sent → Outcome herdr s e t
  | recorded (paneId : PaneId) (status : AgentStatusKind) :
      notable e.push = some (paneId, status) → due s e paneId = true → fetched herdr s e = false →
      t.settled = Function.update s.settled paneId (some t.now) → t.sent = s.sent →
      Outcome herdr s e t

theorem notice_some {push : Push} {world : World} {log : Log} :
    ((fetchTree herdr world log).1.bind (agentStatusOf push status paneId)).map
        AgentStatus.paneId =
      if (herdr.sessionSnapshot log).isOk && (world.tree.panes paneId).isSome then some paneId
      else none := by
  unfold fetchTree HerdrCalls.fetchSnapshot
  cases herdr.sessionSnapshot log with
  | error err => rfl
  | ok raw =>
    cases hpane : world.tree.panes paneId with
    | none => simp [agentStatusOf, hpane, Except.isOk, Except.toBool]
    | some pane => simp [agentStatusOf, hpane, Except.isOk, Except.toBool]

theorem step_outcome (h : step herdr s e = some t) :
    Outcome herdr s e t ∧ t.now = s.now + e.elapsed := by
  unfold step notify at h
  cases hnotable : notable e.push with
  | none =>
    simp only [hnotable] at h
    cases h
    exact ⟨.silent hnotable rfl rfl, rfl⟩
  | some found =>
    obtain ⟨paneId, status⟩ := found
    simp only [hnotable] at h
    cases hdue : due s e paneId with
    | false =>
      have hsettle : settleAgentStatus paneId (s.now + e.elapsed) s.settled =
          (false, s.settled) := by
        unfold due settleAgentStatus at hdue
        simp only at hdue
        simp only [settleAgentStatus, hdue, Bool.false_eq_true, if_false]
      rw [hsettle] at h
      cases h
      exact ⟨.withheld paneId status hnotable hdue rfl rfl, rfl⟩
    | true =>
      have hsettle : settleAgentStatus paneId (s.now + e.elapsed) s.settled =
          (true, Function.update s.settled paneId (some (s.now + e.elapsed))) := by
        unfold due settleAgentStatus at hdue
        simp only at hdue
        simp only [settleAgentStatus, hdue, if_true]
      have hfetched : fetched herdr s e =
          ((herdr.sessionSnapshot e.log).isOk && (e.world.tree.panes paneId).isSome) := by
        simp [fetched, hnotable, hdue]
      have hnotice := (@notice_some herdr paneId status e.push e.world e.log)
      rw [← hfetched] at hnotice
      rw [hsettle] at h
      simp only at h
      cases hf : fetched herdr s e with
      | true =>
        rw [hf, if_pos rfl] at hnotice
        obtain ⟨notice, hsome, rfl⟩ := Option.map_eq_some_iff.mp hnotice
        rw [hsome] at h
        cases h
        exact ⟨.sent _ status hnotable hdue hf rfl rfl, rfl⟩
      | false =>
        rw [hf, if_neg (by decide)] at hnotice
        rw [Option.map_eq_none_iff.mp hnotice] at h
        cases h
        exact ⟨.recorded paneId status hnotable hdue hf rfl rfl, rfl⟩

/-- A time that is recorded for a pane is that of a message. -/
def Recorded (s : Status) : Prop :=
  ∀ paneId last, s.settled paneId = some last → (paneId, last) ∈ s.sent ∧ last ≤ s.now

theorem recorded_step (hr : Recorded s) (hf : fetched herdr s e = true)
    (h : step herdr s e = some t) : Recorded t := by
  obtain ⟨houtcome, hnow⟩ := step_outcome h
  have hold : t.settled = s.settled → t.sent = s.sent → Recorded t := by
    intro hsettled hsent paneId last hlast
    rw [hsettled] at hlast
    rw [hsent, hnow]
    obtain ⟨hmem, hle⟩ := hr paneId last hlast
    exact ⟨hmem, Nat.le_add_right_of_le hle⟩
  cases houtcome with
  | silent hnotable hsettled hsent => exact hold hsettled hsent
  | withheld paneId status hnotable hdue hsettled hsent => exact hold hsettled hsent
  | recorded paneId status hnotable hdue hnot hsettled hsent => cases hnot.symm.trans hf
  | sent paneId status hnotable hdue hfetched hsettled hsent =>
    intro pane last hlast
    rw [hsettled] at hlast
    rw [hsent]
    by_cases hpane : pane = paneId
    · subst hpane
      rw [Function.update_self] at hlast
      cases hlast
      exact ⟨List.mem_cons_self, Nat.le_refl _⟩
    · rw [Function.update_of_ne hpane] at hlast
      obtain ⟨hmem, hle⟩ := hr pane last hlast
      exact ⟨List.mem_cons_of_mem _ hmem, hnow ▸ Nat.le_add_right_of_le hle⟩

theorem due_false (h : due s e paneId = false) :
    ∃ last, s.settled paneId = some last ∧ s.now + e.elapsed < last + agentStatusSettle := by
  unfold due settleAgentStatus at h
  simp only at h
  cases hlast : s.settled paneId with
  | none =>
    rw [hlast] at h
    cases h
  | some last =>
    rw [hlast] at h
    have hearly := of_decide_eq_false h
    exact ⟨last, rfl, by omega⟩

theorem settling_of_fetched (hr : Recorded s) (hf : fetched herdr s e = true)
    (h : step herdr s e = some t) : Settling s e t := by
  obtain ⟨houtcome, hnow⟩ := step_outcome h
  constructor
  · intro paneId status hnotable hdue
    obtain ⟨last, hlast, hearly⟩ := due_false hdue
    obtain ⟨hmem, hle⟩ := hr paneId last hlast
    exact ⟨last, hmem, by omega, by omega⟩
  · intro hsame
    cases houtcome with
    | silent hnotable hsettled hsent => exact hsettled
    | withheld paneId status hnotable hdue hsettled hsent => exact hsettled
    | recorded paneId status hnotable hdue hnot hsettled hsent => cases hnot.symm.trans hf
    | sent paneId status hnotable hdue hfetched hsettled hsent =>
      rw [hsent] at hsame
      exact absurd hsame (List.cons_ne_self _ _)

/-- Without the snapshot of a status that is due, its pane is silenced all the same. -/
theorem fetched_of_settling (hlaw : Settling s e t) (h : step herdr s e = some t) :
    fetched herdr s e = true := by
  obtain ⟨houtcome, hnow⟩ := step_outcome h
  cases houtcome with
  | silent hnotable hsettled hsent => simp [fetched, hnotable]
  | withheld paneId status hnotable hdue hsettled hsent => simp [fetched, hnotable, hdue]
  | sent paneId status hnotable hdue hfetched hsettled hsent => exact hfetched
  | recorded paneId status hnotable hdue hnot hsettled hsent =>
    have hkept := (hlaw.unsent hsent).symm.trans hsettled
    have hlast : s.settled paneId = some t.now := by
      rw [hkept]
      exact Function.update_self ..
    unfold due settleAgentStatus at hdue
    simp only [hlast, ← hnow, Option.all_some, Nat.sub_self] at hdue
    exact absurd hdue (by decide)

/-- In every run of status changes of any panes, the window is that of the messages sent exactly
when each status that is due has its snapshot with its pane. -/
theorem status_settles_iff (herdr : HerdrCalls) (es : List Told) :
    (∀ s e t, Occurs (step herdr) .start es s e t → Settling s e t) ↔
      ∀ s e t, Occurs (step herdr) .start es s e t → fetched herdr s e = true := by
  constructor
  · intro hlaw s e t ho
    exact fetched_of_settling (hlaw s e t ho) ho.step_eq
  · intro hf s e t ho
    have hrecorded : Recorded s := by
      refine visits_invariant Recorded ?_ ?_ ho.before
      · intro paneId last hlast
        cases hlast
      · intro s e t hr ho
        exact recorded_step hr (hf s e t ho) ho.step_eq
    exact settling_of_fetched hrecorded (hf s e t ho) ho.step_eq

section Session

variable {Hash : Type} [DecidableEq Hash] {joins : Graphemes} {frameHash : FrameHash Hash}
  {r r' : Thread Hash}

end Session

def agentPane : PaneId := ['p']

def onePane : World :=
  ⟨⟨fun _ => none, fun _ => none, fun paneId =>
    if paneId = agentPane then
      some ⟨agentPane, ['w'], ['t'], ['x'], [], [], [], true, none, [], 1, 24⟩
    else none⟩, []⟩

/-- The first snapshot fails. -/
def slow : HerdrCalls where
  send _ _ := true
  sessionSnapshot log := if log.isEmpty then .error .herdr else .ok ⟨[], []⟩
  paneLayout _ _ := none
  paneReadVisible _ _ := none

/-- The agent is blocked, and blocked again ten seconds later. -/
def blockedTwice : List Told :=
  let push : Push :=
    { event := .paneAgentStatusChanged
      paneId := some agentPane
      agentStatus := some "blocked".toList }
  [⟨0, onePane, [], push⟩, ⟨10 * second, onePane, [.snapshot false], push⟩]

theorem failed_snapshot_silences :
    ¬∀ s e t, Occurs (step slow) .start blockedTwice s e t → Settling s e t := by
  intro h
  have hlast := h _ _ _ ((@occurs_last _ _ _ _ _ _ _ (blockedTwice.take 1)) rfl rfl)
  obtain ⟨last, hmem, -⟩ := hlast.withheld agentPane .blocked rfl (by decide)
  exact absurd hmem (List.not_mem_nil)

end HerdrMobile.Host.Settle
