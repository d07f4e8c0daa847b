import HerdrMobile.Host.Scheduler
import HerdrMobile.Lib.Window

/-!
# The reads of a pane

Whatever the order of its triggers, a scheduler keeps its cap in every second, and a change that
it has been told of waits until a read is ordered for it.
-/
namespace HerdrMobile.Host.Reads

open HerdrMobile.Host.Scheduler HerdrMobile.Lib.Window

set_option autoImplicit false

inductive Call where
  | onRevisionChanged (now : Nat)
  | onInputSent (now : Nat)
  | fire (now : Nat)
  deriving DecidableEq

namespace Call

def time : Call → Nat
  | onRevisionChanged now | onInputSent now | fire now => now

def apply (s : PaneScheduler) : Call → Option FireOutcome × PaneScheduler
  | onRevisionChanged now => (none, s.onRevisionChanged now)
  | onInputSent now => (none, s.onInputSent now)
  | fire now => s.fire now

def isFire : Call → Bool
  | fire _ => true
  | _ => false

end Call

variable {s : PaneScheduler} {now last due free bound maxPerSec : Nat} {c : Call}
  {calls : List Call} {reads : List Nat}

/-- A read is issued, for a change or for another timer. -/
def orders : Option FireOutcome → Bool
  | some .read | some .pollRead => true
  | _ => false

def after (s : PaneScheduler) (calls : List Call) : PaneScheduler :=
  calls.foldl (fun s c => (c.apply s).2) s

/-- The times at which a read is ordered. -/
def readTimes (s : PaneScheduler) : List Call → List Nat
  | [] => []
  | c :: rest => (if orders (c.apply s).1 then [c.time] else []) ++ readTimes (c.apply s).2 rest

def outcomes (s : PaneScheduler) : List Call → List (Option FireOutcome)
  | [] => []
  | c :: rest => (c.apply s).1 :: outcomes (c.apply s).2 rest

/-- The calls come in the order of their times, none before `last`. -/
def InOrder (last : Nat) (calls : List Call) : Prop :=
  (last :: calls.map Call.time).Pairwise (· ≤ ·)

/-- The time of the last call. -/
def latest (last : Nat) : List Call → Nat
  | [] => last
  | c :: rest => latest c.time rest

theorem InOrder.cons (h : InOrder last (c :: calls)) : last ≤ c.time ∧ InOrder c.time calls :=
  ⟨List.rel_of_pairwise_cons h List.mem_cons_self, List.Pairwise.of_cons h⟩

theorem InOrder.append {rest : List Call} (h : InOrder last (calls ++ rest)) :
    InOrder last calls ∧ InOrder (latest last calls) rest := by
  induction calls generalizing last with
  | nil => exact ⟨List.pairwise_singleton .., h⟩
  | cons c tail ih =>
    obtain ⟨hnow, hrest⟩ := InOrder.cons h
    obtain ⟨htail, hlater⟩ := ih hrest
    refine ⟨List.pairwise_cons.mpr ⟨fun u hu => ?_, htail⟩, hlater⟩
    obtain rfl | hu := List.mem_cons.mp hu
    · exact hnow
    · exact Nat.le_trans hnow (List.rel_of_pairwise_cons htail hu)

theorem le_latest (h : InOrder last calls) : last ≤ latest last calls := by
  induction calls generalizing last with
  | nil => exact Nat.le_refl last
  | cons c rest ih =>
    obtain ⟨hnow, hrest⟩ := h.cons
    exact Nat.le_trans hnow (ih hrest)

theorem time_le_latest (h : InOrder last calls) (hc : c ∈ calls) : c.time ≤ latest last calls := by
  induction calls generalizing last with
  | nil => cases hc
  | cons d rest ih =>
    obtain ⟨-, hrest⟩ := h.cons
    obtain rfl | hc := List.mem_cons.mp hc
    · exact le_latest hrest
    · exact ih hrest hc

theorem outcomes_append {rest : List Call} :
    outcomes s (calls ++ rest) = outcomes s calls ++ outcomes (after s calls) rest := by
  induction calls generalizing s with
  | nil => rfl
  | cons c tail ih =>
    rw [List.cons_append, outcomes, outcomes, ih]
    rfl

/-- What a call of `fire` can do: nothing is due, the cap is reached, or a read is ordered. -/
inductive Fired (s : PaneScheduler) (now : Nat) : Option FireOutcome × PaneScheduler → Prop
  | idle : s.revisionDue now = false → s.pollDue now = false → s.inputIsDue now = false →
      Fired s now (none, s)
  | limited : s.maxPerSec ≤ (prune second now s.readHistory).length →
      Fired s now (some .rateLimited,
        { s.consume now with
          pendingDue :=
            if s.revisionDue now then
              some ((prune second now s.readHistory).head?.getD now + second)
            else s.pendingDue })
  | read : s.revisionDue now = true → (prune second now s.readHistory).length < s.maxPerSec →
      Fired s now (some .read,
        { s.consume now with
          readHistory := prune second now s.readHistory ++ [now]
          pendingDue := none
          windowOpenUntil := some (now + s.window) })
  | pollRead : s.revisionDue now = false →
      (prune second now s.readHistory).length < s.maxPerSec →
      Fired s now (some .pollRead,
        { s.consume now with readHistory := prune second now s.readHistory ++ [now] })

theorem fire_cases (s : PaneScheduler) (now : Nat) : Fired s now (s.fire now) := by
  have hhistory : (s.consume now).readHistory = prune second now s.readHistory := rfl
  have hmax : (s.consume now).maxPerSec = s.maxPerSec := rfl
  rw [PaneScheduler.fire]
  split
  · next hidle =>
    simp only [Bool.and_eq_true, Bool.not_eq_true'] at hidle
    exact .idle hidle.1.1 hidle.1.2 hidle.2
  · simp only [hhistory, hmax]
    split
    · next hfull =>
      have h := Fired.limited hfull
      cases hdue : s.revisionDue now with
      | true =>
        rw [hdue] at h
        exact h
      | false =>
        rw [hdue] at h
        exact h
    · next hroom =>
      cases hdue : s.revisionDue now with
      | true => exact .read hdue (Nat.not_le.mp hroom)
      | false => exact .pollRead hdue (Nat.not_le.mp hroom)

/-- The history holds the reads that count against the cap. -/
structure Inv (maxPerSec last : Nat) (reads : List Nat) (s : PaneScheduler) : Prop where
  cap : s.maxPerSec = maxPerSec
  tracks : Tracks second maxPerSec last reads s.readHistory

theorem Inv.later (h : Inv maxPerSec last reads s) (hnow : last ≤ now) :
    Inv maxPerSec now (reads ++ []) s := by
  rw [List.append_nil]
  exact ⟨h.cap, h.tracks.later hnow⟩

theorem Inv.room (h : Inv maxPerSec last reads s)
    (hroom : (prune second now s.readHistory).length < s.maxPerSec) :
    (prune second now s.readHistory).length < maxPerSec := by
  rw [← h.cap]
  exact hroom

theorem inv_apply (h : Inv maxPerSec last reads s) (hnow : last ≤ c.time) :
    Inv maxPerSec c.time (reads ++ if orders (c.apply s).1 then [c.time] else [])
      (c.apply s).2 := by
  cases c with
  | onRevisionChanged now =>
    have hsame : Inv maxPerSec now (reads ++ []) (s.onRevisionChanged now) := by
      rw [PaneScheduler.onRevisionChanged]
      split
      · exact h.later hnow
      · exact ⟨h.cap, (h.later hnow).tracks⟩
    exact hsame
  | onInputSent now => exact ⟨h.cap, (h.later hnow).tracks⟩
  | fire now =>
    have hpruned := h.tracks.prune hnow
    have hcases := fire_cases s now
    rw [Call.apply]
    generalize s.fire now = fired at hcases
    cases hcases with
    | idle => exact h.later hnow
    | limited =>
      have hkept : Inv maxPerSec now reads (s.consume now) := ⟨h.cap, hpruned⟩
      exact ⟨h.cap, (hkept.later (Nat.le_refl now)).tracks⟩
    | read _ hroom => exact ⟨h.cap, hpruned.pass (h.room hroom)⟩
    | pollRead _ hroom => exact ⟨h.cap, hpruned.pass (h.room hroom)⟩

theorem inv_after (h : Inv maxPerSec last reads s) (hcalls : InOrder last calls) :
    Inv maxPerSec (latest last calls) (reads ++ readTimes s calls) (after s calls) := by
  induction calls generalizing s last reads with
  | nil =>
    rw [readTimes, List.append_nil]
    exact h
  | cons c rest ih =>
    obtain ⟨hnow, hrest⟩ := hcalls.cons
    rw [readTimes, ← List.append_assoc]
    exact ih (inv_apply h hnow) hrest

theorem inv_new (window poll : Nat) (inputOffsets : List Nat) (maxPerSec start : Nat) :
    Inv maxPerSec 0 [] (.new window poll inputOffsets maxPerSec start) :=
  ⟨rfl, tracks_nil⟩

theorem inOrder_zero (h : (calls.map Call.time).Pairwise (· ≤ ·)) : InOrder 0 calls :=
  List.pairwise_cons.mpr ⟨fun u _ => Nat.zero_le u, h⟩

/-- Reads for changes, polls and inputs together keep the cap in every second. -/
theorem reads_capped (window poll : Nat) (inputOffsets : List Nat) (maxPerSec start : Nat)
    (calls : List Call) (hcalls : (calls.map Call.time).Pairwise (· ≤ ·)) :
    Rolling second maxPerSec
      (readTimes (.new window poll inputOffsets maxPerSec start) calls) :=
  (inv_after (inv_new window poll inputOffsets maxPerSec start)
    (inOrder_zero hcalls)).tracks.rolling

/-- Two changes, a key and the reads for them. -/
def typing : List Call :=
  [.onRevisionChanged 0, .fire 0, .onInputSent (millis 5), .onRevisionChanged (millis 40),
    .fire (millis 65), .fire (millis 120), .fire (millis 135)]

theorem reads_capped_typing :
    Rolling second 2
        (readTimes (.new (millis 120) (millis 125) [millis 60, millis 130] 2 0) typing) ∧
      readTimes (.new (millis 120) (millis 125) [millis 60, millis 130] 2 0) typing =
        [0, millis 65] :=
  ⟨reads_capped _ _ _ 2 0 typing (by decide), by decide⟩

/-- The moment at which fewer reads than the cap are less than a second old again. -/
def Frees (maxPerSec : Nat) (reads : List Nat) (now free : Nat) : Prop :=
  ∀ u, now ≤ u → (maxPerSec ≤ recent second u reads ↔ u < free)

/-- The cap has put the change off until the oldest read that counts is a second old. -/
def Deferred (maxPerSec : Nat) (s : PaneScheduler) (free : Nat) : Prop :=
  s.pendingDue = some free ∧ ∃ oldest rest, s.readHistory = oldest :: rest ∧
    free = oldest + second ∧ maxPerSec ≤ (oldest :: rest).length

theorem revisionDue_iff (h : s.pendingDue = some due) : s.revisionDue now = true ↔ due ≤ now := by
  rw [PaneScheduler.revisionDue, h]
  exact decide_eq_true_iff

theorem second_pos : 0 < second := by decide

/-- Until then nothing changes for it. -/
theorem deferred_apply (hinv : Inv maxPerSec last reads s) (h : Deferred maxPerSec s free)
    (hbefore : c.isFire = true → c.time < free) : Deferred maxPerSec (c.apply s).2 free := by
  obtain ⟨hpending, oldest, rest, hhistory, hfree, hfull⟩ := h
  cases c with
  | onRevisionChanged now =>
    have hsame : s.onRevisionChanged now = s := by
      rw [PaneScheduler.onRevisionChanged, hpending]
    rw [Call.apply, hsame]
    exact ⟨hpending, oldest, rest, hhistory, hfree, hfull⟩
  | onInputSent now => exact ⟨hpending, oldest, rest, hhistory, hfree, hfull⟩
  | fire now =>
    have hnow : now < free := hbefore rfl
    have hnot : s.revisionDue now = false := by
      rw [Bool.eq_false_iff, Ne, revisionDue_iff hpending]
      exact Nat.not_le.mpr hnow
    have hkept : prune second now s.readHistory = oldest :: rest := by
      rw [hhistory]
      exact prune_eq_self second_pos (by rw [← hfree]; exact hnow)
    have hcases := fire_cases s now
    rw [Call.apply]
    generalize s.fire now = fired at hcases
    cases hcases with
    | idle => exact ⟨hpending, oldest, rest, hhistory, hfree, hfull⟩
    | limited =>
      refine ⟨?_, oldest, rest, hkept, hfree, hfull⟩
      rw [if_neg (by rw [hnot]; exact Bool.false_ne_true)]
      exact hpending
    | read hdue =>
      rw [hnot] at hdue
      cases hdue
    | pollRead _ hroom =>
      rw [hkept, hinv.cap] at hroom
      exact absurd hfull (Nat.not_le.mpr hroom)

/-- From then on the next `fire` reads. -/
theorem deferred_fire (hinv : Inv maxPerSec last reads s) (h : Deferred maxPerSec s free)
    (hnow : free ≤ now) : (s.fire now).1 = some .read := by
  obtain ⟨hpending, oldest, rest, hhistory, hfree, -⟩ := h
  have hdue : s.revisionDue now = true := (revisionDue_iff hpending).mpr hnow
  have hroom : (prune second now s.readHistory).length < s.maxPerSec := by
    have hgone : prune second now s.readHistory = prune second now rest := by
      rw [hhistory, prune, List.dropWhile_cons_of_pos]
      · rfl
      · rw [decide_eq_true_eq]
        omega
    have hle : (prune second now rest).length ≤ rest.length :=
      (List.dropWhile_sublist _).length_le
    have hfew := hinv.tracks.few
    rw [hhistory, List.length_cons] at hfew
    rw [hgone, hinv.cap]
    omega
  have hcases := fire_cases s now
  generalize s.fire now = fired at hcases
  cases hcases with
  | idle hnot =>
    rw [hdue] at hnot
    cases hnot
  | limited hfull => exact absurd hfull (Nat.not_le.mpr hroom)
  | read => rfl
  | pollRead hnot =>
    rw [hdue] at hnot
    cases hnot

/-- A full history of a moment has an oldest read, which is less than a second old. -/
theorem full_history (hinv : Inv maxPerSec last reads s) (hmax : 1 ≤ maxPerSec)
    (hnow : last ≤ now) (hfull : s.maxPerSec ≤ (prune second now s.readHistory).length) :
    ∃ oldest rest, prune second now s.readHistory = oldest :: rest ∧ oldest ≤ now ∧
      now < oldest + second ∧ Frees maxPerSec reads now (oldest + second) := by
  rw [hinv.cap] at hfull
  have htracks := hinv.tracks.prune hnow
  cases hp : prune second now s.readHistory with
  | nil =>
    rw [hp] at hfull
    exact absurd (Nat.le_trans hmax hfull) (by decide)
  | cons oldest rest =>
    rw [hp] at hfull htracks
    refine ⟨oldest, rest, rfl, ?_, lt_of_prune hp, fun u hu => htracks.frees hfull hu⟩
    obtain ⟨old, hpassed, -⟩ := htracks.suffix
    apply htracks.latest
    rw [hpassed]
    exact List.mem_append_right old List.mem_cons_self

/-- A change that is due is read, or put off until the cap is free. -/
theorem due_fire (hinv : Inv maxPerSec last reads s) (hmax : 1 ≤ maxPerSec) (hnow : last ≤ now)
    (hpending : s.pendingDue = some due) (hdue : due ≤ now) :
    (s.fire now).1 = some .read ∨ ∃ free, now < free ∧ free ≤ now + second ∧
      Deferred maxPerSec (s.fire now).2 free ∧ Frees maxPerSec reads now free := by
  have hrevision : s.revisionDue now = true := (revisionDue_iff hpending).mpr hdue
  have hcases := fire_cases s now
  generalize s.fire now = fired at hcases
  cases hcases with
  | idle hnot =>
    rw [hrevision] at hnot
    cases hnot
  | limited hfull =>
    obtain ⟨oldest, rest, hkept, hold, hfresh, hfrees⟩ := full_history hinv hmax hnow hfull
    refine .inr ⟨oldest + second, hfresh, Nat.add_le_add_right hold second, ?_, hfrees⟩
    refine ⟨?_, oldest, rest, hkept, rfl, ?_⟩
    · rw [if_pos hrevision, hkept]
      rfl
    · rw [← hkept, ← hinv.cap]
      exact hfull
  | read => exact .inl rfl
  | pollRead hnot =>
    rw [hrevision] at hnot
    cases hnot

theorem nextDeadline_le (h : s.pendingDue = some due) : ∃ d, s.nextDeadline = some d ∧ d ≤ due := by
  refine ⟨_, rfl, ?_⟩
  rw [h]
  cases s.inputDue.head? with
  | none => exact Nat.min_le_right ..
  | some input => exact Nat.le_trans (Nat.min_le_left ..) (Nat.min_le_right ..)

/-- The deadline is that of one of the timers. -/
theorem nextDeadline_cases {d : Nat} (h : s.nextDeadline = some d) :
    d = s.nextPoll ∨ s.pendingDue = some d ∨ s.inputDue.head? = some d := by
  have hd := Option.some.inj h
  cases hpending : s.pendingDue with
  | none =>
    cases hinput : s.inputDue.head? with
    | none =>
      simp only [hpending, hinput, Option.map_none, Option.getD_none] at hd
      exact .inl hd.symm
    | some input =>
      simp only [hpending, hinput, Option.map_none, Option.getD_none, Option.map_some,
        Option.getD_some] at hd
      simp only [Option.some.injEq]
      omega
  | some pending =>
    cases hinput : s.inputDue.head? with
    | none =>
      simp only [hpending, hinput, Option.map_none, Option.getD_none, Option.map_some,
        Option.getD_some] at hd
      simp only [Option.some.injEq]
      omega
    | some input =>
      simp only [hpending, hinput, Option.map_some, Option.getD_some] at hd
      simp only [Option.some.injEq]
      omega

/-- At its deadline a timer of the scheduler is due. -/
theorem due_at_deadline {d : Nat} (h : s.nextDeadline = some d) (hnow : d ≤ now) :
    s.revisionDue now = true ∨ s.pollDue now = true ∨ s.inputIsDue now = true := by
  obtain rfl | hpending | hinput := nextDeadline_cases h
  · exact .inr (.inl (decide_eq_true hnow))
  · exact .inl ((revisionDue_iff hpending).mpr hnow)
  · refine .inr (.inr ?_)
    rw [PaneScheduler.inputIsDue, hinput]
    exact decide_eq_true hnow

/-- What is left of the timers after a `fire` is later. -/
theorem lt_nextDeadline {t : PaneScheduler} {d : Nat} (hpoll : 0 < s.poll)
    (hnextPoll : t.nextPoll = (s.consume now).nextPoll)
    (hinputDue : t.inputDue = (s.consume now).inputDue)
    (hpending : ∀ due, t.pendingDue = some due → now < due) (h : t.nextDeadline = some d) :
    now < d := by
  have hp : t.nextPoll = if s.pollDue now then now + s.poll else s.nextPoll := hnextPoll
  have hi : t.inputDue =
      if s.inputIsDue now then s.inputDue.filter (now < ·) else s.inputDue := hinputDue
  obtain rfl | hd | hd := nextDeadline_cases h
  · rw [hp]
    split
    · exact Nat.lt_add_of_pos_right hpoll
    · next hnot =>
      rw [PaneScheduler.pollDue, decide_eq_true_eq] at hnot
      exact Nat.not_le.mp hnot
  · exact hpending d hd
  · rw [hi] at hd
    split at hd
    · have hmem := List.mem_of_mem_head? hd
      exact of_decide_eq_true (List.mem_filter.mp hmem).2
    · next hnot =>
      rw [PaneScheduler.inputIsDue, hd, Option.any_some, decide_eq_true_eq] at hnot
      exact Nat.not_le.mp hnot

/-- At its deadline the scheduler orders a read, or the cap is reached and the change waits for
later. -/
theorem fire_at_deadline {d : Nat} (hinv : Inv maxPerSec last reads s) (hmax : 1 ≤ maxPerSec)
    (hnow : last ≤ now) (hpending : s.pendingDue = some due) (hd : s.nextDeadline = some d)
    (hle : d ≤ now) :
    orders (s.fire now).1 = true ∨
      ((s.fire now).1 = some .rateLimited ∧ maxPerSec ≤ recent second now reads ∧
        (∃ later, (s.fire now).2.pendingDue = some later ∧ now < later) ∧
          (0 < s.poll → ∀ next, (s.fire now).2.nextDeadline = some next → now < next)) := by
  have hsome := due_at_deadline hd hle
  have hcases := fire_cases s now
  generalize s.fire now = fired at hcases
  cases hcases with
  | idle hrevision hpoll hinput =>
    rw [hrevision, hpoll, hinput] at hsome
    simp at hsome
  | limited hfull =>
    obtain ⟨oldest, rest, hkept, -, hfresh, hfrees⟩ := full_history hinv hmax hnow hfull
    have hlater : ∀ later, (if s.revisionDue now then
        some ((prune second now s.readHistory).head?.getD now + second) else s.pendingDue) =
          some later → now < later := by
      intro later hl
      split at hl
      · rw [hkept] at hl
        cases hl
        exact hfresh
      · next hnot =>
        rw [revisionDue_iff hl] at hnot
        exact Nat.not_le.mp hnot
    refine .inr ⟨rfl, (hfrees now (Nat.le_refl now)).mpr hfresh, ?_, ?_⟩
    · by_cases hrevision : s.revisionDue now = true
      · exact ⟨_, if_pos hrevision, hlater _ (if_pos hrevision)⟩
      · exact ⟨due, (if_neg hrevision).trans hpending, hlater _ ((if_neg hrevision).trans hpending)⟩
    · intro hpoll next hn
      refine lt_nextDeadline hpoll ?_ ?_ ?_ hn
      · rfl
      · rfl
      · exact hlater
  | read => exact .inl rfl
  | pollRead => exact .inl rfl

theorem pending_onRevisionChanged (s : PaneScheduler) (now : Nat) :
    (s.onRevisionChanged now).pendingDue ≠ none := by
  rw [PaneScheduler.onRevisionChanged]
  split
  · next hpending => rw [hpending]; nofun
  · nofun

theorem pending_apply (hpending : s.pendingDue ≠ none) (hread : (c.apply s).1 ≠ some .read) :
    (c.apply s).2.pendingDue ≠ none := by
  cases c with
  | onRevisionChanged now => exact pending_onRevisionChanged s now
  | onInputSent now => exact hpending
  | fire now =>
    have hcases := fire_cases s now
    rw [Call.apply] at hread ⊢
    generalize s.fire now = fired at hcases hread
    cases hcases with
    | idle => exact hpending
    | limited =>
      simp only
      split
      · nofun
      · exact hpending
    | read => exact absurd rfl hread
    | pollRead => exact hpending

/-- While the cap puts it off, the calls of a run change nothing for it until one reads. -/
theorem deferred_after (hinv : Inv maxPerSec last reads s) (h : Deferred maxPerSec s free)
    (hcalls : InOrder last calls) (hread : some .read ∉ outcomes s calls) :
    Deferred maxPerSec (after s calls) free := by
  induction calls generalizing s last reads with
  | nil => exact h
  | cons c rest ih =>
    obtain ⟨hnow, hrest⟩ := hcalls.cons
    obtain ⟨hfirst, hlater⟩ := not_or.mp (mt List.mem_cons.mpr hread)
    refine ih (inv_apply hinv hnow) (deferred_apply hinv h fun hfire => ?_) hrest hlater
    cases c with
    | onRevisionChanged now => cases hfire
    | onInputSent now => cases hfire
    | fire now =>
      by_contra hlate
      exact hfirst (deferred_fire hinv h (Nat.not_lt.mp hlate)).symm

/-- The change is due as it was, or is put off until `bound` at most. -/
def Stands (maxPerSec due bound : Nat) (s : PaneScheduler) : Prop :=
  s.pendingDue = some due ∨ ∃ free, free ≤ bound ∧ Deferred maxPerSec s free

theorem stands_apply (hinv : Inv maxPerSec last reads s) (hmax : 1 ≤ maxPerSec)
    (hnow : last ≤ c.time) (hbound : c.time + second ≤ bound)
    (h : Stands maxPerSec due bound s) (hread : (c.apply s).1 ≠ some .read) :
    Stands maxPerSec due bound (c.apply s).2 := by
  obtain hpending | ⟨free, hfree, hdeferred⟩ := h
  · cases c with
    | onRevisionChanged now =>
      left
      rw [Call.apply, PaneScheduler.onRevisionChanged, hpending]
      exact hpending
    | onInputSent now => exact .inl hpending
    | fire now =>
      by_cases hdue : due ≤ now
      · obtain hr | ⟨free, -, hfree, hdeferred, -⟩ := due_fire hinv hmax hnow hpending hdue
        · exact absurd hr hread
        · exact .inr ⟨free, Nat.le_trans hfree hbound, hdeferred⟩
      · have hnot : ¬s.revisionDue now = true := by
          rw [revisionDue_iff hpending]
          exact hdue
        have hcases := fire_cases s now
        rw [Call.apply] at hread ⊢
        generalize s.fire now = fired at hcases hread
        cases hcases with
        | idle => exact .inl hpending
        | limited => exact .inl ((if_neg hnot).trans hpending)
        | read => exact absurd rfl hread
        | pollRead => exact .inl hpending
  · refine .inr ⟨free, hfree, deferred_apply hinv hdeferred fun hfire => ?_⟩
    cases c with
    | onRevisionChanged now => cases hfire
    | onInputSent now => cases hfire
    | fire now =>
      by_contra hlate
      exact hread (deferred_fire hinv hdeferred (Nat.not_lt.mp hlate))

theorem stands_after (hinv : Inv maxPerSec last reads s) (hmax : 1 ≤ maxPerSec)
    (hcalls : InOrder last calls) (hbound : ∀ c ∈ calls, c.time + second ≤ bound)
    (h : Stands maxPerSec due bound s) (hread : some .read ∉ outcomes s calls) :
    Stands maxPerSec due bound (after s calls) := by
  induction calls generalizing s last reads with
  | nil => exact h
  | cons c rest ih =>
    obtain ⟨hnow, hrest⟩ := hcalls.cons
    obtain ⟨hfirst, hlater⟩ := not_or.mp (mt List.mem_cons.mpr hread)
    have hstands := stands_apply hinv hmax hnow (hbound c List.mem_cons_self) h fun heq =>
      hfirst heq.symm
    exact ih (inv_apply hinv hnow) hrest (fun d hd => hbound d (List.mem_cons_of_mem c hd))
      hstands hlater

theorem stands_fire (hinv : Inv maxPerSec last reads s) (hmax : 1 ≤ maxPerSec) (hnow : last ≤ now)
    (hbound : now + second ≤ bound) (h : Stands maxPerSec due bound s) (hdue : due ≤ now)
    (hread : (s.fire now).1 ≠ some .read) :
    ∃ free, free ≤ bound ∧ Deferred maxPerSec (s.fire now).2 free := by
  obtain hpending | ⟨free, hfree, hdeferred⟩ := h
  · obtain hr | ⟨free, -, hfree, hdeferred, -⟩ := due_fire hinv hmax hnow hpending hdue
    · exact absurd hr hread
    · exact ⟨free, Nat.le_trans hfree hbound, hdeferred⟩
  · refine ⟨free, hfree, deferred_apply (c := .fire now) hinv hdeferred fun _ => ?_⟩
    by_contra hlate
    exact hread (deferred_fire hinv hdeferred (Nat.not_lt.mp hlate))

/-- A change that is due is read before a second has passed, if `fire` is called then. -/
theorem read_within_second {calls' : List Call} {t t' : Nat} (hinv : Inv maxPerSec last reads s)
    (hmax : 1 ≤ maxPerSec) (hpending : s.pendingDue = some due)
    (hcalls : InOrder last (calls ++ .fire t :: (calls' ++ [.fire t']))) (hdue : due ≤ t)
    (hlate : t + second ≤ t') :
    some .read ∈ outcomes s (calls ++ .fire t :: (calls' ++ [.fire t'])) := by
  by_contra hread
  rw [outcomes_append, List.mem_append, not_or] at hread
  obtain ⟨hbefore, hread⟩ := hread
  obtain ⟨horder, hrest⟩ := hcalls.append
  obtain ⟨ht, hrest⟩ := hrest.cons
  rw [outcomes, List.mem_cons, not_or, outcomes_append, List.mem_append, not_or] at hread
  obtain ⟨hfire, hmiddle, hlast⟩ := hread
  have hstands := (@stands_after _ _ _ (t + second)) hinv hmax horder
    (fun c hc => Nat.add_le_add_right (Nat.le_trans (time_le_latest horder hc) ht) second)
    (.inl hpending) hbefore
  have hinv := inv_after hinv horder
  obtain ⟨free, hfree, hdeferred⟩ :=
    stands_fire hinv hmax ht (Nat.le_refl _) hstands hdue fun heq => hfire heq.symm
  have hinv := inv_apply (c := .fire t) hinv ht
  obtain ⟨horder, -⟩ := hrest.append
  have hdeferred := deferred_after hinv hdeferred horder hmiddle
  apply hlast
  rw [outcomes, List.mem_cons]
  left
  exact (deferred_fire (inv_after hinv horder) hdeferred
    (Nat.le_trans hfree hlate)).symm

/-- The law of a change that waits: its deadline is known, it waits until it is read, a `fire` at
the deadline reads or puts it off because the cap is reached, and one from the moment on at which
the cap is free again reads. -/
structure Waits (maxPerSec last : Nat) (reads : List Nat) (s : PaneScheduler) (due : Nat) :
    Prop where
  deadline : ∃ d, s.nextDeadline = some d ∧ d ≤ due
  waits : ∀ c : Call, (c.apply s).1 ≠ some .read → (c.apply s).2.pendingDue ≠ none
  fires : ∀ now d, last ≤ now → s.nextDeadline = some d → d ≤ now →
    orders (s.fire now).1 = true ∨
      ((s.fire now).1 = some .rateLimited ∧ maxPerSec ≤ recent second now reads ∧
        (∃ later, (s.fire now).2.pendingDue = some later ∧ now < later) ∧
          (0 < s.poll → ∀ next, (s.fire now).2.nextDeadline = some next → now < next))
  deferred : ∀ now, last ≤ now → due ≤ now →
    (s.fire now).1 = some .read ∨
      ∃ free, now < free ∧ (s.fire now).2.pendingDue = some free ∧
        Frees maxPerSec reads now free ∧
          ∀ (calls : List Call) (t : Nat), InOrder now (calls ++ [.fire t]) →
            (∀ c ∈ calls, c.isFire = true → c.time < free) → free ≤ t →
              ((after (s.fire now).2 calls).fire t).1 = some .read
  read : ∀ (calls calls' : List Call) (t t' : Nat),
    InOrder last (calls ++ .fire t :: (calls' ++ [.fire t'])) → due ≤ t → t + second ≤ t' →
      some .read ∈ outcomes s (calls ++ .fire t :: (calls' ++ [.fire t']))

theorem deferred_before (hinv : Inv maxPerSec last reads s) (h : Deferred maxPerSec s free)
    (hcalls : InOrder last calls) (hbefore : ∀ c ∈ calls, c.isFire = true → c.time < free) :
    Deferred maxPerSec (after s calls) free := by
  induction calls generalizing s last reads with
  | nil => exact h
  | cons c rest ih =>
    obtain ⟨hnow, hrest⟩ := hcalls.cons
    exact ih (inv_apply hinv hnow) (deferred_apply hinv h (hbefore c List.mem_cons_self)) hrest
      fun d hd => hbefore d (List.mem_cons_of_mem c hd)

theorem waits_of_inv (hinv : Inv maxPerSec last reads s) (hmax : 1 ≤ maxPerSec)
    (hpending : s.pendingDue = some due) : Waits maxPerSec last reads s due where
  deadline := nextDeadline_le hpending
  waits := by
    intro c hread
    exact pending_apply (by rw [hpending]; nofun) hread
  fires := fun now d hnow hd hle => fire_at_deadline hinv hmax hnow hpending hd hle
  deferred := by
    intro now hnow hdue
    obtain hread | ⟨free, hlt, -, hdeferred, hfrees⟩ := due_fire hinv hmax hnow hpending hdue
    · exact .inl hread
    · refine .inr ⟨free, hlt, hdeferred.1, hfrees, fun calls t horder hbefore hle => ?_⟩
      have hfired := inv_apply (c := .fire now) hinv hnow
      obtain ⟨horder, -⟩ := horder.append
      have hstill := deferred_before hfired hdeferred horder hbefore
      exact deferred_fire (inv_after hfired horder) hstill hle
  read := fun calls calls' t t' => read_within_second hinv hmax hpending

/-- After any calls a change makes the scheduler wait for it, and one that waits is read. -/
theorem changes_read (window poll : Nat) (inputOffsets : List Nat) (maxPerSec start : Nat)
    (hmax : 1 ≤ maxPerSec) (calls : List Call)
    (hcalls : (calls.map Call.time).Pairwise (· ≤ ·)) (s : PaneScheduler)
    (hs : s = after (.new window poll inputOffsets maxPerSec start) calls) :
    (∀ now, (s.onRevisionChanged now).pendingDue ≠ none) ∧
      ∀ due, s.pendingDue = some due →
        Waits maxPerSec (latest 0 calls)
          (readTimes (.new window poll inputOffsets maxPerSec start) calls) s due := by
  subst hs
  refine ⟨pending_onRevisionChanged _, fun due hpending => ?_⟩
  have hinv := inv_after (inv_new window poll inputOffsets maxPerSec start) (inOrder_zero hcalls)
  exact waits_of_inv hinv hmax hpending

/-- The second change of the example is put off, and waits for the first read to grow old. -/
theorem changes_read_typing :
    ∃ s, s = after (.new (millis 120) (millis 125) [millis 60, millis 130] 2 0) typing ∧
      s.pendingDue = some second ∧
        Waits 2 (millis 135)
          (readTimes (.new (millis 120) (millis 125) [millis 60, millis 130] 2 0) typing) s
            second := by
  have hpending : (after (.new (millis 120) (millis 125) [millis 60, millis 130] 2 0)
      typing).pendingDue = some second := by
    decide
  have hall := changes_read (millis 120) (millis 125) [millis 60, millis 130] 2 0 (by decide)
    typing (by decide) _ rfl
  exact ⟨_, rfl, hpending, hall.2 second hpending⟩

end HerdrMobile.Host.Reads
