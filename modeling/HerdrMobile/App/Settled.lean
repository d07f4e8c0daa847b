import HerdrMobile.App.Submits

/-!
# What completes a future

A future completes with the final answer to the request that it waits for, a call returns
with what it waited for, and after a loss of the connection nothing is left to wait for.
-/
namespace HerdrMobile.App.Settled

open HerdrMobile.Lib.Run HerdrMobile.Proto.Messages HerdrMobile.App.Replies
open HerdrMobile.App.Submits

set_option autoImplicit false

theorem mem_completions {history : List Entry} {f : Nat} :
    f ∈ completions history ↔ ∃ v, .completed f v ∈ history := by
  unfold completions
  rw [List.mem_filterMap]
  constructor
  · rintro ⟨e, he, heq⟩
    cases e <;> cases heq
    exact ⟨_, he⟩
  · rintro ⟨v, hv⟩
    exact ⟨_, hv, rfl⟩

theorem valueOf_isSome {history : List Entry} {f : Nat} :
    (Service.valueOf history f).isSome = true ↔ f ∈ completions history := by
  induction history with
  | nil => simp [Service.valueOf, completions]
  | cons e history ih =>
    cases e with
    | completed g v =>
      rw [completions_completed, List.mem_cons]
      show (if g = f then some v else Service.valueOf history f).isSome = true ↔ _
      by_cases hg : g = f
      · rw [if_pos hg]
        exact ⟨fun _ => .inl hg.symm, fun _ => rfl⟩
      · rw [if_neg hg]
        exact ih.trans ⟨.inr, fun h => h.resolve_left fun heq => hg heq.symm⟩
    | _ => exact ih

theorem valueOf_mem {history : List Entry} {f : Nat} {v : Bool}
    (h : Service.valueOf history f = some v) : .completed f v ∈ history := by
  induction history with
  | nil => cases h
  | cons e history ih =>
    cases e with
    | completed g w =>
      have h : (if g = f then some w else Service.valueOf history f) = some v := h
      split at h
      · rename_i hg
        cases h
        rw [hg]
        exact List.mem_cons_self ..
      · exact List.mem_cons_of_mem _ (ih h)
    | _ => exact List.mem_cons_of_mem _ (ih h)

/-- A future that somebody will complete, or has completed. -/
def Covered (s : Service) (f : Nat) : Prop :=
  f ∈ completions s.history ∨ ∃ c p, waiter s.history c = some (f, p)

/-- What the requests of one step add. -/
structure Grows (s t : Service) : Prop where
  nextFuture : s.nextFuture ≤ t.nextFuture
  covered : ∀ f, Covered s f → Covered t f
  new : ∀ f, Covered t f → Covered s f ∨ (s.nextFuture ≤ f ∧ f < t.nextFuture)
  all : ∀ f, s.nextFuture ≤ f → f < t.nextFuture → Covered t f
  kept : ∀ f v, .completed f v ∈ s.history → .completed f v ∈ t.history
  calls : t.calls = s.calls

namespace Grows

variable {s t u : Service}

theorem refl (s : Service) : Grows s s where
  nextFuture := Nat.le_refl _
  covered _ h := h
  new _ h := .inl h
  all _ h h' := absurd h' (Nat.not_lt_of_ge h)
  kept _ _ h := h
  calls := rfl

theorem trans (h : Grows s t) (h' : Grows t u) : Grows s u where
  nextFuture := Nat.le_trans h.nextFuture h'.nextFuture
  covered f hf := h'.covered f (h.covered f hf)
  new f hf := by
    have hle := h.nextFuture
    have hle' := h'.nextFuture
    cases h'.new f hf with
    | inl hf =>
      cases h.new f hf with
      | inl hf => exact .inl hf
      | inr hf => exact .inr ⟨hf.1, by omega⟩
    | inr hf => exact .inr ⟨by omega, hf.2⟩
  all f hf hf' := by
    by_cases hlt : f < t.nextFuture
    · exact h'.covered f (h.all f hf hlt)
    · exact h'.all f (Nat.le_of_not_lt hlt) hf'
  kept f v hf := h'.kept f v (h.kept f v hf)
  calls := h'.calls.trans h.calls

/-- A step that concerns no future. -/
theorem of_same (hn : t.nextFuture = s.nextFuture)
    (hw : waiter t.history = waiter s.history)
    (hc : ∀ f v, .completed f v ∈ t.history ↔ .completed f v ∈ s.history)
    (hcalls : t.calls = s.calls) : Grows s t := by
  have hcov : ∀ f, Covered t f ↔ Covered s f := by
    intro f
    unfold Covered
    rw [mem_completions, mem_completions, hw]
    simp only [hc]
  refine ⟨Nat.le_of_eq hn.symm, fun f h => (hcov f).mpr h, fun f h => .inl ((hcov f).mp h), ?_,
    fun f v h => (hc f v).mpr h, hcalls⟩
  intro f hf hf'
  rw [hn] at hf'
  exact absurd hf' (Nat.not_lt_of_ge hf)

theorem note {entry : Entry} (hq : Quiet entry s.history) (hne : ∀ f v, entry ≠ .completed f v) :
    Grows s (s.note entry) := by
  refine of_same rfl hq.1 ?_ rfl
  intro f v
  show _ ∈ entry :: s.history ↔ _
  rw [List.mem_cons]
  exact ⟨fun h => h.resolve_left fun heq => hne f v heq.symm, .inr⟩

end Grows

theorem completed_finishReply {s : Service} (h : Tables s) (corr : Corr) (accepted : Bool)
    (f : Nat) (v : Bool) :
    .completed f v ∈ (s.finishReply corr accepted).history ↔
      .completed f v ∈ s.history ∨ (v = accepted ∧ ∃ p, waiter s.history corr = some (f, p)) := by
  rw [finishReply_history h]
  unfold answered
  cases hw : waiter s.history corr with
  | none =>
    refine ⟨.inl, ?_⟩
    rintro (h | ⟨-, p, hp⟩)
    · exact h
    · cases hp
  | some w =>
    rw [List.mem_cons]
    constructor
    · rintro (heq | h)
      · cases heq
        exact .inr ⟨rfl, w.2, rfl⟩
      · exact .inl h
    · rintro (h | ⟨rfl, p, hp⟩)
      · exact .inr h
      · cases hp
        exact .inl rfl

theorem waiter_finishReply {s : Service} (h : Tables s) (corr : Corr) (accepted : Bool)
    (c : Corr) : waiter (s.finishReply corr accepted).history c =
      if c = corr then none else waiter s.history c := by
  rw [finishReply_history h]
  exact waiter_answered h accepted c

theorem Grows.finishReply {s : Service} (h : Tables s) (corr : Corr) (accepted : Bool) :
    Grows s (s.finishReply corr accepted) := by
  obtain ⟨hun, -⟩ := finishReply_fields h corr accepted
  have hkept : ∀ f v, .completed f v ∈ s.history →
      .completed f v ∈ (s.finishReply corr accepted).history :=
    fun f v hf => (completed_finishReply h corr accepted f v).mpr (.inl hf)
  refine ⟨Nat.le_of_eq hun.nextFuture.symm, ?_, ?_, ?_, hkept, hun.calls⟩
  · intro f hf
    cases hf with
    | inl hf =>
      obtain ⟨v, hv⟩ := (mem_completions).mp hf
      exact .inl ((mem_completions).mpr ⟨v, hkept f v hv⟩)
    | inr hf =>
      obtain ⟨c, p, hw⟩ := hf
      by_cases hc : c = corr
      · rw [hc] at hw
        exact .inl ((mem_completions).mpr
          ⟨accepted, (completed_finishReply h corr accepted f accepted).mpr (.inr ⟨rfl, p, hw⟩)⟩)
      · refine .inr ⟨c, p, ?_⟩
        rw [waiter_finishReply h, if_neg hc]
        exact hw
  · intro f hf
    cases hf with
    | inl hf =>
      obtain ⟨v, hv⟩ := (mem_completions).mp hf
      cases (completed_finishReply h corr accepted f v).mp hv with
      | inl hv => exact .inl (.inl ((mem_completions).mpr ⟨v, hv⟩))
      | inr hv =>
        obtain ⟨-, p, hw⟩ := hv
        exact .inl (.inr ⟨corr, p, hw⟩)
    | inr hf =>
      obtain ⟨c, p, hw⟩ := hf
      rw [waiter_finishReply h] at hw
      by_cases hc : c = corr
      · rw [if_pos hc] at hw
        cases hw
      · rw [if_neg hc] at hw
        exact .inl (.inr ⟨c, p, hw⟩)
  · intro f hf hf'
    rw [hun.nextFuture] at hf'
    exact absurd hf' (Nat.not_lt_of_ge hf)

/-- A step that adds one future, which is covered. -/
theorem Grows.of_new {s t : Service} (hn : t.nextFuture = s.nextFuture + 1)
    (hnew : Covered t s.nextFuture)
    (hcov : ∀ f, f ≠ s.nextFuture → (Covered t f ↔ Covered s f))
    (hfresh : ¬Covered s s.nextFuture)
    (hkept : ∀ f v, .completed f v ∈ s.history → .completed f v ∈ t.history)
    (hcalls : t.calls = s.calls) : Grows s t where
  nextFuture := by omega
  covered f hf := by
    have hne : f ≠ s.nextFuture := fun heq => hfresh (heq ▸ hf)
    exact (hcov f hne).mpr hf
  new f hf := by
    by_cases hne : f = s.nextFuture
    · exact .inr ⟨Nat.le_of_eq hne.symm, by omega⟩
    · exact .inl ((hcov f hne).mp hf)
  all f hf hf' := by
    have heq : f = s.nextFuture := by omega
    exact heq ▸ hnew
  kept := hkept
  calls := hcalls

theorem covered_lt {s : Service} (h : Tables s) {f : Nat} (hf : Covered s f) :
    f < s.nextFuture := by
  cases hf with
  | inl hf => exact h.past f hf
  | inr hf =>
    obtain ⟨c, p, hw⟩ := hf
    exact (h.futures c (f, p) hw).1

theorem not_covered_next {s : Service} (h : Tables s) : ¬Covered s s.nextFuture :=
  fun hf => Nat.lt_irrefl _ (covered_lt h hf)

theorem Grows.futureValue {s : Service} (h : Tables s) (value : Bool) :
    Grows s (s.futureValue value).1 := by
  have hwait : waiter (s.futureValue value).1.history = waiter s.history := by
    funext c
    show waiter (.completed s.nextFuture value :: s.history) c = _
    rw [waiter_completed_eq]
    cases hw : waiter s.history c with
    | none => rfl
    | some w =>
      have hne := h.fresh_future.2 c w hw
      rw [Option.filter_some]
      simp [hne]
  refine .of_new rfl (.inl (List.mem_cons_self ..)) ?_ (not_covered_next h)
    (fun f v hf => List.mem_cons_of_mem _ hf) rfl
  intro f hne
  unfold Covered
  rw [hwait]
  show f ∈ s.nextFuture :: completions s.history ∨ _ ↔ _
  rw [List.mem_cons]
  simp [hne]

theorem Grows.issue {s : Service} (h : Tables s) (input : SendInput) (purpose : Option Purpose) :
    Grows s (issue input purpose s) := by
  have hwait : ∀ c, waiter (Submits.issue input purpose s).history c =
      if .terminal s.corrSequence = c then some (s.nextFuture, input.paneId)
      else waiter s.history c := fun _ => rfl
  refine .of_new rfl (.inr ⟨.terminal s.corrSequence, input.paneId, ?_⟩) ?_ (not_covered_next h)
    (fun f v hf => List.mem_cons_of_mem _ hf) rfl
  · rw [hwait, if_pos rfl]
  · intro f hne
    have hfresh := h.fresh_waiter
    constructor
    · rintro (hf | ⟨c, p, hw⟩)
      · exact .inl hf
      · rw [hwait] at hw
        by_cases hc : Corr.terminal s.corrSequence = c
        · rw [if_pos hc] at hw
          cases hw
          exact absurd rfl hne
        · rw [if_neg hc] at hw
          exact .inr ⟨c, p, hw⟩
    · rintro (hf | ⟨c, p, hw⟩)
      · exact .inl hf
      · refine .inr ⟨c, p, ?_⟩
        have hc : ¬Corr.terminal s.corrSequence = c := by
          intro heq
          rw [heq, hw] at hfresh
          cases hfresh
        rw [hwait, if_neg hc]
        exact hw

theorem Grows.handOver {s : Service} (h : Tables s) {f : Nat} {previous : Corr} {paneId : PaneId}
    (hh : Holds s f previous paneId) : Grows s (handOver f previous paneId s) := by
  have hwait : ∀ c, waiter (Submits.handOver f previous paneId s).history c =
      if .terminal s.corrSequence = c then some (f, paneId)
      else if previous = c then none else waiter s.history c := fun _ => rfl
  have hfresh := h.fresh_waiter
  have hcov : ∀ g, Covered (Submits.handOver f previous paneId s) g ↔ Covered s g := by
    intro g
    constructor
    · rintro (hg | ⟨c, p, hw⟩)
      · exact .inl hg
      · rw [hwait] at hw
        by_cases hc : Corr.terminal s.corrSequence = c
        · rw [if_pos hc] at hw
          cases hw
          exact .inr ⟨previous, paneId, hh.waits⟩
        · rw [if_neg hc] at hw
          by_cases hp : previous = c
          · rw [if_pos hp] at hw
            cases hw
          · rw [if_neg hp] at hw
            exact .inr ⟨c, p, hw⟩
    · rintro (hg | ⟨c, p, hw⟩)
      · exact .inl hg
      · by_cases hp : previous = c
        · rw [← hp, hh.waits] at hw
          cases hw
          exact .inr ⟨.terminal s.corrSequence, paneId, by rw [hwait, if_pos rfl]⟩
        · have hc : ¬Corr.terminal s.corrSequence = c := by
            intro heq
            rw [heq, hw] at hfresh
            cases hfresh
          refine .inr ⟨c, p, ?_⟩
          rw [hwait, if_neg hc, if_neg hp]
          exact hw
  refine ⟨Nat.le_refl _, fun g hg => (hcov g).mpr hg, fun g hg => .inl ((hcov g).mp hg), ?_,
    fun g v hg => List.mem_cons_of_mem _ hg, rfl⟩
  intro g hg hg'
  exact absurd hg' (Nat.not_lt_of_ge hg)

section Operations

variable {s : Service}

theorem Grows.sendAndWait (h : Tables s) (input : SendInput) (purpose : Option Purpose)
    (throws : Bool) : Grows s (s.sendAndWait input purpose throws).1 := by
  rw [sendAndWait_eq]
  split
  · exact .futureValue h false
  · have hissue := Grows.issue h input purpose
    split
    · have hrefused := Grows.finishReply (h.issue input purpose) (.terminal s.corrSequence) false
      exact (hissue.trans hrefused).trans
        (.futureValue ((h.issue input purpose).finishReply _ false) false)
    · apply hissue.trans
      apply Grows.note (quiet_sent _ _ _)
      intro f v heq
      cases heq

/-- The future that a request gives is covered. -/
theorem covered_sendAndWait (input : SendInput) (purpose : Option Purpose)
    (throws : Bool) :
    Covered (s.sendAndWait input purpose throws).1 (s.sendAndWait input purpose throws).2 := by
  rw [sendAndWait_eq]
  split
  · exact .inl (List.mem_cons_self ..)
  · split
    · exact .inl (List.mem_cons_self ..)
    · refine .inr ⟨.terminal s.corrSequence, input.paneId, ?_⟩
      exact if_pos rfl

/-- Only what the connection refuses is complete from the start. -/
theorem completed_sendAndWait (h : Tables s) (input : SendInput) (purpose : Option Purpose)
    (throws : Bool) (f : Nat) (v : Bool) :
    .completed f v ∈ (s.sendAndWait input purpose throws).1.history ↔
      .completed f v ∈ s.history ∨
        (v = false ∧ (s.disposed = true ∨ throws = true) ∧ s.nextFuture ≤ f ∧
          f < (s.sendAndWait input purpose throws).1.nextFuture) := by
  rw [sendAndWait_eq]
  by_cases hd : s.disposed = true
  · rw [if_pos hd]
    show _ ∈ Entry.completed s.nextFuture false :: s.history ↔
      _ ∨ (_ ∧ _ ∧ _ ∧ f < s.nextFuture + 1)
    rw [List.mem_cons]
    constructor
    · rintro (heq | hf)
      · cases heq
        exact .inr ⟨rfl, .inl hd, Nat.le_refl _, Nat.lt_succ_self _⟩
      · exact .inl hf
    · rintro (hf | ⟨rfl, -, hle, hlt⟩)
      · exact .inr hf
      · have heq : f = s.nextFuture := by omega
        rw [heq]
        exact .inl rfl
  · rw [if_neg hd]
    cases throws with
    | true =>
      rw [if_pos rfl]
      have hissue := h.issue input purpose
      have hnext : ((issue input purpose s).finishReply (.terminal s.corrSequence)
          false).nextFuture = s.nextFuture + 1 := (finishReply_fields hissue _ false).1.nextFuture
      have hanswered := completed_finishReply hissue (.terminal s.corrSequence) false f v
      have hwait : waiter (issue input purpose s).history (.terminal s.corrSequence) =
          some (s.nextFuture, input.paneId) := if_pos rfl
      have hold : .completed f v ∈ (issue input purpose s).history ↔
          .completed f v ∈ s.history := by
        show _ ∈ Entry.issued _ _ _ _ :: s.history ↔ _
        simp
      rw [hold, hwait] at hanswered
      generalize (issue input purpose s).finishReply (.terminal s.corrSequence) false = t
        at hnext hanswered
      show _ ∈ Entry.completed t.nextFuture false :: t.history ↔
        _ ∨ (_ ∧ _ ∧ _ ∧ f < t.nextFuture + 1)
      rw [List.mem_cons, hanswered, hnext]
      constructor
      · rintro (heq | hf | ⟨rfl, p, hp⟩)
        · cases heq
          refine .inr ⟨rfl, .inr rfl, by omega, by omega⟩
        · exact .inl hf
        · cases hp
          refine .inr ⟨rfl, .inr rfl, by omega, by omega⟩
      · rintro (hf | ⟨rfl, -, hle, hlt⟩)
        · exact .inr (.inl hf)
        · by_cases heq : f = s.nextFuture
          · rw [heq]
            exact .inr (.inr ⟨rfl, input.paneId, rfl⟩)
          · have heq : f = s.nextFuture + 1 := by omega
            rw [heq]
            exact .inl rfl
    | false =>
      rw [if_neg Bool.false_ne_true]
      show _ ∈ Entry.sent _ _ :: Entry.issued _ _ _ _ :: s.history ↔ _
      simp [hd]

/-- Nobody waits for the request, so the answer completes nothing. -/
theorem finishReply_unwaited (h : Tables s) {corr : Corr} (accepted : Bool)
    (hnone : waiter s.history corr = none) :
    (s.finishReply corr accepted).history = s.history := by
  rw [finishReply_history h]
  unfold answered
  rw [hnone]

/-- Nothing is completed, and no future is new. -/
structure Still (s t : Service) : Prop where
  nextFuture : t.nextFuture = s.nextFuture
  waiter : waiter t.history = waiter s.history
  completed : ∀ f v, .completed f v ∈ t.history ↔ .completed f v ∈ s.history
  calls : t.calls = s.calls

theorem Still.grows {t : Service} (h : Still s t) : Grows s t :=
  .of_same h.nextFuture h.waiter h.completed h.calls

theorem Still.refl (s : Service) : Still s s := ⟨rfl, rfl, fun _ _ => Iff.rfl, rfl⟩

theorem Still.trans {t u : Service} (h : Still s t) (h' : Still t u) : Still s u :=
  ⟨h'.nextFuture.trans h.nextFuture, h'.waiter.trans h.waiter,
    fun f v => (h'.completed f v).trans (h.completed f v), h'.calls.trans h.calls⟩

theorem Still.note {entry : Entry} (hq : Quiet entry s.history)
    (hne : ∀ f v, entry ≠ .completed f v) : Still s (s.note entry) := by
  refine ⟨rfl, hq.1, ?_, rfl⟩
  intro f v
  show _ ∈ entry :: s.history ↔ _
  rw [List.mem_cons]
  exact ⟨fun h => h.resolve_left fun heq => hne f v heq.symm, .inr⟩

theorem Still.finishReply (h : Tables s) {corr : Corr} (accepted : Bool)
    (hnone : Submits.waiter s.history corr = none) : Still s (s.finishReply corr accepted) := by
  obtain ⟨hun, -⟩ := finishReply_fields h corr accepted
  have hhist := finishReply_unwaited h accepted hnone
  exact ⟨hun.nextFuture, by rw [hhist], fun f v => by rw [hhist], hun.calls⟩

theorem Still.send (h : Tables s) {corr : Corr} (message : Message) (throws : Bool)
    (hnone : Submits.waiter s.history corr = none) : Still s (s.send message corr throws) := by
  unfold Service.send
  split
  · exact .refl s
  · have hawait : Tables (s.await corr (Service.requestPane message)) := by
      apply h.await
      intro f p hw
      rw [hnone] at hw
      cases hw
    have hstill : Still s (s.await corr (Service.requestPane message)) :=
      ⟨rfl, rfl, fun _ _ => Iff.rfl, rfl⟩
    dsimp only
    split
    · exact hstill.trans (.finishReply hawait false hnone)
    · apply hstill.trans
      apply Still.note (quiet_sent _ _ _)
      intro f v heq
      cases heq

theorem Still.sendMessage (h : Tables s) (message : Message) (name : Option Text)
    (throws : Bool) : Still s (s.sendMessage message name throws) := by
  unfold Service.sendMessage
  split
  · exact .refl s
  · cases name with
    | none =>
      have hfresh : Still s s.freshCorr.1 := ⟨rfl, rfl, fun _ _ => Iff.rfl, rfl⟩
      exact hfresh.trans (.send h.freshCorr message throws h.fresh_waiter)
    | some name => exact .send h message throws (h.caller_waiter name)

/-- A probe has no pane, so nobody waits for its answer. -/
theorem Still.onPong (h : Tables s) (corr : Corr) : Still s (s.onPong corr) := by
  unfold Service.onPong
  cases hp : s.pendingReplies.lookup corr with
  | none => exact .refl s
  | some pending =>
    dsimp only
    by_cases hpane : pending.paneId = none
    · rw [if_pos hpane]
      apply Still.finishReply h true
      obtain hw | ⟨w, hw⟩ := Option.eq_none_or_eq_some (Submits.waiter s.history corr)
      · exact hw
      · rw [h.pending_pane hp hw] at hpane
        cases hpane
    · rw [if_neg hpane]
      exact .refl s

/-- The requests of these ids are answered, and no other. -/
theorem refuseAll_spec (h : Tables s) (corrs : List Corr) :
    Grows s (refuseAll corrs s) ∧
      (∀ c, waiter (refuseAll corrs s).history c =
        if c ∈ corrs then none else waiter s.history c) ∧
      ∀ f v, .completed f v ∈ (refuseAll corrs s).history ↔
        .completed f v ∈ s.history ∨
          (v = false ∧ ∃ c ∈ corrs, ∃ p, waiter s.history c = some (f, p)) := by
  induction corrs generalizing s with
  | nil =>
    refine ⟨.refl s, fun c => by simp [refuseAll], fun f v => ?_⟩
    simp [refuseAll]
  | cons corr corrs ih =>
    rw [refuseAll_cons]
    obtain ⟨hgrow, hwait, hcomp⟩ := ih (h.finishReply corr false)
    refine ⟨(Grows.finishReply h corr false).trans hgrow, ?_, ?_⟩
    · intro c
      rw [hwait, waiter_finishReply h]
      by_cases hc : c = corr
      · simp [hc]
      · simp [hc]
    · intro f v
      rw [hcomp, completed_finishReply h]
      simp only [waiter_finishReply h]
      constructor
      · rintro ((hf | ⟨rfl, p, hp⟩) | ⟨rfl, c, hc, p, hp⟩)
        · exact .inl hf
        · exact .inr ⟨rfl, corr, List.mem_cons_self .., p, hp⟩
        · by_cases heq : c = corr
          · rw [if_pos heq] at hp
            cases hp
          · rw [if_neg heq] at hp
            exact .inr ⟨rfl, c, List.mem_cons_of_mem _ hc, p, hp⟩
      · rintro (hf | ⟨rfl, c, hc, p, hp⟩)
        · exact .inl (.inl hf)
        · by_cases heq : c = corr
          · rw [heq] at hp
            exact .inl (.inr ⟨rfl, p, hp⟩)
          · refine .inr ⟨rfl, c, (List.mem_cons.mp hc).resolve_left heq, p, ?_⟩
            rw [if_neg heq]
            exact hp

/-- A loss of the connection refuses every request that somebody waits for. -/
theorem disconnect_spec (h : Tables s) :
    Grows s s.disconnect ∧ (∀ c, waiter s.disconnect.history c = none) ∧
      ∀ f v, .completed f v ∈ s.disconnect.history ↔
        .completed f v ∈ s.history ∨
          (v = false ∧ ∃ c p, waiter s.history c = some (f, p)) := by
  have hnext := h.nextGeneration
  have hsame : Grows s { s with connectionGeneration := s.connectionGeneration + 1 } :=
    .of_same rfl rfl (fun _ _ => Iff.rfl) rfl
  obtain ⟨hgrow, hwait, hcomp⟩ := refuseAll_spec hnext s.pendingReplies.keys
  have hkeys : ∀ c w, waiter s.history c = some w → c ∈ s.pendingReplies.keys := by
    intro c w hw
    obtain ⟨pending, hp⟩ := h.pending_exists hw
    apply AList.mem_keys.mpr
    exact AList.lookup_isSome.mp (by rw [hp]; rfl)
  refine ⟨(hsame.trans hgrow).trans (.note (quiet_lost _) fun f v heq => by cases heq), ?_, ?_⟩
  · intro c
    show waiter (refuseAll s.pendingReplies.keys _).history c = none
    rw [hwait]
    by_cases hc : c ∈ s.pendingReplies.keys
    · rw [if_pos hc]
    · rw [if_neg hc]
      obtain hw | ⟨w, hw⟩ := Option.eq_none_or_eq_some (waiter s.history c)
      · exact hw
      · exact absurd (hkeys c w hw) hc
  · intro f v
    show _ ∈ Entry.lost :: (refuseAll s.pendingReplies.keys _).history ↔ _
    rw [List.mem_cons, hcomp]
    constructor
    · rintro (heq | hf | ⟨rfl, c, -, p, hp⟩)
      · cases heq
      · exact .inl hf
      · exact .inr ⟨rfl, c, p, hp⟩
    · rintro (hf | ⟨rfl, c, p, hp⟩)
      · exact .inr (.inl hf)
      · exact .inr (.inr ⟨rfl, c, hkeys c _ hp, p, hp⟩)

end Operations

end HerdrMobile.App.Settled
