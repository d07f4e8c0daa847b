import HerdrMobile.App.Replies

/-!
# Every submit is settled once

A history tells which future waits for which reply. The tables of the service say the same,
so a future completes with the reply that it waits for and with nothing else.
-/
namespace HerdrMobile.App.Submits

open HerdrMobile.Lib.Run HerdrMobile.Proto.Messages HerdrMobile.App.Replies

set_option autoImplicit false

/-- The future that waits for the reply to this request, with the pane of the request. -/
def waiter : List Entry → Corr → Option (Nat × PaneId)
  | [], _ => none
  | .issued f c input _ :: rest, corr =>
    if c = corr then some (f, input.paneId) else waiter rest corr
  | .handed f previous c paneId :: rest, corr =>
    if c = corr then some (f, paneId) else if previous = corr then none else waiter rest corr
  | .completed f _ :: rest, corr => (waiter rest corr).filter fun w => w.1 != f
  | _ :: rest, corr => waiter rest corr

/-- The request that was last acknowledged as queued while a future waited for it. -/
def lastQueued : List Entry → Option Corr
  | [] => none
  | .acknowledged c ack :: rest =>
    if ack.accepted ∧ ack.queued ∧ (waiter rest c).map Prod.snd = some ack.paneId then some c
    else lastQueued rest
  | _ :: rest => lastQueued rest

def completions (history : List Entry) : List Nat :=
  history.filterMap fun
    | .completed f _ => some f
    | _ => none

section History

variable {rest : List Entry} {f g : Nat} {c corr : Corr} {paneId : PaneId} {value : Bool}

theorem waiter_completed_eq {value : Bool} :
    waiter (.completed f value :: rest) corr = (waiter rest corr).filter fun w => w.1 != f := rfl

theorem waiter_completed :
    waiter (.completed f value :: rest) corr = some (g, paneId) ↔
      waiter rest corr = some (g, paneId) ∧ g ≠ f := by
  rw [waiter_completed_eq, Option.filter_eq_some_iff]
  simp

@[simp] theorem completions_completed :
    completions (.completed f value :: rest) = f :: completions rest := rfl

end History

/-- The live timers are told apart by their numbers. -/
structure Timers (s : Service) : Prop where
  distinct : (s.timers.map Prod.fst).Nodup
  past : ∀ t ∈ s.timers, t.1 < s.nextTimer

theorem Timers.await {s : Service} (h : Timers s) (corr : Corr) (paneId : Option PaneId) :
    Timers (s.await corr paneId) where
  distinct := by
    refine List.nodup_cons.mpr ⟨?_, h.distinct⟩
    intro hm
    obtain ⟨t, ht, heq⟩ := List.mem_map.mp hm
    exact Nat.lt_irrefl _ (heq ▸ h.past t ht)
  past t ht := by
    show t.1 < s.nextTimer + 1
    cases List.mem_cons.mp ht with
    | inl ht => subst ht; exact Nat.lt_succ_self _
    | inr ht => exact Nat.lt_succ_of_lt (h.past t ht)

theorem Timers.of_sublist {s t : Service} (h : Timers s) (hsub : t.timers.Sublist s.timers)
    (hn : t.nextTimer = s.nextTimer) : Timers t where
  distinct := h.distinct.sublist (hsub.map _)
  past x hx := hn ▸ h.past x (hsub.subset hx)

structure Tables (s : Service) : Prop where
  submits : ∀ c, s.submits.lookup c = (waiter s.history c).map Prod.fst
  pending : ∀ c f p, waiter s.history c = some (f, p) →
    (s.pendingReplies.lookup c).map PendingReply.paneId = some (some p)
  corrs : ∀ c w, waiter s.history c = some w → ∃ n < s.corrSequence, c = .terminal n
  injective : ∀ c c' w w', waiter s.history c = some w → waiter s.history c' = some w' →
    w.1 = w'.1 → c = c'
  futures : ∀ c w, waiter s.history c = some w →
    w.1 < s.nextFuture ∧ w.1 ∉ completions s.history
  once : (completions s.history).Nodup
  past : ∀ f ∈ completions s.history, f < s.nextFuture
  queued : s.queuedCorr = (lastQueued s.history).filter fun c => (waiter s.history c).isSome
  queuedCorrs : ∀ c, lastQueued s.history = some c → ∃ n < s.corrSequence, c = .terminal n
  shown : s.composerQueued = s.queuedCorr.isSome
  timers : Timers s

theorem tables_start : Tables Service.start where
  submits _ := rfl
  pending _ _ _ h := by cases h
  corrs _ _ h := by cases h
  injective _ _ _ _ h := by cases h
  futures _ _ h := by cases h
  once := List.nodup_nil
  past _ h := by cases h
  queued := rfl
  queuedCorrs _ h := by cases h
  shown := rfl
  timers := ⟨List.nodup_nil, fun _ h => by cases h⟩

/-- An entry that changes nothing for those who wait. -/
def Quiet (entry : Entry) (history : List Entry) : Prop :=
  waiter (entry :: history) = waiter history ∧ lastQueued (entry :: history) = lastQueued history ∧
    completions (entry :: history) = completions history

theorem quiet_sent (c : Corr) (message : Message) (history : List Entry) :
    Quiet (.sent c message) history := ⟨rfl, rfl, rfl⟩

theorem quiet_lost (history : List Entry) : Quiet .lost history := ⟨rfl, rfl, rfl⟩

section Tables

variable {s : Service} {corr : Corr} {f : Nat} {paneId : PaneId}

theorem Tables.note {entry : Entry} (h : Tables s) (hq : Quiet entry s.history) :
    Tables (s.note entry) := by
  obtain ⟨hw, hl, hc⟩ := hq
  refine ⟨?submits, ?pending, ?corrs, ?injective, ?futures, ?once, ?past, ?queued, ?queuedCorrs,
    h.shown, ⟨h.timers.distinct, h.timers.past⟩⟩
  all_goals
    simp only [Service.note, hw, hl, hc]
  case submits => exact h.submits
  case pending => exact h.pending
  case corrs => exact h.corrs
  case injective => exact h.injective
  case futures => exact h.futures
  case once => exact h.once
  case past => exact h.past
  case queued => exact h.queued
  case queuedCorrs => exact h.queuedCorrs

theorem Tables.await {pane : Option PaneId} (h : Tables s)
    (hp : ∀ f p, waiter s.history corr = some (f, p) → pane = some p) :
    Tables (s.await corr pane) where
  submits := h.submits
  pending c f p hw := by
    show ((s.pendingReplies.insert corr _).lookup c).map _ = _
    by_cases hc : c = corr
    · subst hc
      rw [AList.lookup_insert]
      exact congrArg some (hp f p hw)
    · rw [AList.lookup_insert_ne hc]
      exact h.pending c f p hw
  corrs := h.corrs
  injective := h.injective
  futures := h.futures
  once := h.once
  past := h.past
  queued := h.queued
  queuedCorrs := h.queuedCorrs
  shown := h.shown
  timers := h.timers.await corr pane

theorem Tables.cancelTimer (h : Tables s) (timer : Nat) : Tables (s.cancelTimer timer) where
  submits := h.submits
  pending := h.pending
  corrs := h.corrs
  injective := h.injective
  futures := h.futures
  once := h.once
  past := h.past
  queued := h.queued
  queuedCorrs := h.queuedCorrs
  shown := h.shown
  timers := h.timers.of_sublist List.filter_sublist rfl

/-- What a reply leaves of the history. -/
def answered (history : List Entry) (corr : Corr) (accepted : Bool) : List Entry :=
  match waiter history corr with
  | none => history
  | some w => .completed w.1 accepted :: history

theorem finishReply_history (h : Tables s) (corr : Corr) (accepted : Bool) :
    (s.finishReply corr accepted).history = answered s.history corr accepted := by
  unfold Service.finishReply answered
  cases hp : s.pendingReplies.lookup corr with
  | none =>
    cases hw : waiter s.history corr with
    | none => rfl
    | some w =>
      have hpend := h.pending corr w.1 w.2 hw
      rw [hp] at hpend
      cases hpend
  | some pending =>
    have hsub : ∀ t : Service, t.submits = s.submits → t.history = s.history →
        (t.completeSubmit corr accepted).history =
          match waiter s.history corr with
          | none => s.history
          | some w => .completed w.1 accepted :: s.history := by
      intro t ht hh
      unfold Service.completeSubmit
      rw [ht, h.submits corr]
      cases waiter s.history corr with
      | none => exact hh
      | some w => exact congrArg _ hh
    dsimp only
    apply hsub
    · unfold Service.clearQueued
      split <;> rfl
    · unfold Service.clearQueued
      split <;> rfl

theorem waiter_answered (h : Tables s) (accepted : Bool) (c : Corr) :
    waiter (answered s.history corr accepted) c =
      if c = corr then none else waiter s.history c := by
  unfold answered
  cases hw : waiter s.history corr with
  | none =>
    by_cases hc : c = corr
    · rw [if_pos hc, hc]
      exact hw
    · rw [if_neg hc]
  | some w =>
    dsimp only
    rw [waiter_completed_eq]
    by_cases hc : c = corr
    · rw [if_pos hc, hc, hw, Option.filter_some]
      simp
    · rw [if_neg hc]
      cases hw' : waiter s.history c with
      | none => rfl
      | some w' =>
        have hne : w'.1 ≠ w.1 := fun heq => hc (h.injective c corr w' w hw' hw heq)
        rw [Option.filter_some]
        simp [hne]

theorem lastQueued_answered (history : List Entry) (corr : Corr) (accepted : Bool) :
    lastQueued (answered history corr accepted) = lastQueued history := by
  unfold answered
  cases waiter history corr <;> rfl

theorem completions_answered (history : List Entry) (corr : Corr) (accepted : Bool) :
    completions (answered history corr accepted) =
      (waiter history corr).elim [] (fun w => [w.1]) ++ completions history := by
  unfold answered
  cases waiter history corr <;> rfl

/-- What an answer leaves alone. -/
structure Untouched (s t : Service) : Prop where
  nextFuture : t.nextFuture = s.nextFuture
  corrSequence : t.corrSequence = s.corrSequence
  nextTimer : t.nextTimer = s.nextTimer
  disposed : t.disposed = s.disposed
  generation : t.connectionGeneration = s.connectionGeneration
  calls : t.calls = s.calls

theorem Untouched.trans {t u : Service} (h : Untouched s t) (h' : Untouched t u) :
    Untouched s u :=
  ⟨h'.nextFuture.trans h.nextFuture, h'.corrSequence.trans h.corrSequence,
    h'.nextTimer.trans h.nextTimer, h'.disposed.trans h.disposed,
    h'.generation.trans h.generation, h'.calls.trans h.calls⟩

theorem finishReply_fields (h : Tables s) (corr : Corr) (accepted : Bool) :
    Untouched s (s.finishReply corr accepted) ∧
      (∀ c, (s.finishReply corr accepted).submits.lookup c =
        if c = corr then none else s.submits.lookup c) ∧
      (∀ c, (s.finishReply corr accepted).pendingReplies.lookup c =
        if c = corr then none else s.pendingReplies.lookup c) ∧
      (s.finishReply corr accepted).queuedCorr =
        (if s.queuedCorr = some corr then none else s.queuedCorr) ∧
      (s.finishReply corr accepted).composerQueued =
        (if s.queuedCorr = some corr then false else s.composerQueued) ∧
      (s.finishReply corr accepted).timers.Sublist s.timers := by
  unfold Service.finishReply
  cases hp : s.pendingReplies.lookup corr with
  | none =>
    have hw : waiter s.history corr = none := by
      cases hw : waiter s.history corr with
      | none => rfl
      | some w =>
        have hpend := h.pending corr w.1 w.2 hw
        rw [hp] at hpend
        cases hpend
    have hq : s.queuedCorr ≠ some corr := by
      rw [h.queued]
      intro hq
      have hsome := (Option.filter_eq_some_iff.mp hq).2
      rw [hw] at hsome
      cases hsome
    refine ⟨⟨rfl, rfl, rfl, rfl, rfl, rfl⟩, ?_, ?_, ?_, ?_, List.Sublist.refl _⟩
    · intro c
      by_cases hc : c = corr
      · rw [if_pos hc, hc]
        show s.submits.lookup corr = none
        rw [h.submits, hw]
        rfl
      · rw [if_neg hc]
    · intro c
      by_cases hc : c = corr
      · rw [if_pos hc, hc]
        exact hp
      · rw [if_neg hc]
    · rw [if_neg hq]
    · rw [if_neg hq]
  | some pending =>
    dsimp only
    have herase : ∀ {α : Type} (m : AList fun _ : Corr => α) (c : Corr),
        (m.erase corr).lookup c = if c = corr then none else m.lookup c := by
      intro α m c
      by_cases hc : c = corr
      · rw [if_pos hc, hc]
        exact AList.lookup_erase ..
      · rw [if_neg hc]
        exact AList.lookup_erase_ne hc
    let u : Service := { s with pendingReplies := s.pendingReplies.erase corr }.cancelTimer
      pending.timer
    show Untouched s ((u.clearQueued corr).completeSubmit corr accepted) ∧ _
    have hu : Untouched s (u.clearQueued corr) ∧ (u.clearQueued corr).submits = s.submits ∧
        (u.clearQueued corr).pendingReplies = s.pendingReplies.erase corr ∧
        (u.clearQueued corr).queuedCorr =
          (if s.queuedCorr = some corr then none else s.queuedCorr) ∧
        (u.clearQueued corr).composerQueued =
          (if s.queuedCorr = some corr then false else s.composerQueued) ∧
        (u.clearQueued corr).timers.Sublist s.timers := by
      unfold Service.clearQueued
      have huq : u.queuedCorr = s.queuedCorr := rfl
      rw [huq]
      split
      · exact ⟨⟨rfl, rfl, rfl, rfl, rfl, rfl⟩, rfl, rfl, rfl, rfl, List.filter_sublist⟩
      · exact ⟨⟨rfl, rfl, rfl, rfl, rfl, rfl⟩, rfl, rfl, rfl, rfl, List.filter_sublist⟩
    obtain ⟨hun, hsub, hpen, hque, hsho, htim⟩ := hu
    generalize u.clearQueued corr = v at hun hsub hpen hque hsho htim
    unfold Service.completeSubmit
    cases hl : v.submits.lookup corr with
    | none =>
      refine ⟨hun, ?_, ?_, hque, hsho, htim⟩
      · intro c
        show v.submits.lookup c = _
        by_cases hc : c = corr
        · rw [if_pos hc, hc]
          exact hl
        · rw [if_neg hc, hsub]
      · intro c
        show v.pendingReplies.lookup c = _
        rw [hpen]
        exact herase _ c
    | some g =>
      refine ⟨hun.trans ⟨rfl, rfl, rfl, rfl, rfl, rfl⟩, ?_, ?_, hque, hsho, htim⟩
      · intro c
        show (v.submits.erase corr).lookup c = _
        rw [herase, hsub]
      · intro c
        show v.pendingReplies.lookup c = _
        rw [hpen]
        exact herase _ c

theorem Tables.finishReply (h : Tables s) (corr : Corr) (accepted : Bool) :
    Tables (s.finishReply corr accepted) := by
  obtain ⟨hun, hsub, hpen, hque, hsho, htim⟩ := finishReply_fields h corr accepted
  have hhist := finishReply_history h corr accepted
  have hwait : ∀ c, waiter (s.finishReply corr accepted).history c =
      if c = corr then none else waiter s.history c := by
    intro c
    rw [hhist]
    exact waiter_answered h accepted c
  have hold : ∀ {c w}, waiter (s.finishReply corr accepted).history c = some w →
      c ≠ corr ∧ waiter s.history c = some w := by
    intro c w hw
    rw [hwait] at hw
    by_cases hc : c = corr
    · rw [if_pos hc] at hw
      cases hw
    · rw [if_neg hc] at hw
      exact ⟨hc, hw⟩
  have hlast : lastQueued (s.finishReply corr accepted).history = lastQueued s.history := by
    rw [hhist]
    exact lastQueued_answered _ _ _
  have hcompl : completions (s.finishReply corr accepted).history =
      (waiter s.history corr).elim [] (fun w => [w.1]) ++ completions s.history := by
    rw [hhist]
    exact completions_answered _ _ _
  refine ⟨?submits, ?pending, ?corrs, ?injective, ?futures, ?once, ?past, ?queued, ?queuedCorrs,
    ?shown, ?timers⟩
  case submits =>
    intro c
    rw [hsub, hwait]
    by_cases hc : c = corr
    · rw [if_pos hc, if_pos hc]
      rfl
    · rw [if_neg hc, if_neg hc]
      exact h.submits c
  case pending =>
    intro c f p hw
    obtain ⟨hc, hw⟩ := hold hw
    rw [hpen, if_neg hc]
    exact h.pending c f p hw
  case corrs =>
    intro c w hw
    rw [hun.corrSequence]
    exact h.corrs c w (hold hw).2
  case injective =>
    intro c c' w w' hw hw'
    exact h.injective c c' w w' (hold hw).2 (hold hw').2
  case futures =>
    intro c w hw
    obtain ⟨hc, hw⟩ := hold hw
    obtain ⟨hlt, hnot⟩ := h.futures c w hw
    refine ⟨hun.nextFuture ▸ hlt, ?_⟩
    rw [hcompl, List.mem_append]
    intro hm
    cases hm with
    | inl hm =>
      cases hw₀ : waiter s.history corr with
      | none => rw [hw₀] at hm; cases hm
      | some w₀ =>
        rw [hw₀] at hm
        exact hc (h.injective c corr w w₀ hw hw₀ (List.mem_singleton.mp hm))
    | inr hm => exact hnot hm
  case once =>
    rw [hcompl]
    cases hw₀ : waiter s.history corr with
    | none => exact h.once
    | some w₀ => exact List.nodup_cons.mpr ⟨(h.futures corr w₀ hw₀).2, h.once⟩
  case past =>
    intro g hg
    rw [hun.nextFuture]
    rw [hcompl, List.mem_append] at hg
    cases hg with
    | inl hg =>
      cases hw₀ : waiter s.history corr with
      | none => rw [hw₀] at hg; cases hg
      | some w₀ =>
        rw [hw₀] at hg
        rw [List.mem_singleton.mp hg]
        exact (h.futures corr w₀ hw₀).1
    | inr hg => exact h.past g hg
  case queued =>
    rw [hque, hlast, h.queued]
    cases hl : lastQueued s.history with
    | none => rfl
    | some c =>
      rw [Option.filter_some, Option.filter_some, hwait]
      by_cases hc : c = corr
      · subst hc
        cases waiter s.history c <;> simp
      · rw [if_neg hc]
        cases waiter s.history c <;> simp [hc]
  case queuedCorrs =>
    rw [hlast, hun.corrSequence]
    exact h.queuedCorrs
  case shown =>
    rw [hsho, hque]
    split
    · rfl
    · exact h.shown
  case timers => exact h.timers.of_sublist htim hun.nextTimer

theorem Tables.nextFuture (h : Tables s) : Tables { s with nextFuture := s.nextFuture + 1 } where
  submits := h.submits
  pending := h.pending
  corrs := h.corrs
  injective := h.injective
  futures c w hw := by
    obtain ⟨hlt, hnot⟩ := h.futures c w hw
    exact ⟨Nat.lt_succ_of_lt hlt, hnot⟩
  once := h.once
  past f hf := Nat.lt_succ_of_lt (h.past f hf)
  queued := h.queued
  queuedCorrs := h.queuedCorrs
  shown := h.shown
  timers := ⟨h.timers.distinct, h.timers.past⟩

/-- A future that nobody waits for is completed. -/
theorem Tables.complete (h : Tables s) (value : Bool) (hlt : f < s.nextFuture)
    (hnot : f ∉ completions s.history) (hwait : ∀ c w, waiter s.history c = some w → w.1 ≠ f) :
    Tables (s.note (.completed f value)) := by
  have hall : waiter (.completed f value :: s.history) = waiter s.history := by
    funext c
    rw [waiter_completed_eq]
    cases hw : waiter s.history c with
    | none => rfl
    | some w =>
      have hne := hwait c w hw
      rw [Option.filter_some]
      simp [hne]
  refine ⟨?submits, ?pending, ?corrs, ?injective, ?futures, ?once, ?past, ?queued, h.queuedCorrs,
    h.shown, ⟨h.timers.distinct, h.timers.past⟩⟩
  all_goals
    simp only [Service.note, hall]
  case submits => exact h.submits
  case pending => exact h.pending
  case corrs => exact h.corrs
  case injective => exact h.injective
  case futures =>
    intro c w hw
    obtain ⟨hlt', hnot'⟩ := h.futures c w hw
    refine ⟨hlt', ?_⟩
    rw [completions_completed, List.mem_cons]
    intro hm
    cases hm with
    | inl hm => exact hwait c w hw hm
    | inr hm => exact hnot' hm
  case once => exact List.nodup_cons.mpr ⟨hnot, h.once⟩
  case past =>
    intro g hg
    cases List.mem_cons.mp hg with
    | inl hg => exact hg ▸ hlt
    | inr hg => exact h.past g hg
  case queued => exact h.queued

theorem Tables.fresh_future (h : Tables s) : s.nextFuture ∉ completions s.history ∧
    ∀ c w, waiter s.history c = some w → w.1 ≠ s.nextFuture := by
  refine ⟨fun hm => Nat.lt_irrefl _ (h.past _ hm), ?_⟩
  intro c w hw heq
  exact Nat.lt_irrefl _ (heq ▸ (h.futures c w hw).1)

/-- A future that is complete from the start. -/
theorem Tables.futureValue (h : Tables s) (value : Bool) : Tables (s.futureValue value).1 :=
  h.nextFuture.complete value (Nat.lt_succ_self _) h.fresh_future.1 h.fresh_future.2

theorem Tables.fresh_waiter (h : Tables s) : waiter s.history (.terminal s.corrSequence) = none := by
  cases hw : waiter s.history (.terminal s.corrSequence) with
  | none => rfl
  | some w =>
    obtain ⟨n, hn, heq⟩ := h.corrs _ w hw
    cases heq
    exact absurd hn (Nat.lt_irrefl _)

theorem Tables.fresh_lastQueued (h : Tables s) {c : Corr} (hl : lastQueued s.history = some c) :
    c ≠ .terminal s.corrSequence := by
  obtain ⟨n, hn, rfl⟩ := h.queuedCorrs c hl
  intro heq
  cases heq
  exact Nat.lt_irrefl _ hn

theorem Tables.freshCorr (h : Tables s) : Tables s.freshCorr.1 where
  submits := h.submits
  pending := h.pending
  corrs c w hw := by
    obtain ⟨n, hn, hc⟩ := h.corrs c w hw
    exact ⟨n, Nat.lt_succ_of_lt hn, hc⟩
  injective := h.injective
  futures := h.futures
  once := h.once
  past := h.past
  queued := h.queued
  queuedCorrs c hl := by
    obtain ⟨n, hn, hc⟩ := h.queuedCorrs c hl
    exact ⟨n, Nat.lt_succ_of_lt hn, hc⟩
  shown := h.shown
  timers := ⟨h.timers.distinct, h.timers.past⟩

/-- A request that a new future waits for. -/
def issue (input : SendInput) (purpose : Option Purpose) (s : Service) : Service :=
  { s with
    corrSequence := s.corrSequence + 1
    nextFuture := s.nextFuture + 1
    submits := s.submits.insert (.terminal s.corrSequence) s.nextFuture
    history := .issued s.nextFuture (.terminal s.corrSequence) input purpose :: s.history }.await
    (.terminal s.corrSequence) (some input.paneId)

theorem Timers.issue (h : Timers s) (input : SendInput) (purpose : Option Purpose) :
    Timers (Submits.issue input purpose s) := by
  apply Timers.await
  exact ⟨h.distinct, h.past⟩

theorem Tables.issue (h : Tables s) (input : SendInput) (purpose : Option Purpose) :
    Tables (issue input purpose s) := by
  have hfresh := h.fresh_waiter
  have hwait : ∀ c, waiter (Submits.issue input purpose s).history c =
      if .terminal s.corrSequence = c then some (s.nextFuture, input.paneId)
      else waiter s.history c := fun _ => rfl
  have hold : ∀ {c w}, waiter (Submits.issue input purpose s).history c = some w →
      (c = .terminal s.corrSequence ∧ w = (s.nextFuture, input.paneId)) ∨
        (c ≠ .terminal s.corrSequence ∧ waiter s.history c = some w) := by
    intro c w hw
    rw [hwait] at hw
    by_cases hc : .terminal s.corrSequence = c
    · rw [if_pos hc] at hw
      exact .inl ⟨hc.symm, (Option.some.inj hw).symm⟩
    · rw [if_neg hc] at hw
      exact .inr ⟨fun heq => hc heq.symm, hw⟩
  refine ⟨?submits, ?pending, ?corrs, ?injective, ?futures, h.once, ?past, ?queued, ?queuedCorrs,
    h.shown, h.timers.issue input purpose⟩
  case submits =>
    intro c
    rw [hwait]
    show (s.submits.insert _ _).lookup c = _
    by_cases hc : .terminal s.corrSequence = c
    · rw [if_pos hc, ← hc]
      exact AList.lookup_insert _
    · rw [if_neg hc, AList.lookup_insert_ne (fun heq => hc heq.symm)]
      exact h.submits c
  case pending =>
    intro c f p hw
    show ((s.pendingReplies.insert _ _).lookup c).map _ = _
    cases hold hw with
    | inl hnew =>
      obtain ⟨rfl, hp⟩ := hnew
      cases hp
      rw [AList.lookup_insert]
      rfl
    | inr ho =>
      rw [AList.lookup_insert_ne ho.1]
      exact h.pending c f p ho.2
  case corrs =>
    intro c w hw
    cases hold hw with
    | inl hnew => exact ⟨_, Nat.lt_succ_self _, hnew.1⟩
    | inr ho =>
      obtain ⟨n, hn, hc⟩ := h.corrs c w ho.2
      exact ⟨n, Nat.lt_succ_of_lt hn, hc⟩
  case injective =>
    intro c c' w w' hw hw' heq
    cases hold hw with
    | inl hnew =>
      cases hold hw' with
      | inl hnew' => exact hnew.1.trans hnew'.1.symm
      | inr ho' =>
        have hlt := (h.futures c' w' ho'.2).1
        rw [← heq, hnew.2] at hlt
        exact absurd hlt (Nat.lt_irrefl _)
    | inr ho =>
      cases hold hw' with
      | inl hnew' =>
        have hlt := (h.futures c w ho.2).1
        rw [heq, hnew'.2] at hlt
        exact absurd hlt (Nat.lt_irrefl _)
      | inr ho' => exact h.injective c c' w w' ho.2 ho'.2 heq
  case futures =>
    intro c w hw
    cases hold hw with
    | inl hnew =>
      rw [hnew.2]
      exact ⟨Nat.lt_succ_self _, fun hm => Nat.lt_irrefl _ (h.past _ hm)⟩
    | inr ho =>
      obtain ⟨hlt, hnot⟩ := h.futures c w ho.2
      exact ⟨Nat.lt_succ_of_lt hlt, hnot⟩
  case past =>
    intro f hf
    exact Nat.lt_succ_of_lt (h.past f hf)
  case queued =>
    show s.queuedCorr = _
    rw [h.queued]
    show _ = (lastQueued s.history).filter _
    cases hl : lastQueued s.history with
    | none => rfl
    | some c =>
      have hc := h.fresh_lastQueued hl
      have hne : ¬Corr.terminal s.corrSequence = c := fun heq => hc heq.symm
      rw [Option.filter_some, Option.filter_some, hwait, if_neg hne]
  case queuedCorrs =>
    intro c hl
    obtain ⟨n, hn, hc⟩ := h.queuedCorrs c hl
    exact ⟨n, Nat.lt_succ_of_lt hn, hc⟩

theorem send_open (message : Message) (throws : Bool) (hd : ¬s.disposed = true) :
    s.send message corr throws =
      if throws then (s.await corr (Service.requestPane message)).finishReply corr false
      else (s.await corr (Service.requestPane message)).note (.sent corr message) := by
  unfold Service.send
  rw [if_neg hd]

theorem sendAndWait_eq (s : Service) (input : SendInput) (purpose : Option Purpose)
    (throws : Bool) :
    s.sendAndWait input purpose throws =
      if s.disposed then s.futureValue false
      else if throws then
        ((issue input purpose s).finishReply (.terminal s.corrSequence) false).futureValue false
      else
        ((issue input purpose s).note (.sent (.terminal s.corrSequence) (.sendInput input)),
          s.nextFuture) := by
  unfold Service.sendAndWait
  by_cases hd : s.disposed = true
  · rw [if_pos hd, if_pos hd]
  · rw [if_neg hd, if_neg hd]
    cases throws with
    | true => exact congrArg (Service.futureValue false) (send_open _ true hd)
    | false => exact congrArg (·, s.nextFuture) (send_open _ false hd)

theorem Tables.sendAndWait (h : Tables s) (input : SendInput) (purpose : Option Purpose)
    (throws : Bool) : Tables (s.sendAndWait input purpose throws).1 := by
  rw [sendAndWait_eq]
  split
  · exact h.futureValue false
  · split
    · exact ((h.issue input purpose).finishReply _ false).futureValue false
    · exact (h.issue input purpose).note (quiet_sent _ _ _)

/-- A request that nobody waits for. -/
theorem Tables.send (h : Tables s) (message : Message) (throws : Bool)
    (hnone : waiter s.history corr = none) : Tables (s.send message corr throws) := by
  unfold Service.send
  split
  · exact h
  · have hawait : Tables (s.await corr (Service.requestPane message)) := by
      apply h.await
      intro f p hw
      rw [hnone] at hw
      cases hw
    dsimp only
    split
    · exact hawait.finishReply corr false
    · exact hawait.note (quiet_sent _ _ _)

theorem Tables.caller_waiter (h : Tables s) (name : Text) :
    waiter s.history (.caller name) = none := by
  cases hw : waiter s.history (.caller name) with
  | none => rfl
  | some w =>
    obtain ⟨n, -, heq⟩ := h.corrs _ w hw
    cases heq

theorem Tables.sendMessage (h : Tables s) (message : Message) (name : Option Text)
    (throws : Bool) : Tables (s.sendMessage message name throws) := by
  unfold Service.sendMessage
  split
  · exact h
  · cases name with
    | none => exact h.freshCorr.send message throws h.fresh_waiter
    | some name => exact h.send message throws (h.caller_waiter name)

/-- The future goes over to a second request. -/
def handOver (f : Nat) (previous : Corr) (paneId : PaneId) (s : Service) : Service :=
  ({ s with
    submits := (s.submits.erase previous).insert (.terminal s.corrSequence) f
    queuedCorr := none
    composerQueued := false
    corrSequence := s.corrSequence + 1
    history := .handed f previous (.terminal s.corrSequence) paneId :: s.history }.await
    previous (some paneId)).await (.terminal s.corrSequence) (some paneId)

theorem Timers.handOver (h : Timers s) (f : Nat) (previous : Corr) (paneId : PaneId) :
    Timers (Submits.handOver f previous paneId s) := by
  apply Timers.await
  apply Timers.await
  exact ⟨h.distinct, h.past⟩

/-- The state of the tables in which a held submit is sent now. -/
structure Holds (s : Service) (f : Nat) (previous : Corr) (paneId : PaneId) : Prop where
  queued : s.queuedCorr = some previous
  waits : waiter s.history previous = some (f, paneId)
  undisposed : s.disposed = false

theorem Tables.handOver (h : Tables s) {previous : Corr} (hh : Holds s f previous paneId) :
    Tables (handOver f previous paneId s) := by
  have hfresh := h.fresh_waiter
  have hne : Corr.terminal s.corrSequence ≠ previous := by
    intro heq
    rw [heq, hh.waits] at hfresh
    cases hfresh
  have hwait : ∀ c, waiter (Submits.handOver f previous paneId s).history c =
      if .terminal s.corrSequence = c then some (f, paneId)
      else if previous = c then none else waiter s.history c := fun _ => rfl
  have hold : ∀ {c w}, waiter (Submits.handOver f previous paneId s).history c = some w →
      (c = .terminal s.corrSequence ∧ w = (f, paneId)) ∨
        (c ≠ .terminal s.corrSequence ∧ c ≠ previous ∧ waiter s.history c = some w) := by
    intro c w hw
    rw [hwait] at hw
    by_cases hc : .terminal s.corrSequence = c
    · rw [if_pos hc] at hw
      exact .inl ⟨hc.symm, (Option.some.inj hw).symm⟩
    · rw [if_neg hc] at hw
      by_cases hp : previous = c
      · rw [if_pos hp] at hw
        cases hw
      · rw [if_neg hp] at hw
        exact .inr ⟨fun heq => hc heq.symm, fun heq => hp heq.symm, hw⟩
  obtain ⟨hflt, hfnot⟩ := h.futures previous (f, paneId) hh.waits
  have hother : ∀ c w, c ≠ previous → waiter s.history c = some w → w.1 ≠ f := by
    intro c w hc hw heq
    exact hc (h.injective c previous w (f, paneId) hw hh.waits heq)
  have hlast : lastQueued s.history = some previous := by
    have hq := hh.queued
    rw [h.queued] at hq
    exact (Option.filter_eq_some_iff.mp hq).1
  refine ⟨?submits, ?pending, ?corrs, ?injective, ?futures, h.once, h.past, ?queued, ?queuedCorrs,
    rfl, h.timers.handOver f previous paneId⟩
  case submits =>
    intro c
    rw [hwait]
    show ((s.submits.erase previous).insert _ _).lookup c = _
    by_cases hc : .terminal s.corrSequence = c
    · rw [if_pos hc, ← hc]
      exact AList.lookup_insert _
    · rw [if_neg hc, AList.lookup_insert_ne (fun heq => hc heq.symm)]
      by_cases hp : previous = c
      · rw [if_pos hp, ← hp]
        exact AList.lookup_erase ..
      · rw [if_neg hp, AList.lookup_erase_ne (fun heq => hp heq.symm)]
        exact h.submits c
  case pending =>
    intro c g p hw
    show (((s.pendingReplies.insert _ _).insert _ _).lookup c).map _ = _
    cases hold hw with
    | inl hnew =>
      obtain ⟨rfl, hp⟩ := hnew
      cases hp
      rw [AList.lookup_insert]
      rfl
    | inr ho =>
      obtain ⟨hc, hp, hw⟩ := ho
      rw [AList.lookup_insert_ne hc, AList.lookup_insert_ne hp]
      exact h.pending c g p hw
  case corrs =>
    intro c w hw
    cases hold hw with
    | inl hnew => exact ⟨_, Nat.lt_succ_self _, hnew.1⟩
    | inr ho =>
      obtain ⟨n, hn, hc⟩ := h.corrs c w ho.2.2
      exact ⟨n, Nat.lt_succ_of_lt hn, hc⟩
  case injective =>
    intro c c' w w' hw hw' heq
    cases hold hw with
    | inl hnew =>
      cases hold hw' with
      | inl hnew' => exact hnew.1.trans hnew'.1.symm
      | inr ho' =>
        rw [hnew.2] at heq
        exact absurd heq.symm (hother c' w' ho'.2.1 ho'.2.2)
    | inr ho =>
      cases hold hw' with
      | inl hnew' =>
        rw [hnew'.2] at heq
        exact absurd heq (hother c w ho.2.1 ho.2.2)
      | inr ho' => exact h.injective c c' w w' ho.2.2 ho'.2.2 heq
  case futures =>
    intro c w hw
    cases hold hw with
    | inl hnew =>
      rw [hnew.2]
      exact ⟨hflt, hfnot⟩
    | inr ho => exact h.futures c w ho.2.2
  case queued =>
    show none = (lastQueued s.history).filter _
    rw [hlast, Option.filter_some, hwait, if_neg hne, if_pos rfl]
    rfl
  case queuedCorrs =>
    intro c hl
    obtain ⟨n, hn, hc⟩ := h.queuedCorrs c hl
    exact ⟨n, Nat.lt_succ_of_lt hn, hc⟩

theorem Tables.pending_pane (h : Tables s) {pending : PendingReply}
    (hp : s.pendingReplies.lookup corr = some pending) {w : Nat × PaneId}
    (hw : waiter s.history corr = some w) : pending.paneId = some w.2 := by
  have hpend := h.pending corr w.1 w.2 hw
  rw [hp] at hpend
  exact Option.some.inj hpend

theorem Tables.pending_exists (h : Tables s) {w : Nat × PaneId}
    (hw : waiter s.history corr = some w) : ∃ pending, s.pendingReplies.lookup corr = some pending := by
  have hpend := h.pending corr w.1 w.2 hw
  obtain ⟨pending, hp, -⟩ := Option.map_eq_some_iff.mp hpend
  exact ⟨pending, hp⟩

theorem Tables.queued_waits (h : Tables s) (hq : s.queuedCorr = some corr) :
    lastQueued s.history = some corr ∧ ∃ w, waiter s.history corr = some w := by
  rw [h.queued] at hq
  obtain ⟨hl, hw⟩ := Option.filter_eq_some_iff.mp hq
  exact ⟨hl, Option.isSome_iff_exists.mp hw⟩

def nowRequest (paneId : PaneId) : SendInput where
  paneId := paneId
  keys := some ["Enter".toList]

/-- A held submit is sent now, or nothing happens. -/
theorem sendQueuedComposerNow_cases (h : Tables s) (paneId : PaneId) (throws : Bool) :
    ((¬∃ f previous, Holds s f previous paneId) ∧ s.sendQueuedComposerNow paneId throws = s) ∨
      ∃ f previous, Holds s f previous paneId ∧
        s.sendQueuedComposerNow paneId throws =
          if throws then
            (handOver f previous paneId s).finishReply (.terminal s.corrSequence) false
          else
            (handOver f previous paneId s).note
              (.sent (.terminal s.corrSequence) (.sendInput (nowRequest paneId))) := by
  unfold Service.sendQueuedComposerNow
  cases hq : s.queuedCorr with
  | none =>
    refine .inl ⟨?_, rfl⟩
    rintro ⟨f, previous, hh⟩
    exact absurd (hq.symm.trans hh.queued) (by simp)
  | some previous =>
    obtain ⟨-, w, hw⟩ := h.queued_waits hq
    obtain ⟨pending, hp⟩ := h.pending_exists hw
    have hpane := h.pending_pane hp hw
    have hsub : s.submits.lookup previous = some w.1 := by
      rw [h.submits, hw]
      rfl
    simp only [hp, hsub]
    by_cases hguard : s.disposed = true ∨ pending.paneId ≠ some paneId
    · rw [if_pos hguard]
      refine .inl ⟨?_, rfl⟩
      rintro ⟨f, previous', hh⟩
      cases hq.symm.trans hh.queued
      cases hw.symm.trans hh.waits
      cases hguard with
      | inl hd => exact absurd (hd.symm.trans hh.undisposed) (by simp)
      | inr hne => exact hne hpane
    · rw [if_neg hguard]
      have hd : ¬s.disposed = true := fun hd => hguard (.inl hd)
      have hsame : w.2 = paneId := by
        by_contra hne
        apply hguard
        refine .inr ?_
        rw [hpane]
        intro heq
        exact hne (Option.some.inj heq)
      refine .inr ⟨w.1, previous, ⟨hq, ?_, ?_⟩, ?_⟩
      · rw [hw, ← hsame]
      · cases hdis : s.disposed with
        | true => exact absurd hdis hd
        | false => rfl
      · exact send_open _ throws hd

theorem Tables.sendQueuedComposerNow (h : Tables s) (paneId : PaneId) (throws : Bool) :
    Tables (s.sendQueuedComposerNow paneId throws) := by
  obtain ⟨-, heq⟩ | ⟨f, previous, hh, heq⟩ := sendQueuedComposerNow_cases h paneId throws
  · rw [heq]
    exact h
  · rw [heq]
    split
    · exact (h.handOver hh).finishReply _ false
    · exact (h.handOver hh).note (quiet_sent _ _ _)

/-- An acknowledgement that a future waits for, as queued. -/
def Queues (history : List Entry) (c : Corr) (ack : SendInputAck) : Prop :=
  ack.accepted = true ∧ ack.queued = true ∧
    (waiter history c).map Prod.snd = some ack.paneId

theorem quiet_acknowledged {history : List Entry} {ack : SendInputAck}
    (h : ¬Queues history corr ack) : Quiet (.acknowledged corr ack) history :=
  ⟨rfl, if_neg h, rfl⟩

theorem lastQueued_queues {history : List Entry} {ack : SendInputAck}
    (h : Queues history corr ack) : lastQueued (.acknowledged corr ack :: history) = some corr :=
  if_pos h

/-- What an acknowledgement does: it is held, it is the final reply, or nobody waits for it. -/
theorem onSendInputAck_cases (h : Tables s) (corr : Corr) (ack : SendInputAck) :
    (∃ pending, Queues s.history corr ack ∧ s.pendingReplies.lookup corr = some pending ∧
        s.onSendInputAck corr ack =
          { (s.note (.acknowledged corr ack)).cancelTimer pending.timer with
            queuedCorr := some corr
            composerQueued := true }) ∨
      (¬Queues s.history corr ack ∧ (ack.accepted && ack.queued) = false ∧
        (∃ pending, s.pendingReplies.lookup corr = some pending ∧
          pending.paneId = some ack.paneId) ∧
        s.onSendInputAck corr ack =
          (s.note (.acknowledged corr ack)).finishReply corr ack.accepted) ∨
      (¬Queues s.history corr ack ∧
        ((ack.accepted && ack.queued) = false → ∀ w, waiter s.history corr = some w →
          w.2 ≠ ack.paneId) ∧
        s.onSendInputAck corr ack = s.note (.acknowledged corr ack)) := by
  unfold Service.onSendInputAck
  have hlookup : (s.note (.acknowledged corr ack)).pendingReplies = s.pendingReplies := rfl
  simp only [hlookup]
  cases hp : s.pendingReplies.lookup corr with
  | none =>
    have hw : waiter s.history corr = none := by
      cases hw : waiter s.history corr with
      | none => rfl
      | some w =>
        obtain ⟨pending, hpend⟩ := h.pending_exists hw
        cases hp.symm.trans hpend
    refine .inr (.inr ⟨?_, ?_, rfl⟩)
    · rintro ⟨-, -, hq⟩
      rw [hw] at hq
      cases hq
    · intro _ w hw'
      cases hw.symm.trans hw'
  | some pending =>
    dsimp only
    by_cases hpane : pending.paneId = some ack.paneId
    · rw [if_pos hpane]
      cases hfin : ack.accepted && ack.queued with
      | false =>
        rw [if_neg Bool.false_ne_true]
        refine .inr (.inl ⟨?_, rfl, ⟨pending, rfl, hpane⟩, rfl⟩)
        rintro ⟨ha, hq, -⟩
        rw [ha, hq] at hfin
        cases hfin
      | true =>
        obtain ⟨ha, hq⟩ := Bool.and_eq_true_iff.mp hfin
        rw [if_pos rfl]
        unfold Service.onQueued
        by_cases hsub : corr ∈ (s.note (.acknowledged corr ack)).submits
        · rw [if_pos hsub]
          have hsome : (s.submits.lookup corr).isSome := AList.lookup_isSome.mpr hsub
          rw [h.submits, Option.isSome_map] at hsome
          obtain ⟨w, hw⟩ := Option.isSome_iff_exists.mp hsome
          refine .inl ⟨pending, ⟨ha, hq, ?_⟩, rfl, rfl⟩
          rw [hw, Option.map_some, ← h.pending_pane hp hw, hpane]
        · rw [if_neg hsub]
          refine .inr (.inr ⟨?_, ?_, rfl⟩)
          · rintro ⟨-, -, hw⟩
            obtain ⟨w, hw, -⟩ := Option.map_eq_some_iff.mp hw
            apply hsub
            apply AList.lookup_isSome.mp
            show (s.submits.lookup corr).isSome = true
            rw [h.submits, hw]
            rfl
          · intro hf
            cases hf
    · rw [if_neg hpane]
      have hother : ∀ w, waiter s.history corr = some w → w.2 ≠ ack.paneId := by
        intro w hw heq
        exact hpane ((h.pending_pane hp hw).trans (congrArg some heq))
      refine .inr (.inr ⟨?_, fun _ => hother, rfl⟩)
      rintro ⟨-, -, hw⟩
      obtain ⟨w, hw, heq⟩ := Option.map_eq_some_iff.mp hw
      exact hother w hw heq

theorem Tables.onSendInputAck (h : Tables s) (corr : Corr) (ack : SendInputAck) :
    Tables (s.onSendInputAck corr ack) := by
  obtain ⟨pending, hq, -, heq⟩ | ⟨hq, -, -, heq⟩ | ⟨hq, -, heq⟩ :=
    onSendInputAck_cases h corr ack
  · rw [heq]
    obtain ⟨w, hw, -⟩ := Option.map_eq_some_iff.mp hq.2.2
    have hl := lastQueued_queues hq
    refine ⟨h.submits, h.pending, h.corrs, h.injective, h.futures, h.once, h.past, ?_, ?_, rfl,
      h.timers.of_sublist List.filter_sublist rfl⟩
    · show some corr = (lastQueued (.acknowledged corr ack :: s.history)).filter _
      rw [hl, Option.filter_some]
      show some corr = if (waiter s.history corr).isSome = true then some corr else none
      rw [hw]
      rfl
    · intro c hc
      cases hl.symm.trans hc
      exact h.corrs corr w hw
  · rw [heq]
    exact (h.note (quiet_acknowledged hq)).finishReply corr ack.accepted
  · rw [heq]
    exact h.note (quiet_acknowledged hq)

theorem Tables.onPong (h : Tables s) (corr : Corr) : Tables (s.onPong corr) := by
  unfold Service.onPong
  split
  · exact h
  · split
    · exact h.finishReply corr true
    · exact h

/-- The replies of the requests in turn, all refused. -/
def refuseAll (corrs : List Corr) (s : Service) : Service :=
  corrs.foldl (fun s corr => s.finishReply corr false) s

theorem refuseAll_cons (corr : Corr) (corrs : List Corr) (s : Service) :
    refuseAll (corr :: corrs) s = refuseAll corrs (s.finishReply corr false) := rfl

theorem Tables.refuseAll (h : Tables s) (corrs : List Corr) :
    Tables (Submits.refuseAll corrs s) := by
  induction corrs generalizing s with
  | nil => exact h
  | cons corr corrs ih => exact ih (h.finishReply corr false)

theorem refuseAll_untouched (h : Tables s) (corrs : List Corr) :
    Untouched s (Submits.refuseAll corrs s) := by
  induction corrs generalizing s with
  | nil => exact ⟨rfl, rfl, rfl, rfl, rfl, rfl⟩
  | cons corr corrs ih =>
    exact (finishReply_fields h corr false).1.trans (ih (h.finishReply corr false))

theorem Tables.nextGeneration (h : Tables s) :
    Tables { s with connectionGeneration := s.connectionGeneration + 1 } :=
  ⟨h.submits, h.pending, h.corrs, h.injective, h.futures, h.once, h.past, h.queued,
    h.queuedCorrs, h.shown, ⟨h.timers.distinct, h.timers.past⟩⟩

theorem Tables.disconnect (h : Tables s) : Tables s.disconnect :=
  (h.nextGeneration.refuseAll s.pendingReplies.keys).note (quiet_lost _)

theorem Tables.disposed (h : Tables s) : Tables { s with disposed := true } :=
  ⟨h.submits, h.pending, h.corrs, h.injective, h.futures, h.once, h.past, h.queued,
    h.queuedCorrs, h.shown, ⟨h.timers.distinct, h.timers.past⟩⟩

theorem Tables.withCalls (h : Tables s) (calls : List ComposerCall) :
    Tables { s with calls := calls } :=
  ⟨h.submits, h.pending, h.corrs, h.injective, h.futures, h.once, h.past, h.queued,
    h.queuedCorrs, h.shown, ⟨h.timers.distinct, h.timers.past⟩⟩

theorem Tables.sendEnter (h : Tables s) (call : ComposerCall) (throws : Bool) :
    Tables (s.sendEnter call throws) :=
  (h.sendAndWait _ _ throws).withCalls _

theorem Tables.sendComposerSubmit (h : Tables s) (paneId : PaneId) (line : Text)
    (whenIdle throws : Bool) : Tables (s.sendComposerSubmit paneId line whenIdle throws) := by
  unfold Service.sendComposerSubmit
  dsimp only
  split
  · exact h.nextFuture.sendEnter _ throws
  · exact (h.nextFuture.sendAndWait _ _ throws).withCalls _

end Tables

end HerdrMobile.App.Submits
