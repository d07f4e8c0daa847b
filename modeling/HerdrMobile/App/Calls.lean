import HerdrMobile.App.Settled

/-!
# The calls that wait

The body of a composer submit waits for the line and then for the Enter. Each future is
complete, or waits for a request, or belongs to such a call.
-/
namespace HerdrMobile.App.Calls

open HerdrMobile.Lib.Run HerdrMobile.Proto.Messages HerdrMobile.App.Replies
open HerdrMobile.App.Submits HerdrMobile.App.Settled

set_option autoImplicit false

section Operations

variable {s : Service}

theorem Grows.sendQueuedComposerNow (h : Tables s) (paneId : PaneId) (throws : Bool) :
    Grows s (s.sendQueuedComposerNow paneId throws) := by
  obtain ⟨-, heq⟩ | ⟨f, previous, hh, heq⟩ := sendQueuedComposerNow_cases h paneId throws
  · rw [heq]
    exact .refl s
  · rw [heq]
    have hover := Grows.handOver h hh
    split
    · exact hover.trans (.finishReply (h.handOver hh) _ false)
    · apply hover.trans
      apply Grows.note (quiet_sent _ _ _)
      intro g v hg
      cases hg

/-- A held submit that cannot be sent now is refused. -/
theorem completed_sendQueuedComposerNow (h : Tables s) (paneId : PaneId) (throws : Bool)
    (g : Nat) (v : Bool) :
    .completed g v ∈ (s.sendQueuedComposerNow paneId throws).history ↔
      .completed g v ∈ s.history ∨
        (v = false ∧ throws = true ∧ ∃ previous, Holds s g previous paneId) := by
  obtain ⟨hnone, heq⟩ | ⟨f, previous, hh, heq⟩ := sendQueuedComposerNow_cases h paneId throws
  · rw [heq]
    refine ⟨.inl, ?_⟩
    rintro (hg | ⟨-, -, previous, hh⟩)
    · exact hg
    · exact absurd ⟨g, previous, hh⟩ hnone
  · rw [heq]
    have hold : .completed g v ∈ (handOver f previous paneId s).history ↔
        .completed g v ∈ s.history := by
      show _ ∈ Entry.handed _ _ _ _ :: s.history ↔ _
      simp
    cases throws with
    | true =>
      rw [if_pos rfl, completed_finishReply (h.handOver hh), hold]
      have hwait : waiter (handOver f previous paneId s).history (.terminal s.corrSequence) =
          some (f, paneId) := if_pos rfl
      rw [hwait]
      constructor
      · rintro (hg | ⟨rfl, p, hp⟩)
        · exact .inl hg
        · cases hp
          exact .inr ⟨rfl, rfl, previous, hh⟩
      · rintro (hg | ⟨rfl, -, previous', hh'⟩)
        · exact .inl hg
        · cases hh.queued.symm.trans hh'.queued
          cases hh.waits.symm.trans hh'.waits
          exact .inr ⟨rfl, paneId, rfl⟩
    | false =>
      rw [if_neg Bool.false_ne_true]
      show _ ∈ Entry.sent _ _ :: (handOver f previous paneId s).history ↔ _
      rw [List.mem_cons, hold]
      simp

/-- The final answer to a request: what it says, unless it holds the request. -/
def final (corr : Corr) (ack : SendInputAck) (c : Corr) (paneId : PaneId) : Option Bool :=
  if corr = c ∧ ack.paneId = paneId ∧ (ack.accepted && ack.queued) = false then some ack.accepted
  else none

theorem Grows.onSendInputAck (h : Tables s) (corr : Corr) (ack : SendInputAck) :
    Grows s (s.onSendInputAck corr ack) := by
  have hnote : Grows s (s.note (.acknowledged corr ack)) := by
    refine .of_same rfl rfl ?_ rfl
    intro f v
    show _ ∈ Entry.acknowledged _ _ :: s.history ↔ _
    simp
  obtain ⟨pending, -, -, heq⟩ | ⟨hq, -, -, heq⟩ | ⟨-, -, heq⟩ := onSendInputAck_cases h corr ack
  · rw [heq]
    exact hnote.trans (.of_same rfl rfl (fun _ _ => Iff.rfl) rfl)
  · rw [heq]
    exact hnote.trans (.finishReply (h.note (quiet_acknowledged hq)) corr ack.accepted)
  · rw [heq]
    exact hnote

theorem completed_onSendInputAck (h : Tables s) (corr : Corr) (ack : SendInputAck) (f : Nat)
    (v : Bool) : .completed f v ∈ (s.onSendInputAck corr ack).history ↔
      .completed f v ∈ s.history ∨
        ∃ p, waiter s.history corr = some (f, p) ∧ final corr ack corr p = some v := by
  have hnote : .completed f v ∈ (s.note (.acknowledged corr ack)).history ↔
      .completed f v ∈ s.history := by
    show _ ∈ Entry.acknowledged _ _ :: s.history ↔ _
    simp
  unfold final
  obtain ⟨pending, ⟨ha, hq, -⟩, -, heq⟩ | ⟨hq, hfin, ⟨pending, hp, hpane⟩, heq⟩ |
      ⟨-, hother, heq⟩ := onSendInputAck_cases h corr ack
  · rw [heq]
    refine ⟨fun hf => .inl (hnote.mp hf), ?_⟩
    rintro (hf | ⟨p, -, hv⟩)
    · exact hnote.mpr hf
    · simp [ha, hq] at hv
  · rw [heq, completed_finishReply (h.note (quiet_acknowledged hq)), hnote]
    show _ ∨ (_ ∧ ∃ p, waiter s.history corr = some (f, p)) ↔ _
    constructor
    · rintro (hf | ⟨rfl, p, hw⟩)
      · exact .inl hf
      · have hsame := (h.pending_pane hp hw).symm.trans hpane
        exact .inr ⟨p, hw, if_pos ⟨rfl, (Option.some.inj hsame).symm, hfin⟩⟩
    · rintro (hf | ⟨p, hw, hv⟩)
      · exact .inl hf
      · split at hv
        · exact .inr ⟨(Option.some.inj hv).symm, p, hw⟩
        · cases hv
  · rw [heq, hnote]
    refine ⟨.inl, ?_⟩
    rintro (hf | ⟨p, hw, hv⟩)
    · exact hf
    · split at hv
      · rename_i hall
        exact absurd hall.2.1.symm (hother hall.2.2 _ hw)
      · cases hv

end Operations

/-- The future of a call is nobody else's, and what it waits for is covered. `running` are
the calls whose bodies go on in this very step. -/
structure Owned (s : Service) (running : List Nat) : Prop where
  fresh : ∀ f ∈ running ++ s.calls.map ComposerCall.future, f < s.nextFuture ∧ ¬Covered s f
  distinct : (running ++ s.calls.map ComposerCall.future).Nodup
  awaited : ∀ call ∈ s.calls, Covered s call.stage.awaited
  all : ∀ f < s.nextFuture, Covered s f ∨ f ∈ running ++ s.calls.map ComposerCall.future

theorem owned_start : Owned Service.start [] where
  fresh _ h := by cases h
  distinct := List.nodup_nil
  awaited _ h := by cases h
  all _ h := absurd h (Nat.not_lt_zero _)

section Owned

variable {s t : Service} {running : List Nat} {call : ComposerCall}

theorem Owned.grows (h : Owned s running) (hg : Grows s t) : Owned t running where
  fresh f hf := by
    rw [hg.calls] at hf
    obtain ⟨hlt, hnot⟩ := h.fresh f hf
    refine ⟨Nat.lt_of_lt_of_le hlt hg.nextFuture, ?_⟩
    intro hcov
    cases hg.new f hcov with
    | inl hold => exact hnot hold
    | inr hnew => exact absurd hlt (Nat.not_lt_of_ge hnew.1)
  distinct := hg.calls ▸ h.distinct
  awaited call hc := hg.covered _ (h.awaited call (hg.calls ▸ hc))
  all f hf := by
    rw [hg.calls]
    by_cases hlt : f < s.nextFuture
    · cases h.all f hlt with
      | inl hcov => exact .inl (hg.covered f hcov)
      | inr hm => exact .inr hm
    · exact .inl (hg.all f (Nat.le_of_not_lt hlt) hf)

/-- A call begins. -/
theorem Owned.begin (h : Owned s []) (ht : Tables s) :
    Owned { s with nextFuture := s.nextFuture + 1 } [s.nextFuture] where
  fresh f hf := by
    show f < s.nextFuture + 1 ∧ _
    cases List.mem_cons.mp hf with
    | inl heq =>
      rw [heq]
      exact ⟨Nat.lt_succ_self _, not_covered_next ht⟩
    | inr hm =>
      obtain ⟨hlt, hnot⟩ := h.fresh f hm
      exact ⟨Nat.lt_succ_of_lt hlt, hnot⟩
  distinct := by
    refine List.nodup_cons.mpr ⟨?_, h.distinct⟩
    intro hm
    exact Nat.lt_irrefl _ (h.fresh _ hm).1
  awaited := h.awaited
  all f hf := by
    have hf : f < s.nextFuture + 1 := hf
    by_cases heq : f = s.nextFuture
    · exact .inr (heq ▸ List.mem_cons_self ..)
    · cases h.all f (by omega) with
      | inl hcov => exact .inl hcov
      | inr hm => exact .inr (List.mem_cons_of_mem _ hm)

/-- A call goes on. -/
theorem Owned.take (h : Owned s []) (hc : call ∈ s.calls) :
    Owned { s with calls := s.calls.erase call } [call.future] := by
  have hperm : (s.calls.map ComposerCall.future).Perm
      (call.future :: (s.calls.erase call).map ComposerCall.future) :=
    (List.perm_cons_erase hc).map ComposerCall.future
  refine ⟨?_, ?_, ?_, ?_⟩
  · intro f hf
    exact h.fresh f (hperm.mem_iff.mpr hf)
  · exact hperm.nodup_iff.mp h.distinct
  · intro other ho
    exact h.awaited other (List.mem_of_mem_erase ho)
  · intro f hf
    cases h.all f hf with
    | inl hcov => exact .inl hcov
    | inr hm => exact .inr (hperm.mem_iff.mp hm)

/-- A call waits. -/
theorem Owned.park (h : Owned s [call.future]) (hc : Covered s call.stage.awaited) :
    Owned { s with calls := call :: s.calls } [] where
  fresh := h.fresh
  distinct := h.distinct
  awaited other ho := by
    cases List.mem_cons.mp ho with
    | inl heq => exact heq ▸ hc
    | inr hm => exact h.awaited other hm
  all := h.all

/-- A call returns. -/
theorem Owned.complete {f : Nat} (h : Owned s [f]) (ht : Tables s) (v : Bool) :
    Tables (s.note (.completed f v)) ∧ Owned (s.note (.completed f v)) [] := by
  obtain ⟨hlt, hnot⟩ := h.fresh f (List.mem_cons_self ..)
  have hfree : ∀ c w, waiter s.history c = some w → w.1 ≠ f :=
    fun c w hw heq => hnot (.inr ⟨c, w.2, by rw [hw, ← heq]⟩)
  have hwait : waiter (.completed f v :: s.history) = waiter s.history := by
    funext c
    rw [waiter_completed_eq]
    obtain hw | ⟨w, hw⟩ := Option.eq_none_or_eq_some (waiter s.history c)
    · rw [hw]
      rfl
    · have hne := hfree c w hw
      rw [hw, Option.filter_some]
      simp [hne]
  have hcov : ∀ g, Covered (s.note (.completed f v)) g ↔ g = f ∨ Covered s g := by
    intro g
    unfold Covered
    show g ∈ completions (.completed f v :: s.history) ∨
      (∃ c p, waiter (.completed f v :: s.history) c = some (g, p)) ↔ _
    rw [hwait, completions_completed, List.mem_cons, or_assoc]
  obtain ⟨hf, hdistinct⟩ := List.nodup_cons.mp h.distinct
  refine ⟨ht.complete v hlt (fun hm => hnot (.inl hm)) hfree, ?_, hdistinct, ?_, ?_⟩
  · intro g hg
    obtain ⟨hlt', hnot'⟩ := h.fresh g (List.mem_cons_of_mem _ hg)
    refine ⟨hlt', fun hc => ?_⟩
    cases (hcov g).mp hc with
    | inl heq => exact hf (heq ▸ hg)
    | inr hc => exact hnot' hc
  · intro other ho
    exact (hcov _).mpr (.inr (h.awaited other ho))
  · intro g hg
    cases h.all g hg with
    | inl hc => exact .inl ((hcov g).mpr (.inr hc))
    | inr hm =>
      cases List.mem_cons.mp hm with
      | inl heq => exact .inl ((hcov g).mpr (.inl heq))
      | inr hm => exact .inr hm

/-- A call makes a request and waits for it. -/
theorem Owned.request {f : Nat} (h : Owned s [f]) (ht : Tables s) (input : SendInput)
    (purpose : Option Purpose) (throws : Bool) {next : ComposerCall} (hfuture : next.future = f)
    (hstage : next.stage.awaited = (s.sendAndWait input purpose throws).2) :
    Owned { (s.sendAndWait input purpose throws).1 with
      calls := next :: (s.sendAndWait input purpose throws).1.calls } [] := by
  have hgrow := h.grows (Grows.sendAndWait ht input purpose throws)
  rw [← hfuture] at hgrow
  apply hgrow.park
  rw [hstage]
  exact covered_sendAndWait input purpose throws

theorem Owned.sendEnter (h : Owned s [call.future]) (ht : Tables s) (throws : Bool) :
    Owned (s.sendEnter call throws) [] :=
  h.request ht _ _ throws rfl rfl

theorem Owned.sendComposerSubmit (h : Owned s []) (ht : Tables s) (paneId : PaneId)
    (line : Text) (whenIdle throws : Bool) :
    Owned (s.sendComposerSubmit paneId line whenIdle throws) [] := by
  have hbegin := h.begin ht
  unfold Service.sendComposerSubmit
  dsimp only
  split
  · exact hbegin.request ht.nextFuture _ _ throws rfl rfl
  · exact hbegin.request ht.nextFuture _ _ throws rfl rfl

end Owned

/-- The answer that an event gives to a request that a future waits for. -/
def answer (s : Service) (corr : Corr) (paneId : PaneId) : Service.Event → Option Bool
  | .sendInputAck c ack => final c ack corr paneId
  | .error c => if c = corr then some false else none
  | .timeout timer => if (timer, corr) ∈ s.timers then some false else none
  | .sendQueuedComposerNow p throws =>
    if throws = true ∧ s.queuedCorr = some corr ∧ p = paneId ∧ s.disposed = false then some false
    else none
  | .disconnect | .dispose => some false
  | _ => none

/-- What a call returns when its body goes on. -/
def result (s : Service) (call : ComposerCall) : Service.Event → Option Bool
  | .resume c _ =>
    if c = call then
      match call.stage, Service.valueOf s.history call.stage.awaited with
      | .line _, some value =>
        if value = false ∨ call.generation ≠ s.connectionGeneration then some false else none
      | .enter _, value => value
      | .line _, none => none
    else none
  | _ => none

/-- Whether the connection refuses the request that the event makes. -/
def refused : Service.Event → Bool
  | .sendComposerSubmit _ _ _ throws => throws
  | .sendAnswerSubmit _ _ throws => throws
  | .cancelComposerSubmit _ throws => throws
  | .resume _ throws => throws
  | _ => false

/-- Why a step completes a future. -/
inductive Completes (s : Service) (e : Service.Event) (t : Service) (f : Nat) (v : Bool) : Prop where
  | answered (corr : Corr) (paneId : PaneId) (waits : waiter s.history corr = some (f, paneId))
      (answer : answer s corr paneId e = some v)
  | returned (call : ComposerCall) (mem : call ∈ s.calls) (future : call.future = f)
      (result : result s call e = some v)
  | unsent (value : v = false) (new : s.nextFuture ≤ f ∧ f < t.nextFuture)
      (refused : s.disposed = true ∨ refused e = true)
      (noCall : ∀ call ∈ t.calls, call.future ≠ f)

section Step

variable {s t : Service} {e : Service.Event} {call : ComposerCall}

theorem Owned.lt {running : List Nat} (h : Owned s running) (hc : call ∈ s.calls) :
    call.future < s.nextFuture :=
  (h.fresh _ (List.mem_append_right _ (List.mem_map_of_mem hc))).1

/-- A step that gives no future and ends no call. -/
theorem completes_answered (hn : t.nextFuture = s.nextFuture)
    (hresult : ∀ call, result s call e = none) {f : Nat} {v : Bool} :
    Completes s e t f v ↔ ∃ c p, waiter s.history c = some (f, p) ∧ answer s c p e = some v := by
  constructor
  · intro h
    cases h with
    | answered corr paneId waits answer => exact ⟨corr, paneId, waits, answer⟩
    | returned call mem future result =>
      rw [hresult] at result
      cases result
    | unsent value new => exact absurd new (by omega)
  · rintro ⟨c, p, hw, ha⟩
    exact .answered c p hw ha

/-- A request of a step that answers nothing. -/
theorem completes_unsent (hanswer : ∀ c p, answer s c p e = none)
    (hresult : ∀ call, result s call e = none) {f : Nat} {v : Bool} :
    Completes s e t f v ↔ v = false ∧ (s.nextFuture ≤ f ∧ f < t.nextFuture) ∧
      (s.disposed = true ∨ refused e = true) ∧ ∀ call ∈ t.calls, call.future ≠ f := by
  constructor
  · intro h
    cases h with
    | answered corr paneId waits answer =>
      rw [hanswer] at answer
      cases answer
    | returned call mem future result =>
      rw [hresult] at result
      cases result
    | unsent value new refused noCall => exact ⟨value, new, refused, noCall⟩
  · rintro ⟨hv, hnew, hr, hno⟩
    exact .unsent hv hnew hr hno

theorem completed_still (hstill : Still s t) (hanswer : ∀ c p, answer s c p e = none)
    (hresult : ∀ call, result s call e = none) (f : Nat) (v : Bool) :
    .completed f v ∈ t.history ↔ .completed f v ∈ s.history ∨ Completes s e t f v := by
  rw [hstill.completed, completes_answered hstill.nextFuture hresult]
  refine ⟨.inl, ?_⟩
  rintro (hf | ⟨c, p, -, ha⟩)
  · exact hf
  · rw [hanswer] at ha
    cases ha

/-- A request outside of a composer call. -/
theorem completed_request (ht : Tables s) (ho : Owned s []) (input : SendInput) (throws : Bool)
    (hr : refused e = throws) (hanswer : ∀ c p, answer s c p e = none)
    (hresult : ∀ call, result s call e = none) (f : Nat) (v : Bool) :
    .completed f v ∈ (s.sendAndWait input none throws).1.history ↔
      .completed f v ∈ s.history ∨ Completes s e (s.sendAndWait input none throws).1 f v := by
  rw [completed_sendAndWait ht, completes_unsent hanswer hresult, hr]
  have hcalls := (Grows.sendAndWait ht input none throws).calls
  constructor
  · rintro (hf | ⟨rfl, hr, hle, hlt⟩)
    · exact .inl hf
    · refine .inr ⟨rfl, ⟨hle, hlt⟩, hr, ?_⟩
      intro call hc heq
      rw [hcalls] at hc
      have := ho.lt hc
      omega
  · rintro (hf | ⟨rfl, ⟨hle, hlt⟩, hr, -⟩)
    · exact .inl hf
    · exact .inr ⟨rfl, hr, hle, hlt⟩

theorem completed_sendComposerSubmit (ht : Tables s) (ho : Owned s []) (paneId : PaneId)
    (line : Text) (whenIdle throws : Bool) (f : Nat) (v : Bool) :
    .completed f v ∈ (s.sendComposerSubmit paneId line whenIdle throws).history ↔
      .completed f v ∈ s.history ∨
        Completes s (.sendComposerSubmit paneId line whenIdle throws)
          (s.sendComposerSubmit paneId line whenIdle throws) f v := by
  rw [completes_unsent (fun _ _ => rfl) (fun _ => rfl)]
  have hcase : ∀ input purpose stage, ∀ t : Service,
      t = { ({ s with nextFuture := s.nextFuture + 1 }.sendAndWait input purpose throws).1 with
        calls := { future := s.nextFuture, paneId := paneId, line := line, whenIdle := whenIdle,
                   generation := s.connectionGeneration, stage := stage } ::
          ({ s with nextFuture := s.nextFuture + 1 }.sendAndWait input purpose throws).1.calls } →
      (.completed f v ∈ t.history ↔ .completed f v ∈ s.history ∨
        v = false ∧ (s.nextFuture ≤ f ∧ f < t.nextFuture) ∧
          (s.disposed = true ∨ throws = true) ∧ ∀ call ∈ t.calls, call.future ≠ f) := by
    intro input purpose stage t heq
    have hcompleted := completed_sendAndWait ht.nextFuture input purpose throws f v
    have hcalls := (Grows.sendAndWait ht.nextFuture input purpose throws).calls
    rw [heq]
    refine hcompleted.trans (or_congr Iff.rfl ?_)
    constructor
    · rintro ⟨rfl, hr, hle, hlt⟩
      have hle : s.nextFuture + 1 ≤ f := hle
      refine ⟨rfl, ⟨by omega, hlt⟩, hr, ?_⟩
      intro call hc hf
      cases List.mem_cons.mp hc with
      | inl hc =>
        rw [hc] at hf
        have hf : s.nextFuture = f := hf
        omega
      | inr hc =>
        rw [hcalls] at hc
        have := ho.lt hc
        omega
    · rintro ⟨rfl, ⟨hle, hlt⟩, hr, hno⟩
      refine ⟨rfl, hr, ?_, hlt⟩
      have hne : s.nextFuture ≠ f := hno _ (List.mem_cons_self ..)
      show s.nextFuture + 1 ≤ f
      omega
  unfold Service.sendComposerSubmit
  dsimp only
  split
  · exact hcase _ _ _ _ rfl
  · exact hcase _ _ _ _ rfl

theorem completed_error (ht : Tables s) (corr : Corr) (f : Nat) (v : Bool) :
    .completed f v ∈ (s.onError corr).history ↔
      .completed f v ∈ s.history ∨ Completes s (.error corr) (s.onError corr) f v := by
  have hn : (s.onError corr).nextFuture = s.nextFuture :=
    (finishReply_fields ht corr false).1.nextFuture
  rw [completes_answered hn fun _ => rfl]
  refine (completed_finishReply ht corr false f v).trans (or_congr Iff.rfl ?_)
  constructor
  · rintro ⟨rfl, p, hw⟩
    exact ⟨corr, p, hw, if_pos rfl⟩
  · rintro ⟨c, p, hw, ha⟩
    have ha : (if corr = c then some false else none) = some v := ha
    split at ha
    · rename_i hc
      rw [← hc] at hw
      exact ⟨(Option.some.inj ha).symm, p, hw⟩
    · cases ha

theorem timers_of_find (ht : Tables s) {timer : Nat} {corr : Corr} {n : Nat}
    (hf : s.timers.find? (fun t => t.1 == timer) = some (n, corr)) (c : Corr) :
    (timer, c) ∈ s.timers ↔ c = corr := by
  have hn : n = timer := by simpa using List.find?_some hf
  have hmem := List.mem_of_find?_eq_some hf
  rw [hn] at hmem
  constructor
  · intro hc
    have hsame := List.inj_on_of_nodup_map ht.timers.distinct hc hmem rfl
    exact congrArg Prod.snd hsame
  · rintro rfl
    exact hmem

/-- The timer has run out. -/
def expire (timer : Nat) (corr : Corr) (s : Service) : Service :=
  { s with timers := s.timers.filter fun t => t.1 != timer }.finishReply corr false

theorem completed_expire (ht : Tables s) {timer : Nat} {corr : Corr} {n : Nat}
    (hf : s.timers.find? (fun t => t.1 == timer) = some (n, corr)) (f : Nat) (v : Bool) :
    .completed f v ∈ (expire timer corr s).history ↔
      .completed f v ∈ s.history ∨ Completes s (.timeout timer) (expire timer corr s) f v := by
  have hcancel := ht.cancelTimer timer
  have hn : (expire timer corr s).nextFuture = s.nextFuture :=
    (finishReply_fields hcancel corr false).1.nextFuture
  rw [completes_answered hn fun _ => rfl]
  refine (completed_finishReply hcancel corr false f v).trans (or_congr Iff.rfl ?_)
  constructor
  · rintro ⟨rfl, p, hw⟩
    exact ⟨corr, p, hw, if_pos ((timers_of_find ht hf corr).mpr rfl)⟩
  · rintro ⟨c, p, hw, ha⟩
    have ha : (if (timer, c) ∈ s.timers then some false else none) = some v := ha
    split at ha
    · rename_i hc
      rw [(timers_of_find ht hf c).mp hc] at hw
      exact ⟨(Option.some.inj ha).symm, p, hw⟩
    · cases ha

theorem nextFuture_ack (ht : Tables s) (corr : Corr) (ack : SendInputAck) :
    (s.onSendInputAck corr ack).nextFuture = s.nextFuture := by
  obtain ⟨pending, -, -, heq⟩ | ⟨hq, -, -, heq⟩ | ⟨-, -, heq⟩ := onSendInputAck_cases ht corr ack
  · rw [heq]
    rfl
  · rw [heq]
    exact (finishReply_fields (ht.note (quiet_acknowledged hq)) corr ack.accepted).1.nextFuture
  · rw [heq]
    rfl

theorem nextFuture_now (ht : Tables s) (paneId : PaneId) (throws : Bool) :
    (s.sendQueuedComposerNow paneId throws).nextFuture = s.nextFuture := by
  obtain ⟨-, heq⟩ | ⟨f, previous, hh, heq⟩ := sendQueuedComposerNow_cases ht paneId throws
  · rw [heq]
  · rw [heq]
    split
    · exact (finishReply_fields (ht.handOver hh) _ false).1.nextFuture
    · rfl

theorem completed_ack (ht : Tables s) (corr : Corr) (ack : SendInputAck) (f : Nat) (v : Bool) :
    .completed f v ∈ (s.onSendInputAck corr ack).history ↔ .completed f v ∈ s.history ∨
      Completes s (.sendInputAck corr ack) (s.onSendInputAck corr ack) f v := by
  rw [completes_answered (nextFuture_ack ht corr ack) fun _ => rfl, completed_onSendInputAck ht]
  refine or_congr Iff.rfl ?_
  constructor
  · rintro ⟨p, hw, ha⟩
    exact ⟨corr, p, hw, ha⟩
  · rintro ⟨c, p, hw, ha⟩
    have hc : corr = c := by
      by_contra hne
      have ha : final corr ack c p = some v := ha
      unfold final at ha
      rw [if_neg fun h => hne h.1] at ha
      cases ha
    rw [← hc] at hw ha
    exact ⟨p, hw, ha⟩

theorem completed_now (ht : Tables s) (paneId : PaneId) (throws : Bool) (f : Nat) (v : Bool) :
    .completed f v ∈ (s.sendQueuedComposerNow paneId throws).history ↔
      .completed f v ∈ s.history ∨ Completes s (.sendQueuedComposerNow paneId throws)
        (s.sendQueuedComposerNow paneId throws) f v := by
  rw [completes_answered (nextFuture_now ht paneId throws) fun _ => rfl,
    completed_sendQueuedComposerNow ht]
  refine or_congr Iff.rfl ?_
  constructor
  · rintro ⟨rfl, hthrows, previous, hh⟩
    exact ⟨previous, paneId, hh.waits, if_pos ⟨hthrows, hh.queued, rfl, hh.undisposed⟩⟩
  · rintro ⟨c, p, hw, ha⟩
    have ha : (if throws = true ∧ s.queuedCorr = some c ∧ paneId = p ∧ s.disposed = false then
      some false else none) = some v := ha
    split at ha
    · rename_i hall
      obtain ⟨hthrows, hq, hp, hd⟩ := hall
      rw [← hp] at hw
      exact ⟨(Option.some.inj ha).symm, hthrows, c, hq, hw, hd⟩
    · cases ha

theorem nextFuture_disconnect (ht : Tables s) : s.disconnect.nextFuture = s.nextFuture :=
  (refuseAll_untouched ht.nextGeneration s.pendingReplies.keys).nextFuture

theorem completed_lost (hstep : ∀ f v, .completed f v ∈ t.history ↔ .completed f v ∈ s.history ∨
      (v = false ∧ ∃ c p, waiter s.history c = some (f, p)))
    (hn : t.nextFuture = s.nextFuture) (hanswer : ∀ c p, answer s c p e = some false)
    (hresult : ∀ call, result s call e = none) (f : Nat) (v : Bool) :
    .completed f v ∈ t.history ↔ .completed f v ∈ s.history ∨ Completes s e t f v := by
  rw [hstep, completes_answered hn hresult]
  refine or_congr Iff.rfl ?_
  constructor
  · rintro ⟨rfl, c, p, hw⟩
    exact ⟨c, p, hw, hanswer c p⟩
  · rintro ⟨c, p, hw, ha⟩
    rw [hanswer] at ha
    exact ⟨(Option.some.inj ha).symm, c, p, hw⟩

/-- The body of the call is no longer parked. -/
def released (call : ComposerCall) (s : Service) : Service :=
  { s with calls := s.calls.erase call }

/-- The body of a call returns, or it sends the Enter. -/
theorem resume_cases {value : Bool} (hv : Service.valueOf s.history call.stage.awaited = some value)
    (throws : Bool) :
    (∃ v, result s call (.resume call throws) = some v ∧
      (released call s).resume call value throws =
        (released call s).note (.completed call.future v)) ∨
      (result s call (.resume call throws) = none ∧ (∃ f, call.stage = .line f) ∧ value = true ∧
        call.generation = s.connectionGeneration ∧
        (released call s).resume call value throws = (released call s).sendEnter call throws) := by
  have hgen : (released call s).connectionGeneration = s.connectionGeneration := rfl
  unfold Service.resume result
  dsimp only
  rw [if_pos rfl, hgen, hv]
  cases call.stage with
  | line f =>
    dsimp only
    by_cases hstop : value = false ∨ call.generation ≠ s.connectionGeneration
    · rw [if_pos hstop, if_pos hstop]
      exact .inl ⟨false, rfl, rfl⟩
    · rw [if_neg hstop, if_neg hstop]
      refine .inr ⟨rfl, ⟨f, rfl⟩, ?_, ?_, rfl⟩
      · cases value with
        | false => exact absurd (.inl rfl) hstop
        | true => rfl
      · by_contra hne
        exact hstop (.inr hne)
  | enter f => exact .inl ⟨value, rfl, rfl⟩

theorem result_other {other : ComposerCall} {throws : Bool} (hne : call ≠ other) :
    result s other (.resume call throws) = none := if_neg hne

theorem completed_resume (ht : Tables s) (ho : Owned s []) (hc : call ∈ s.calls) {value : Bool}
    (hv : Service.valueOf s.history call.stage.awaited = some value) (throws : Bool) (f : Nat)
    (v : Bool) :
    .completed f v ∈ ((released call s).resume call value throws).history ↔
      .completed f v ∈ s.history ∨ Completes s (.resume call throws)
        ((released call s).resume call value throws) f v := by
  have hrel : Tables (released call s) := ht.withCalls _
  obtain ⟨w, hres, heq⟩ | ⟨hres, -, -, -, heq⟩ := resume_cases hv throws
  · rw [heq]
    show _ ∈ Entry.completed call.future w :: s.history ↔ _
    rw [List.mem_cons]
    constructor
    · rintro (hf | hf)
      · cases hf
        exact .inr (.returned call hc rfl hres)
      · exact .inl hf
    · rintro (hf | hf)
      · exact .inr hf
      · cases hf with
        | answered corr paneId waits answer => cases answer
        | returned other mem future result =>
          by_cases hother : call = other
          · rw [← hother, hres] at result
            cases result
            rw [← future, ← hother]
            exact .inl rfl
          · rw [result_other hother] at result
            cases result
        | unsent value new =>
          have hnew : s.nextFuture ≤ f ∧ f < s.nextFuture := new
          exact absurd hnew (by omega)
  · rw [heq]
    have hnone : ∀ other, result s other (.resume call throws) = none := by
      intro other
      by_cases hother : call = other
      · rw [← hother]
        exact hres
      · exact result_other hother
    rw [completes_unsent (fun _ _ => rfl) hnone]
    refine (completed_sendAndWait hrel _ _ throws f v).trans (or_congr Iff.rfl ?_)
    have hcalls := (Grows.sendAndWait hrel (Service.enterRequest call.paneId call.whenIdle)
      (some call.purpose) throws).calls
    constructor
    · rintro ⟨rfl, hr, hle, hlt⟩
      have hle : s.nextFuture ≤ f := hle
      refine ⟨rfl, ⟨hle, hlt⟩, hr, ?_⟩
      intro other hm hf
      cases List.mem_cons.mp hm with
      | inl hm =>
        rw [hm] at hf
        have hf : call.future = f := hf
        have := ho.lt hc
        omega
      | inr hm =>
        have hm : other ∈ s.calls.erase call := (congrArg (other ∈ ·) hcalls).mp hm
        have := ho.lt (List.mem_of_mem_erase hm)
        omega
    · rintro ⟨rfl, ⟨hle, hlt⟩, hr, -⟩
      exact ⟨rfl, hr, hle, hlt⟩

end Step

/-- What holds in every state. -/
structure Settled (s : Service) : Prop where
  tables : Tables s
  owned : Owned s []

theorem settled_start : Settled Service.start := ⟨tables_start, owned_start⟩

section Step

variable {s t : Service} {e : Service.Event}

theorem tables_resume {call : ComposerCall} (h : Settled s) (hc : call ∈ s.calls) {value : Bool}
    (hv : Service.valueOf s.history call.stage.awaited = some value) (throws : Bool) :
    Settled ((released call s).resume call value throws) := by
  have hrel : Tables (released call s) := h.tables.withCalls _
  have htake : Owned (released call s) [call.future] := h.owned.take hc
  obtain ⟨v, -, heq⟩ | ⟨-, -, -, -, heq⟩ := resume_cases hv throws
  · rw [heq]
    obtain ⟨ht, ho⟩ := htake.complete hrel v
    exact ⟨ht, ho⟩
  · rw [heq]
    exact ⟨hrel.sendEnter call throws, htake.sendEnter hrel throws⟩

theorem Settled.grows (h : Settled s) (ht : Tables t) (hg : Grows s t) : Settled t :=
  ⟨ht, h.owned.grows hg⟩

theorem settled_timers (h : Settled s) (timer : Nat) (corr : Corr) :
    Settled (expire timer corr s) := by
  have hcancel : Settled (s.cancelTimer timer) :=
    h.grows (h.tables.cancelTimer timer) (.of_same rfl rfl (fun _ _ => Iff.rfl) rfl)
  exact hcancel.grows (hcancel.tables.finishReply corr false)
    (.finishReply hcancel.tables corr false)

theorem settled_disposed (h : Settled s) : Settled { s with disposed := true } :=
  h.grows h.tables.disposed (.of_same rfl rfl (fun _ _ => Iff.rfl) rfl)

theorem settled_step (h : Settled s) (hs : s.step e = some t) : Settled t := by
  have hopen : ∀ {u}, (if s.disposed then none else some u) = some t → u = t := by
    intro u hu
    split at hu
    · cases hu
    · exact Option.some.inj hu
  have hrequest : ∀ input throws, Settled (s.sendAndWait input none throws).1 :=
    fun input throws => h.grows (h.tables.sendAndWait input none throws)
      (.sendAndWait h.tables input none throws)
  cases e with
  | sendComposerLine paneId line throws =>
    cases hs
    exact h.grows (h.tables.sendMessage _ none throws)
      (Still.sendMessage h.tables _ none throws).grows
  | sendMessage message corr throws =>
    cases hs
    exact h.grows (h.tables.sendMessage message corr throws)
      (Still.sendMessage h.tables message corr throws).grows
  | sendComposerSubmit paneId line whenIdle throws =>
    cases hs
    exact ⟨h.tables.sendComposerSubmit paneId line whenIdle throws,
      h.owned.sendComposerSubmit h.tables paneId line whenIdle throws⟩
  | sendAnswerSubmit paneId text throws | cancelComposerSubmit paneId throws =>
    cases hs
    exact hrequest _ throws
  | sendQueuedComposerNow paneId throws =>
    cases hs
    exact h.grows (h.tables.sendQueuedComposerNow paneId throws)
      (Grows.sendQueuedComposerNow h.tables paneId throws)
  | sendInputAck corr ack =>
    rw [← hopen hs]
    exact h.grows (h.tables.onSendInputAck corr ack) (Grows.onSendInputAck h.tables corr ack)
  | pong corr =>
    rw [← hopen hs]
    exact h.grows (h.tables.onPong corr) (Still.onPong h.tables corr).grows
  | error corr =>
    rw [← hopen hs]
    exact h.grows (h.tables.finishReply corr false) (.finishReply h.tables corr false)
  | timeout timer =>
    simp only [Service.step] at hs
    split at hs
    · cases hs
    · cases hs
      exact settled_timers h timer _
  | resume call throws =>
    simp only [Service.step] at hs
    split at hs
    · rename_i hc
      split at hs
      · cases hs
      · rename_i value hv
        cases hs
        exact tables_resume h hc hv throws
    · cases hs
  | disconnect =>
    cases hs
    exact h.grows h.tables.disconnect (disconnect_spec h.tables).1
  | dispose =>
    cases hs
    have hd := settled_disposed h
    exact hd.grows hd.tables.disconnect (disconnect_spec hd.tables).1

/-- A step completes what its event answers, returns or refuses, and nothing else. -/
theorem completed_step (h : Settled s) (hs : s.step e = some t) (f : Nat) (v : Bool) :
    .completed f v ∈ t.history ↔ .completed f v ∈ s.history ∨ Completes s e t f v := by
  have hopen : ∀ {u}, (if s.disposed then none else some u) = some t → u = t := by
    intro u hu
    split at hu
    · cases hu
    · exact Option.some.inj hu
  cases e with
  | sendComposerLine paneId line throws =>
    cases hs
    exact completed_still (.sendMessage h.tables _ none throws) (fun _ _ => rfl) (fun _ => rfl) f v
  | sendMessage message corr throws =>
    cases hs
    exact completed_still (.sendMessage h.tables message corr throws) (fun _ _ => rfl)
      (fun _ => rfl) f v
  | sendComposerSubmit paneId line whenIdle throws =>
    cases hs
    exact completed_sendComposerSubmit h.tables h.owned paneId line whenIdle throws f v
  | sendAnswerSubmit paneId text throws | cancelComposerSubmit paneId throws =>
    cases hs
    exact completed_request h.tables h.owned _ throws rfl (fun _ _ => rfl) (fun _ => rfl) f v
  | sendQueuedComposerNow paneId throws =>
    cases hs
    exact completed_now h.tables paneId throws f v
  | sendInputAck corr ack =>
    rw [← hopen hs]
    exact completed_ack h.tables corr ack f v
  | pong corr =>
    rw [← hopen hs]
    exact completed_still (.onPong h.tables corr) (fun _ _ => rfl) (fun _ => rfl) f v
  | error corr =>
    rw [← hopen hs]
    exact completed_error h.tables corr f v
  | timeout timer =>
    simp only [Service.step] at hs
    split at hs
    · cases hs
    · rename_i hf
      cases hs
      exact completed_expire h.tables hf f v
  | resume call throws =>
    simp only [Service.step] at hs
    split at hs
    · rename_i hc
      split at hs
      · cases hs
      · rename_i value hv
        cases hs
        exact completed_resume h.tables h.owned hc hv throws f v
    · cases hs
  | disconnect =>
    cases hs
    exact completed_lost (disconnect_spec h.tables).2.2 (nextFuture_disconnect h.tables)
      (fun _ _ => rfl) (fun _ => rfl) f v
  | dispose =>
    cases hs
    have hd := settled_disposed h
    exact @completed_lost s _ .dispose (disconnect_spec hd.tables).2.2
      (nextFuture_disconnect hd.tables) (fun _ _ => rfl) (fun _ => rfl) f v

end Step

end HerdrMobile.App.Calls
