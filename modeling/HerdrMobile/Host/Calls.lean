import HerdrMobile.Host.Held

/-!
# The calls of an operation

Each operation adds calls to the log and takes none back. Which calls it may add
is a predicate on the entries: mending a line erases and types, all other input
sends whatever it was asked to, and no input reads a pane.
-/
namespace HerdrMobile.Host.Calls

open HerdrMobile.Lib.Segment HerdrMobile.Proto.Messages
open HerdrMobile.Host.Keys HerdrMobile.Host.Herdr HerdrMobile.Host.Input HerdrMobile.Host.Held

set_option autoImplicit false

variable {Hash Corr : Type} {joins : Graphemes} {herdr : HerdrCalls} {P : Entry → Prop} {now : Nat}
  {paneId : PaneId} {text old old' line : Text} {send : Send} {ok : Bool} {log log' log₁ : Log}
  {request : SendInput} {corr : Option Corr} {b b' : Bridge Hash Corr} {m m' : Shared}

/-- The log has grown, by calls of one kind. -/
def Grows (P : Entry → Prop) (before after : Log) : Prop :=
  ∃ calls, after = before ++ calls ∧ ∀ e ∈ calls, P e

theorem grows_refl (log : Log) : Grows P log log :=
  ⟨[], (List.append_nil log).symm, fun _ he => absurd he (by simp)⟩

theorem grows_one {e : Entry} (he : P e) : Grows P log (log ++ [e]) :=
  ⟨[e], rfl, fun e' he' => by rwa [List.mem_singleton.mp he']⟩

theorem Grows.trans (h : Grows P log log₁) (h' : Grows P log₁ log') : Grows P log log' := by
  obtain ⟨calls, rfl, hc⟩ := h
  obtain ⟨calls', rfl, hc'⟩ := h'
  refine ⟨calls ++ calls', List.append_assoc .., ?_⟩
  intro e he
  cases List.mem_append.mp he with
  | inl he => exact hc e he
  | inr he => exact hc' e he

theorem call_grows (hP : ∀ ok, P (.sent send ok)) (hc : herdr.call send log = (ok, log')) :
    Grows P log log' := by
  obtain ⟨hok, rfl⟩ := Prod.mk.inj hc
  exact grows_one (hP _)

/-- What `reconcile_line` sends to a pane. -/
inductive Mends (paneId : PaneId) : Send → Prop
  | typed (text : Text) : Mends paneId (.sendText paneId text)
  | pasted (text : Text) : Mends paneId (.sendInput paneId (some text) none)
  | erased (n : Nat) : Mends paneId (.sendInput paneId none (some (List.replicate n "Backspace".toList)))

theorem sendTypedText_grows (hP : ∀ send ok, Mends paneId send → P (.sent send ok))
    (hc : sendTypedText herdr paneId text log = (ok, log')) : Grows P log log' := by
  unfold sendTypedText at hc
  split at hc
  · exact call_grows (fun ok => hP _ ok (.pasted text)) hc
  · exact call_grows (fun ok => hP _ ok (.typed text)) hc

theorem removeTail_grows (hP : ∀ send ok, Mends paneId send → P (.sent send ok))
    {n rounds remaining : Nat}
    (hr : removeTail joins herdr paneId (List.replicate n "Backspace".toList) rounds remaining old
      log = (ok, old', log')) : Grows P log log' := by
  induction rounds generalizing remaining old log with
  | zero =>
    obtain ⟨rfl, rfl, rfl⟩ := hr
    exact grows_refl _
  | succ rounds ih =>
    unfold removeTail at hr
    split at hr
    · obtain ⟨rfl, rfl, rfl⟩ := hr
      exact grows_refl _
    · simp only [List.length_replicate, List.take_replicate] at hr
      cases hc : herdr.call (.sendInput paneId none
          (some (List.replicate (min (min remaining n) n) "Backspace".toList))) log with
      | mk ok₁ log₁ =>
        have hgrow : Grows P log log₁ := call_grows (fun ok => hP _ ok (.erased _)) hc
        simp only [hc] at hr
        cases ok₁ with
        | false =>
          obtain ⟨rfl, rfl, rfl⟩ := hr
          exact hgrow
        | true => exact hgrow.trans (ih hr)

theorem reconcileLine_grows (hP : ∀ send ok, Mends paneId send → P (.sent send ok))
    (hr : reconcileLine joins herdr paneId old line log = (ok, old', log')) : Grows P log log' := by
  unfold reconcileLine at hr
  simp only at hr
  split at hr
  · rename_i hrem
    obtain ⟨rfl, rfl, rfl⟩ := hr
    exact removeTail_grows hP hrem
  · rename_i hrem
    split at hr
    · obtain ⟨rfl, rfl, rfl⟩ := hr
      exact removeTail_grows hP hrem
    · obtain ⟨rfl, rfl, rfl⟩ := hr
      exact (removeTail_grows hP hrem).trans (sendTypedText_grows hP rfl)

theorem forwardInput_grows (hP : ∀ send ok, P (.sent send ok)) {shadow shadow' : Option Text}
    (hf : forwardInput joins herdr request shadow log = (ok, shadow', log')) : Grows P log log' := by
  have htext : Grows P log (forwardText herdr request.paneId request.text shadow log).2.2 := by
    unfold forwardText
    split
    · exact grows_refl log
    · split
      · rename_i h
        exact sendTypedText_grows (fun send ok _ => hP send ok) h
      · rename_i h
        exact sendTypedText_grows (fun send ok _ => hP send ok) h
  unfold forwardInput at hf
  split at hf
  · rename_i h
    obtain ⟨rfl, rfl, rfl⟩ := hf
    simpa [h] using htext
  · rename_i h
    rw [h] at htext
    split at hf
    · obtain ⟨rfl, rfl, rfl⟩ := hf
      exact htext
    · split at hf
      · rename_i hc
        obtain ⟨rfl, rfl, rfl⟩ := hf
        exact htext.trans (call_grows (hP _) hc)
      · rename_i hc
        obtain ⟨rfl, rfl, rfl⟩ := hf
        exact htext.trans (call_grows (hP _) hc)

theorem transmit_grows (hP : ∀ send ok, P (.sent send ok)) {accepted changed : Bool}
    (ht : transmit joins herdr request m = (accepted, changed, m')) : Grows P m.log m'.log := by
  unfold transmit at ht
  split at ht
  · obtain ⟨rfl, rfl, rfl⟩ := ht
    exact forwardInput_grows hP rfl
  · cases hl : request.line with
    | some line =>
      simp only [hl] at ht
      obtain ⟨rfl, rfl, rfl⟩ := ht
      exact reconcileLine_grows (fun send ok _ => hP send ok) rfl
    | none =>
      simp only [hl] at ht
      obtain ⟨rfl, rfl, rfl⟩ := ht
      exact forwardInput_grows hP rfl

/-- Input is sent only by `transmit`: a request that is refused sends nothing. -/
theorem sendInput_of_transmit {result : Except WatchError SendInputAck}
    (ht : Grows P m.log (transmit joins herdr request m).2.2.log)
    (h : sendInput joins herdr now request b m = (result, b', m')) : Grows P m.log m'.log := by
  unfold sendInput at h
  split at h
  · obtain ⟨rfl, rfl, rfl⟩ := h
    exact grows_refl _
  · split at h
    · obtain ⟨rfl, rfl, rfl⟩ := h
      exact grows_refl _
    · obtain ⟨rfl, rfl, rfl⟩ := h
      exact ht

theorem sendInput_grows (hP : ∀ send ok, P (.sent send ok)) {result : Except WatchError SendInputAck}
    (h : sendInput joins herdr now request b m = (result, b', m')) : Grows P m.log m'.log :=
  sendInput_of_transmit (transmit_grows hP rfl) h

/-- A line is mended, whatever comes of it. -/
theorem sendInput_line_grows (hl : request.line = some line) (hb : request.bypassLine ≠ some true)
    (hP : ∀ send ok, Mends request.paneId send → P (.sent send ok))
    {result : Except WatchError SendInputAck}
    (h : sendInput joins herdr now request b m = (result, b', m')) : Grows P m.log m'.log := by
  refine sendInput_of_transmit ?_ h
  unfold transmit
  rw [if_neg hb]
  simp only [hl]
  exact reconcileLine_grows hP rfl

theorem deferUntilIdle_grows (hP : ∀ send ok, P (.sent send ok)) (hS : ∀ ok, P (.snapshot ok))
    {result : Except WatchError SendInputAck}
    (h : deferUntilIdle joins herdr now request corr b m = (result, b', m')) :
    Grows P m.log m'.log := by
  have hsnap : Grows P m.log (herdr.fetchSnapshot m.log).2 := grows_one (hS _)
  unfold deferUntilIdle at h
  split at h
  · obtain ⟨rfl, rfl, rfl⟩ := h
    exact grows_refl _
  · split at h
    · obtain ⟨rfl, rfl, rfl⟩ := h
      exact grows_refl _
    · split at h
      · obtain ⟨rfl, rfl, rfl⟩ := h
        exact grows_refl _
      · split at h
        · rename_i hs
          rw [hs] at hsnap
          obtain ⟨rfl, rfl, rfl⟩ := h
          exact hsnap
        · rename_i hs
          rw [hs] at hsnap
          simp only at h
          split at h
          · obtain ⟨rfl, rfl, rfl⟩ := h
            exact hsnap
          · exact hsnap.trans (sendInput_grows hP h)

theorem deferred_grows (hP : ∀ send ok, P (.sent send ok)) (hS : ∀ ok, P (.snapshot ok))
    {result : Except WatchError SendInputAck}
    (h : deferred joins herdr now request corr b m = (result, b', m')) : Grows P m.log m'.log := by
  unfold deferred at h
  split at h
  · exact sendInput_grows hP h
  · split at h
    · unfold deferCancel at h
      split at h
      · obtain ⟨rfl, rfl, rfl⟩ := h
        exact grows_refl _
      · obtain ⟨rfl, rfl, rfl⟩ := h
        exact grows_refl _
    · exact deferUntilIdle_grows hP hS h
    · exact sendInput_grows hP h

theorem serveInput_grows (hP : ∀ send ok, P (.sent send ok)) (hS : ∀ ok, P (.snapshot ok))
    {out : List (Reply Corr)}
    (h : serveInput joins herdr now request corr b m = (out, b', m')) : Grows P m.log m'.log := by
  unfold serveInput at h
  split at h
  · unfold handleDeferredInput at h
    cases hd : deferred joins herdr now request corr b m with
    | mk result rest =>
      simp only [hd] at h
      obtain ⟨rfl, rfl, rfl⟩ := h
      exact deferred_grows hP hS hd
  · cases hs : sendInput joins herdr now request b m with
    | mk result rest =>
      simp only [hs] at h
      obtain ⟨rfl, rfl, rfl⟩ := h
      exact sendInput_grows hP hs

theorem release_grows (hP : ∀ send ok, P (.sent send ok))
    (h : releasePendingInput joins herdr now paneId b m = (b', m')) : Grows P m.log m'.log := by
  unfold releasePendingInput at h
  split at h
  · obtain ⟨rfl, rfl⟩ := h
    exact grows_refl _
  · split at h
    · obtain ⟨rfl, rfl⟩ := h
      exact grows_refl _
    · split at h
      · obtain ⟨rfl, rfl⟩ := h
        exact sendInput_grows hP rfl
      · obtain ⟨rfl, rfl⟩ := h
        exact grows_refl _

end HerdrMobile.Host.Calls
