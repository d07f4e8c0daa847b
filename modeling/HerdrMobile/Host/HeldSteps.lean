import HerdrMobile.Host.Session

/-!
# What each operation does to the held submit

The submit is left alone, or it is answered and gone, or it is forwarded and
answered, or it takes the place of another.
-/
namespace HerdrMobile.Host.HeldSteps

open HerdrMobile.Proto.Messages
open HerdrMobile.Host.Keys HerdrMobile.Host.Herdr HerdrMobile.Host.Input HerdrMobile.Host.Held
open HerdrMobile.Host.Watch HerdrMobile.Host.Session

set_option autoImplicit false

variable {Hash Corr : Type} {joins : Graphemes} {herdr : HerdrCalls} {now : Nat}
  {request : SendInput} {corr : Option Corr} {b b' b₁ : Bridge Hash Corr} {m m' : Shared}
  {paneId : PaneId} {frameHash : FrameHash Hash}

def cancelReplies (pending : Option (PendingInput Corr)) : List (Reply Corr) :=
  pending.toList.map fun p => (⟨p.paneId, false, false⟩, p.corr)

@[simp] theorem cancel_pendingInput (b : Bridge Hash Corr) :
    b.cancelPendingInputs.pendingInput = none := by
  unfold Bridge.cancelPendingInputs
  cases h : b.pendingInput with
  | none => exact h
  | some p => rfl

@[simp] theorem cancel_inputReplies (b : Bridge Hash Corr) :
    b.cancelPendingInputs.inputReplies = b.inputReplies ++ cancelReplies b.pendingInput := by
  unfold Bridge.cancelPendingInputs
  cases h : b.pendingInput with
  | none => simp [cancelReplies]
  | some p => rfl

/-- Input leaves the watched pane and the end of the session alone. -/
structure Kept (b b' : Bridge Hash Corr) : Prop where
  active : b'.sessionActive = b.sessionActive
  watched : b'.watched = b.watched

theorem Kept.refl (b : Bridge Hash Corr) : Kept b b := ⟨rfl, rfl⟩

theorem Kept.trans (h : Kept b b₁) (h' : Kept b₁ b') : Kept b b' :=
  ⟨h'.active.trans h.active, h'.watched.trans h.watched⟩

theorem kept_cancel (b : Bridge Hash Corr) : Kept b b.cancelPendingInputs := by
  unfold Bridge.cancelPendingInputs
  cases h : b.pendingInput with
  | none => exact Kept.refl b
  | some p => exact ⟨rfl, rfl⟩

theorem kept_afterInput (b : Bridge Hash Corr) (written : Bool) (now : Nat) :
    Kept b (b.afterInput written now) := ⟨by simp, by simp⟩

/-- The held submit is left alone, or it is answered and gone. -/
structure Dropped (b b' : Bridge Hash Corr) (dropped : Option (PendingInput Corr)) : Prop where
  replies : b'.inputReplies = b.inputReplies ++ cancelReplies dropped
  pending : (dropped = none ∧ b'.pendingInput = b.pendingInput) ∨
    (dropped = b.pendingInput ∧ b'.pendingInput = none)

theorem dropped_same (hr : b'.inputReplies = b.inputReplies) (hp : b'.pendingInput = b.pendingInput) :
    Dropped b b' none :=
  ⟨by simp [cancelReplies, hr], Or.inl ⟨rfl, hp⟩⟩

theorem dropped_cancel (hr : b'.inputReplies = b.cancelPendingInputs.inputReplies)
    (hp : b'.pendingInput = none) : Dropped b b' b.pendingInput :=
  ⟨by rw [hr, cancel_inputReplies], Or.inr ⟨rfl, hp⟩⟩

theorem sendInput_dropped {result : Except WatchError SendInputAck}
    (h : sendInput joins herdr now request b m = (result, b', m')) :
    (∃ dropped, Dropped b b' dropped) ∧
    (∃ accepted, orRefused request.paneId result = ⟨request.paneId, accepted, false⟩) ∧
    Kept b b' := by
  unfold sendInput at h
  cases hw : b.requireWatched request.paneId with
  | error e =>
    simp only [hw] at h
    obtain ⟨rfl, rfl, rfl⟩ := h
    exact ⟨⟨none, dropped_same rfl rfl⟩, ⟨false, rfl⟩, Kept.refl b⟩
  | ok u =>
    simp only [hw] at h
    cases hv : validateSendInput request with
    | error e =>
      simp only [hv] at h
      obtain ⟨rfl, rfl, rfl⟩ := h
      exact ⟨⟨none, dropped_same rfl rfl⟩, ⟨false, rfl⟩, Kept.refl b⟩
    | ok u =>
      simp only [hv] at h
      obtain ⟨rfl, rfl, rfl⟩ := h
      by_cases he : endsHeld request = true
      · rw [if_pos he]
        exact ⟨⟨b.pendingInput, dropped_cancel (by simp) (by simp)⟩, ⟨_, rfl⟩,
          (kept_cancel b).trans (kept_afterInput _ _ _)⟩
      · rw [if_neg he]
        exact ⟨⟨none, dropped_same (by simp) (by simp)⟩, ⟨_, rfl⟩, kept_afterInput _ _ _⟩

/-- What serving a request does: it is answered, or it is held. -/
inductive Outcome (paneId : PaneId) (keys : List Text) (corr : Option Corr)
    (b b' : Bridge Hash Corr) (m m' : Shared) : SendInputAck → Prop
  | answered (accepted : Bool) (dropped : Option (PendingInput Corr)) : Dropped b b' dropped →
      Outcome paneId keys corr b b' m m' ⟨paneId, accepted, false⟩
  | held : b.watches paneId = true → b'.pendingInput = some ⟨paneId, keys, corr⟩ →
      b'.inputReplies = b.inputReplies ++ cancelReplies b.pendingInput →
      newSends m.log m'.log = [] → Outcome paneId keys corr b b' m m' ⟨paneId, true, true⟩

variable (corr) in
theorem sendInput_outcome {result : Except WatchError SendInputAck}
    (h : sendInput joins herdr now request b m = (result, b', m')) :
    Outcome request.paneId (request.keys.getD []) corr b b' m m' (orRefused request.paneId result) ∧
      Kept b b' := by
  obtain ⟨⟨dropped, hd⟩, ⟨accepted, hack⟩, hkept⟩ := sendInput_dropped h
  rw [hack]
  exact ⟨.answered accepted dropped hd, hkept⟩

theorem newSends_append (log calls : Log) :
    newSends log (log ++ calls) = calls.filterMap sentCall := by
  unfold newSends
  rw [List.drop_left]

variable (request) in
theorem deferCancel_outcome {result : Except WatchError SendInputAck}
    (h : deferCancel request b m = (result, b', m')) :
    Outcome request.paneId (request.keys.getD []) corr b b' m m' (orRefused request.paneId result) ∧
      Kept b b' := by
  unfold deferCancel at h
  split at h
  · obtain ⟨rfl, rfl, rfl⟩ := h
    exact ⟨.answered false none (dropped_same rfl rfl), Kept.refl b⟩
  · obtain ⟨rfl, rfl, rfl⟩ := h
    split
    · exact ⟨.answered true b.pendingInput (dropped_cancel rfl (by simp)), kept_cancel b⟩
    · exact ⟨.answered true none (dropped_same rfl rfl), Kept.refl b⟩

variable (request) in
theorem deferUntilIdle_outcome {result : Except WatchError SendInputAck}
    (h : deferUntilIdle joins herdr now request corr b m = (result, b', m')) :
    Outcome request.paneId (request.keys.getD []) corr b b' m m' (orRefused request.paneId result) ∧
      Kept b b' := by
  have hrefused : ∀ {result : Except WatchError SendInputAck} {log : Log},
      orRefused request.paneId result = ⟨request.paneId, false, false⟩ →
      Outcome request.paneId (request.keys.getD []) corr b b m ⟨m.inputLines, log⟩
        (orRefused request.paneId result) ∧ Kept b b := by
    intro result log hr
    rw [hr]
    exact ⟨.answered false none (dropped_same rfl rfl), Kept.refl b⟩
  unfold deferUntilIdle at h
  cases hw : b.requireWatched request.paneId with
  | error e =>
    simp only [hw] at h
    obtain ⟨rfl, rfl, rfl⟩ := h
    exact hrefused rfl
  | ok u =>
    simp only [hw] at h
    split at h
    · obtain ⟨rfl, rfl, rfl⟩ := h
      exact hrefused rfl
    · cases hv : validateSendInput request with
      | error e =>
        simp only [hv] at h
        obtain ⟨rfl, rfl, rfl⟩ := h
        exact hrefused rfl
      | ok u =>
        simp only [hv, HerdrCalls.fetchSnapshot] at h
        cases hs : herdr.sessionSnapshot m.log with
        | error e =>
          simp only [hs] at h
          obtain ⟨rfl, rfl, rfl⟩ := h
          exact hrefused rfl
        | ok snapshot =>
          simp only [hs] at h
          split at h
          · obtain ⟨rfl, rfl, rfl⟩ := h
            refine ⟨.held (Bridge.requireWatched_iff.mp hw) rfl (cancel_inputReplies b)
              (newSends_append _ _), ?_⟩
            exact ⟨(kept_cancel b).active, (kept_cancel b).watched⟩
          · obtain ⟨⟨dropped, hd⟩, ⟨accepted, hack⟩, hkept⟩ := sendInput_dropped h
            rw [hack]
            refine ⟨.answered accepted b.pendingInput (dropped_cancel ?_ ?_),
              (kept_cancel b).trans hkept⟩
            · rw [hd.replies]
              rcases hd.pending with ⟨rfl, -⟩ | ⟨rfl, -⟩
              · simp [cancelReplies]
              · simp [cancelReplies]
            · rcases hd.pending with ⟨-, hp⟩ | ⟨-, hp⟩
              · rw [hp, cancel_pendingInput]
              · exact hp

theorem deferred_outcome {result : Except WatchError SendInputAck}
    (h : deferred joins herdr now request corr b m = (result, b', m')) :
    Outcome request.paneId (request.keys.getD []) corr b b' m m' (orRefused request.paneId result) ∧
      Kept b b' := by
  unfold deferred at h
  split at h
  · exact sendInput_outcome corr h
  · split at h
    · exact deferCancel_outcome { request with defer := none } h
    · exact deferUntilIdle_outcome { request with defer := none } h
    · exact sendInput_outcome corr h

/-- What a status does to the held submit: nothing, or it is refused, or its keys are
forwarded and it is answered with what came of that. -/
inductive Released (b b' : Bridge Hash Corr) (m m' : Shared) : Prop
  | kept : b'.pendingInput = b.pendingInput → b'.inputReplies = b.inputReplies →
      newSends m.log m'.log = [] → Released b b' m m'
  | dropped : b'.pendingInput = none →
      b'.inputReplies = b.inputReplies ++ cancelReplies b.pendingInput →
      newSends m.log m'.log = [] → Released b b' m m'
  | forwarded (p : PendingInput Corr) (ok : Bool) : b.sessionActive ≠ some false →
      b.pendingInput = some p → b'.pendingInput = none →
      b'.inputReplies = b.inputReplies ++ [(⟨p.paneId, ok, false⟩, p.corr)] →
      newSends m.log m'.log = [(.sendInput p.paneId none (some p.keys), ok)] → Released b b' m m'

theorem newSends_self (log : Log) : newSends log log = [] := by
  unfold newSends
  rw [List.drop_length]
  rfl

/-- Held keys go to Herdr in one call, or not at all. -/
theorem sendInput_keys {keys : List Text}
    {result : Except WatchError SendInputAck} (hb : b.pendingInput = none)
    (h : sendInput joins herdr now { paneId := paneId, keys := some keys } b m = (result, b', m')) :
    b'.pendingInput = none ∧ b'.inputReplies = b.inputReplies ∧ Kept b b' ∧
    ((newSends m.log m'.log = [] ∧ orRefused paneId result = ⟨paneId, false, false⟩) ∨
      ∃ ok, newSends m.log m'.log = [(.sendInput paneId none (some keys), ok)] ∧
        orRefused paneId result = ⟨paneId, ok, false⟩) := by
  have hcancel : b.cancelPendingInputs = b := by
    unfold Bridge.cancelPendingInputs
    rw [hb]
  unfold sendInput at h
  rw [hcancel, ite_self] at h
  cases hw : b.requireWatched paneId with
  | error e =>
    simp only [hw] at h
    obtain ⟨rfl, rfl, rfl⟩ := h
    exact ⟨hb, rfl, Kept.refl b, Or.inl ⟨newSends_self _, rfl⟩⟩
  | ok u =>
    simp only [hw] at h
    cases hv : validateSendInput { paneId := paneId, keys := some keys } with
    | error e =>
      simp only [hv] at h
      obtain ⟨rfl, rfl, rfl⟩ := h
      exact ⟨hb, rfl, Kept.refl b, Or.inl ⟨newSends_self _, rfl⟩⟩
    | ok u =>
      simp only [hv] at h
      have hnone : (none : Option Bool) ≠ some true := by simp
      unfold transmit at h
      simp only [if_neg hnone, forwardInput, forwardText, HerdrCalls.call] at h
      cases hok : herdr.send m.log (.sendInput paneId none (some keys)) with
      | false =>
        simp only [hok] at h
        obtain ⟨rfl, rfl, rfl⟩ := h
        exact ⟨by simpa using hb, by simp, kept_afterInput _ _ _,
          Or.inr ⟨false, newSends_append _ _, rfl⟩⟩
      | true =>
        simp only [hok] at h
        obtain ⟨rfl, rfl, rfl⟩ := h
        exact ⟨by simpa using hb, by simp, kept_afterInput _ _ _,
          Or.inr ⟨true, newSends_append _ _, rfl⟩⟩

theorem release_cases
    (h : releasePendingInput joins herdr now paneId b m = (b', m')) :
    Released b b' m m' ∧ Kept b b' := by
  unfold releasePendingInput at h
  split at h
  · obtain ⟨rfl, rfl⟩ := h
    exact ⟨.dropped (by simp) (by simp) (newSends_self _), kept_cancel b⟩
  · rename_i hactive
    cases hp : b.pendingInput with
    | none =>
      simp only [hp] at h
      obtain ⟨rfl, rfl⟩ := h
      exact ⟨.kept rfl rfl (newSends_self _), Kept.refl b⟩
    | some p =>
      simp only [hp] at h
      split at h
      · cases hs : sendInput joins herdr now { paneId := p.paneId, keys := some p.keys }
            { b with pendingInput := none } m with
        | mk result rest =>
          obtain ⟨b₁, m₁⟩ := rest
          obtain ⟨hpend, hrep, hkept, hsends⟩ := sendInput_keys rfl hs
          simp only [hs] at h
          obtain ⟨rfl, rfl⟩ := h
          refine ⟨?_, hkept.active, hkept.watched⟩
          rcases hsends with ⟨hnone, hack⟩ | ⟨ok, hone, hack⟩
          · refine .dropped hpend ?_ hnone
            change b₁.inputReplies ++ [(orRefused p.paneId result, p.corr)] = _
            rw [hrep, hack, hp]
            rfl
          · refine .forwarded p ok hactive hp hpend ?_ hone
            change b₁.inputReplies ++ [(orRefused p.paneId result, p.corr)] = _
            rw [hrep, hack]
      · obtain ⟨rfl, rfl⟩ := h
        exact ⟨.kept rfl rfl (newSends_self _), Kept.refl b⟩

/-- A status of its pane always ends the wait of the held submit. -/
theorem release_none {p : PendingInput Corr} (hp : b.pendingInput = some p)
    (hid : p.paneId = paneId) (h : releasePendingInput joins herdr now paneId b m = (b', m')) :
    b'.pendingInput = none := by
  unfold releasePendingInput at h
  split at h
  · obtain ⟨rfl, rfl⟩ := h
    exact cancel_pendingInput b
  · simp only [hp, if_pos hid] at h
    cases hs : sendInput joins herdr now { paneId := p.paneId, keys := some p.keys }
        { b with pendingInput := none } m with
    | mk result rest =>
      obtain ⟨b₁, m₁⟩ := rest
      obtain ⟨hpend, -⟩ := sendInput_keys rfl hs
      simp only [hs] at h
      obtain ⟨rfl, rfl⟩ := h
      exact hpend

theorem serveInput_outcome {out : List (Reply Corr)}
    (h : serveInput joins herdr now request corr b m = (out, b', m')) :
    ∃ ack b₁, Outcome request.paneId (request.keys.getD []) corr b b₁ m m' ack ∧
      Kept b b₁ ∧ b' = { b₁ with inputReplies := [] } ∧
      (out = b₁.inputReplies ++ [(ack, corr)] ∨ out = (ack, corr) :: b₁.inputReplies) := by
  unfold serveInput at h
  split at h
  · unfold handleDeferredInput at h
    cases hd : deferred joins herdr now request corr b m with
    | mk result rest =>
      obtain ⟨b₁, m₁⟩ := rest
      obtain ⟨ho, hkept⟩ := deferred_outcome hd
      simp only [hd, takeInputReplies, pushReply] at h
      obtain ⟨rfl, rfl, rfl⟩ := h
      exact ⟨_, b₁, ho, hkept, rfl, Or.inl rfl⟩
  · cases hs : sendInput joins herdr now request b m with
    | mk result rest =>
      obtain ⟨b₁, m₁⟩ := rest
      obtain ⟨ho, hkept⟩ := sendInput_outcome corr hs
      simp only [hs, takeInputReplies] at h
      obtain ⟨rfl, rfl, rfl⟩ := h
      exact ⟨_, b₁, ho, hkept, rfl, Or.inr rfl⟩

theorem sendInput_pending {result : Except WatchError SendInputAck} {p : PendingInput Corr}
    (h : sendInput joins herdr now request b m = (result, b', m'))
    (hp : b'.pendingInput = some p) : b.pendingInput = some p := by
  obtain ⟨⟨dropped, hd⟩, -, -⟩ := sendInput_dropped h
  rcases hd.pending with ⟨-, hsame⟩ | ⟨-, hnone⟩
  · exact hsame ▸ hp
  · exact absurd (hnone.symm.trans hp) (by simp)

theorem deferUntilIdle_pending {result : Except WatchError SendInputAck} {p : PendingInput Corr}
    (h : deferUntilIdle joins herdr now request corr b m = (result, b', m'))
    (hp : b'.pendingInput = some p) :
    b.pendingInput = some p ∨
      ∃ snapshot, herdr.sessionSnapshot m.log = .ok snapshot ∧ working snapshot p.paneId = true := by
  unfold deferUntilIdle at h
  split at h
  · cases h
    exact Or.inl hp
  · split at h
    · cases h
      exact Or.inl hp
    · split at h
      · cases h
        exact Or.inl hp
      · cases hs : herdr.sessionSnapshot m.log with
        | error e =>
          simp only [HerdrCalls.fetchSnapshot, hs] at h
          cases h
          exact Or.inl hp
        | ok snapshot =>
          simp only [HerdrCalls.fetchSnapshot, hs] at h
          split at h
          · rename_i hworking
            cases h
            cases hp
            exact Or.inr ⟨snapshot, rfl, hworking⟩
          · have hcancelled := sendInput_pending h hp
            rw [cancel_pendingInput] at hcancelled
            cases hcancelled

theorem serveInput_pending {out : List (Reply Corr)} {p : PendingInput Corr}
    (h : serveInput joins herdr now request corr b m = (out, b', m'))
    (hp : b'.pendingInput = some p) :
    b.pendingInput = some p ∨
      ∃ snapshot, herdr.sessionSnapshot m.log = .ok snapshot ∧ working snapshot p.paneId = true := by
  unfold serveInput at h
  split at h
  · unfold handleDeferredInput at h
    cases hd : deferred joins herdr now request corr b m with
    | mk result rest =>
      obtain ⟨b₁, m₁⟩ := rest
      simp only [hd, takeInputReplies, pushReply] at h
      cases h
      unfold deferred at hd
      split at hd
      · exact Or.inl (sendInput_pending hd hp)
      · split at hd
        · unfold deferCancel at hd
          split at hd
          · cases hd
            exact Or.inl hp
          · cases hd
            change (if _ then b.cancelPendingInputs else b).pendingInput = some p at hp
            split at hp
            · rw [cancel_pendingInput] at hp
              cases hp
            · exact Or.inl hp
        · exact deferUntilIdle_pending hd hp
        · exact Or.inl (sendInput_pending hd hp)
  · cases hs : sendInput joins herdr now request b m with
    | mk result rest =>
      obtain ⟨b₁, m₁⟩ := rest
      simp only [hs, takeInputReplies] at h
      cases h
      exact Or.inl (sendInput_pending hs hp)

/-- The pane of a held submit is the watched one. -/
def Watching (b : Bridge Hash Corr) : Prop :=
  ∀ p, b.pendingInput = some p → b.watches p.paneId = true

theorem watching_of_none (h : b.pendingInput = none) : Watching b := by
  intro p hp
  rw [h] at hp
  exact absurd hp (by simp)

theorem watching_of_same (hw : b'.watched.map WatchedPane.paneId = b.watched.map WatchedPane.paneId)
    (hp : b'.pendingInput = b.pendingInput) (h : Watching b) : Watching b' := by
  intro p hp'
  have hb := h p (hp ▸ hp')
  unfold Bridge.watches at hb ⊢
  cases hbw : b.watched with
  | none => simp [hbw] at hb
  | some w =>
    rw [hbw] at hw hb
    obtain ⟨w', hw', hpane⟩ := Option.map_eq_some_iff.mp hw
    rw [hw']
    simpa [hpane] using hb

theorem leavePane_dropped (paneId : PaneId) (b : Bridge Hash Corr) :
    (∃ dropped, Dropped b (leavePane paneId b) dropped) ∧
      (leavePane paneId b).sessionActive = b.sessionActive ∧
      (Watching b → Watching (leavePane paneId b)) := by
  unfold leavePane
  split
  · exact ⟨⟨_, dropped_cancel rfl (cancel_pendingInput b)⟩, (kept_cancel b).active,
      fun _ => watching_of_none (cancel_pendingInput b)⟩
  · exact ⟨⟨none, dropped_same rfl rfl⟩, rfl, id⟩

theorem watchPane_dropped {result : Except WatchError (WatchAck × PaneFrame)}
    (h : Watch.watchPane herdr frameHash now paneId b m = (result, b', m')) :
    (∃ dropped, Dropped b b' dropped) ∧ b'.sessionActive = b.sessionActive ∧
      (Watching b → Watching b') := by
  have hcases := watchPane_cases h
  cases hcases with
  | failed e calls hb hlog hread =>
    rw [hb]
    exact ⟨⟨none, dropped_same rfl rfl⟩, rfl, id⟩
  | read ack pane width text hb hlog =>
    rw [hb]
    unfold attach switching
    split
    · exact ⟨⟨_, dropped_cancel rfl (cancel_pendingInput b)⟩, (kept_cancel b).active,
        fun _ => watching_of_none (cancel_pendingInput b)⟩
    · rename_i hsame
      refine ⟨⟨none, dropped_same rfl rfl⟩, rfl, ?_⟩
      intro hw p hp
      have hpane := hw p hp
      unfold Bridge.watches at hpane ⊢
      cases hbw : b.watched with
      | none => simp [hbw] at hpane
      | some w =>
        have hid : w.paneId = paneId := by simpa [hbw] using hsame
        simpa [hbw, hid] using hpane

theorem handlePaneUpdated_same {revision viewportRows : Option Nat}
    (h : handlePaneUpdated herdr now paneId revision viewportRows b m = (b', m')) :
    b'.pendingInput = b.pendingInput ∧ b'.inputReplies = b.inputReplies ∧
      b'.sessionActive = b.sessionActive ∧ (Watching b → Watching b') ∧
      newSends m.log m'.log = [] := by
  have hcases := handlePaneUpdated_cases h
  cases hcases with
  | ignored hb hm =>
    rw [hb, hm]
    exact ⟨rfl, rfl, rfl, id, newSends_self _⟩
  | noticed w w' calls hw hb hid hhash hlog hcalls =>
    have hnone : calls.filterMap sentCall = [] := by
      rw [List.filterMap_eq_nil_iff]
      intro e he
      obtain ⟨p, width, rfl⟩ := hcalls e he
      rfl
    rw [hb, hlog, newSends_append, hnone]
    refine ⟨rfl, rfl, rfl, ?_, rfl⟩
    exact watching_of_same (by simp [hw, hid]) rfl

section Reads

variable [DecidableEq Hash]

theorem pollScheduler_same {frame : Option PaneFrame}
    (h : pollScheduler herdr frameHash now b m = (frame, b', m')) :
    b'.pendingInput = b.pendingInput ∧ b'.inputReplies = b.inputReplies ∧
      b'.sessionActive = b.sessionActive ∧ (Watching b → Watching b') := by
  obtain ⟨scheduler, ⟨-, hb, -⟩ | ⟨isPoll, -, -, hread⟩⟩ := pollScheduler_cases h
  · rw [hb]
    exact ⟨rfl, rfl, rfl, watching_of_same rfl rfl⟩
  · cases hread with
    | unwatched hw hb hm | failed w hw hb hlog | same w text hw hb hpoll hhash hlog =>
      rw [hb]
      exact ⟨rfl, rfl, rfl, watching_of_same rfl rfl⟩
    | sent w text hw hb hpoll hlog =>
      have hw' : b.watched = some w := hw
      rw [hb]
      exact ⟨rfl, rfl, rfl, watching_of_same (by simp [hw']) rfl⟩

end Reads

end HerdrMobile.Host.HeldSteps
