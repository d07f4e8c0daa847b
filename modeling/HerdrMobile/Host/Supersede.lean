import HerdrMobile.Host.HeldRuns
import HerdrMobile.Lib.Run

/-!
# Plain keys over a held submit

A submit that is held for a pane is one for the line that is composed there. Keys that end the line
at once take its place, so the held keys must not be forwarded after them. `send_input` drops the
held submit for Enter and ctrl+c, and `forward_input` ends the line for Return too.
-/
namespace HerdrMobile.Host.Supersede

open HerdrMobile.Lib.Run HerdrMobile.Proto.Messages
open HerdrMobile.Host.Keys HerdrMobile.Host.Herdr HerdrMobile.Host.Input HerdrMobile.Host.Held
open HerdrMobile.Host.Watch HerdrMobile.Host.Session HerdrMobile.Host.HeldSteps
open HerdrMobile.Host.HeldRuns

set_option autoImplicit false

variable {Hash Corr : Type} {joins : Graphemes} {herdr : HerdrCalls} {frameHash : FrameHash Hash}
  {now : Nat} {request : SendInput} {corr : Option Corr} {c : Option Text} {foreign was : Bool}
  {b : Bridge Hash Corr} {m : Shared} {s t : Thread Hash} {e : Event}

/-- The request is forwarded as it is served, and it is one that ends the composer line. -/
def endsNow (b : Bridge Hash Corr) (request : SendInput) : Bool :=
  b.watches request.paneId && (validateSendInput request).isOk && request.bypassLine ≠ some true &&
    (request.keys.getD []).any endsLine

def holdsFor (b : Bridge Hash Corr) (paneId : PaneId) : Bool :=
  b.pendingInput.any (·.paneId == paneId)

/-- A request that ends the line is served as if the held submit had been cancelled before it, and
the Device is told so. -/
def Superseded [DecidableEq Hash] (joins : Graphemes) (herdr : HerdrCalls)
    (frameHash : FrameHash Hash) (s : Thread Hash) (e : Event) : Prop :=
  let t := step joins herdr frameHash s e
  match e with
  | .input _ request _ =>
    endsNow s.bridge request = true → ∀ p, s.bridge.pendingInput = some p →
      p.paneId = request.paneId →
      t = step joins herdr frameHash (step joins herdr frameHash s .cancelPending) e ∧
        .reply ⟨p.paneId, false, false⟩ p.corr ∈ t.trace.drop s.trace.length ∧
        t.bridge.pendingInput = none
  | _ => True

/-- A call that ends the line of a pane. -/
def endsLineOf (paneId : PaneId) : Entry → Bool
  | .sent (.sendInput pane _ (some keys)) _ => pane == paneId && keys.any endsLine
  | _ => false

/-- The line of the held submit is ended by other keys: those of this session, and with `foreign`
those of the other sessions too. -/
def ended (foreign : Bool) (s : Thread Hash) : Event → Bool
  | .input _ request _ => endsNow s.bridge request && holdsFor s.bridge request.paneId
  | .others _ calls =>
    foreign && s.bridge.pendingInput.any fun p => calls.any (endsLineOf p.paneId)
  | _ => false

/-- A session, and whether the line of its held submit was ended while the submit was held. -/
structure Observed (Hash : Type) where
  thread : Thread Hash
  passed : Bool

def Observed.start (config : RelayConfig) : Observed Hash := ⟨.start config, false⟩

def passed (foreign was : Bool) (s : Thread Hash) (e : Event) (t : Thread Hash) : Bool :=
  t.bridge.pendingInput.isSome && decide (t.bridge.pendingInput = s.bridge.pendingInput) &&
    (was || ended foreign s e)

def Observed.step [DecidableEq Hash] (joins : Graphemes) (herdr : HerdrCalls)
    (frameHash : FrameHash Hash) (foreign : Bool) (o : Observed Hash) (e : Event) :
    Option (Observed Hash) :=
  let t := Session.step joins herdr frameHash o.thread e
  some ⟨t, Supersede.passed foreign o.passed o.thread e t⟩

/-- A status forwards the held keys only for a line that nothing else has ended. -/
def SubmitsOnce (o : Observed Hash) (e : Event) (o' : Observed Hash) : Prop :=
  match e with
  | .push _ _ => newSends o.thread.shared.log o'.thread.shared.log ≠ [] → o.passed = false
  | _ => True

/-- Return, and neither Enter nor ctrl+c. -/
def returnOnly (request : SendInput) : Bool :=
  (request.keys.getD []).any (eqIgnoreAsciiCase · "Return".toList) &&
    !(request.keys.getD []).any fun key =>
      eqIgnoreAsciiCase key "Enter".toList || eqIgnoreAsciiCase key "ctrl+c".toList

/-- The line of a held submit is ended by Return alone, or by another session. -/
def overtakes (foreign : Bool) (s : Thread Hash) (e : Event) : Bool :=
  match e with
  | .input _ request _ =>
    endsNow s.bridge request && holdsFor s.bridge request.paneId && returnOnly request
  | _ => ended foreign s e

theorem endsHeld_iff (h : endsNow b request = true) :
    endsHeld request = true ↔ returnOnly request = false := by
  simp only [endsNow, Bool.and_eq_true, decide_eq_true_eq] at h
  obtain ⟨⟨⟨-, -⟩, hbypass⟩, hends⟩ := h
  unfold endsHeld returnOnly
  rw [decide_eq_true hbypass, Bool.true_and]
  cases hplain : (request.keys.getD []).any fun key =>
      eqIgnoreAsciiCase key "Enter".toList || eqIgnoreAsciiCase key "ctrl+c".toList with
  | true => simp
  | false =>
    have hreturn : (request.keys.getD []).any (eqIgnoreAsciiCase · "Return".toList) = true := by
      obtain ⟨key, hkey, hline⟩ := List.any_eq_true.mp hends
      have hother := List.any_eq_false.mp hplain key hkey
      refine List.any_eq_true.mpr ⟨key, hkey, ?_⟩
      simp only [endsLine, Bool.or_eq_true] at hline
      simp only [Bool.or_eq_true, not_or] at hother
      rcases hline with (henter | hreturn) | hctrl
      · exact absurd henter hother.1
      · exact hreturn
      · exact absurd hctrl hother.2
    rw [hreturn]
    exact iff_of_false (by decide) (by decide)

theorem valid_immediate (h : validateSendInput request = .ok ()) : request.defer = none := by
  unfold validateSendInput at h
  split at h
  · cases h
  · split at h
    · cases h
    · rename_i hdefer
      simpa using hdefer

/-- A request that is forwarded as it is served. -/
theorem serveInput_now (h : endsNow b request = true) {accepted changed : Bool} {m' : Shared}
    (ht : transmit joins herdr request m = (accepted, changed, m')) :
    serveInput joins herdr now request corr b m =
      ((⟨request.paneId, accepted, false⟩, corr) ::
          (if endsHeld request then b.cancelPendingInputs else b).inputReplies,
        { (if endsHeld request then b.cancelPendingInputs else b).afterInput
            (accepted || changed) now with inputReplies := [] }, m') := by
  simp only [endsNow, Bool.and_eq_true] at h
  obtain ⟨⟨⟨hwatches, hvalid⟩, -⟩, -⟩ := h
  have hv : validateSendInput request = .ok () := by
    cases hv : validateSendInput request with
    | ok u => rfl
    | error err =>
      rw [hv] at hvalid
      cases hvalid
  have himmediate := valid_immediate hv
  unfold serveInput sendInput
  simp only [himmediate, Option.isSome_none, Bool.false_eq_true, if_false,
    Bridge.requireWatched_iff.mpr hwatches, hv, ht, takeInputReplies, orRefused,
    Bridge.afterInput_inputReplies]

theorem cancel_cancel (b : Bridge Hash Corr) :
    b.cancelPendingInputs.cancelPendingInputs = b.cancelPendingInputs := by
  have hnone := cancel_pendingInput b
  generalize b.cancelPendingInputs = b₁ at hnone ⊢
  unfold Bridge.cancelPendingInputs
  rw [hnone]

theorem endsNow_cancel : endsNow b.cancelPendingInputs request = endsNow b request := by
  unfold endsNow Bridge.watches
  rw [(kept_cancel b).watched]

theorem serveInput_cancel (h : endsNow b request = true) (he : endsHeld request = true) :
    serveInput joins herdr now request corr b m =
      serveInput joins herdr now request corr b.cancelPendingInputs m := by
  cases ht : transmit joins herdr request m with
  | mk accepted rest =>
    obtain ⟨changed, m'⟩ := rest
    rw [serveInput_now h ht, serveInput_now ((endsNow_cancel).trans h) ht, if_pos he, if_pos he,
      cancel_cancel]

theorem holdsFor_iff {paneId : PaneId} :
    holdsFor b paneId = true ↔ ∃ p, b.pendingInput = some p ∧ p.paneId = paneId := by
  unfold holdsFor
  cases b.pendingInput with
  | none => simp
  | some p => simp

section Step

variable [DecidableEq Hash]

/-- Return alone leaves the held submit where it is. -/
theorem returnOnly_keeps (hends : endsNow s.bridge request = true)
    (hreturn : returnOnly request = true) :
    (step joins herdr frameHash s (.input now request c)).bridge.pendingInput =
      s.bridge.pendingInput := by
  have hheld : ¬endsHeld request = true := by
    rw [endsHeld_iff hends, hreturn]
    decide
  cases ht : transmit joins herdr request s.shared with
  | mk accepted rest =>
    obtain ⟨changed, m'⟩ := rest
    simp only [step, serveInput_now hends ht, if_neg hheld, Bridge.afterInput_pendingInput]

theorem superseded_iff :
    Superseded joins herdr frameHash s e ↔ overtakes false s e = false := by
  cases e with
  | input now request c =>
    constructor
    · intro hlaw
      refine Bool.eq_false_iff.mpr fun hover => ?_
      obtain ⟨hboth, hreturn⟩ := Bool.and_eq_true_iff.mp hover
      obtain ⟨hends, hholds⟩ := Bool.and_eq_true_iff.mp hboth
      obtain ⟨p, hp, hid⟩ := (holdsFor_iff).mp hholds
      have hnone := (hlaw hends p hp hid).2.2
      have hsame := (@returnOnly_keeps _ joins herdr frameHash now _ c) hends hreturn
      rw [hsame, hp] at hnone
      cases hnone
    · intro hnot hends p hp hid
      have hreturn : returnOnly request = false := by
        have hholds := (holdsFor_iff).mpr ⟨p, hp, hid⟩
        simpa only [overtakes, hends, hholds, Bool.true_and] using hnot
      have hheld : endsHeld request = true := (endsHeld_iff hends).mpr hreturn
      cases ht : transmit joins herdr request s.shared with
      | mk accepted rest =>
        obtain ⟨changed, m'⟩ := rest
        refine ⟨?_, ?_, ?_⟩
        · simp only [step]
          rw [serveInput_cancel hends hheld]
        · simp only [step, serveInput_now hends ht, if_pos hheld, List.append_assoc,
            List.drop_left, cancel_inputReplies, hp]
          refine List.mem_append_right _ (List.mem_cons_of_mem _ ?_)
          refine List.mem_map.mpr ⟨(⟨p.paneId, false, false⟩, p.corr), ?_, rfl⟩
          exact List.mem_append_right _ (List.mem_singleton.mpr rfl)
        · simp only [step, serveInput_now hends ht, if_pos hheld, Bridge.afterInput_pendingInput,
            cancel_pendingInput]
  | _ => exact iff_of_true trivial rfl

/-- Nothing that ends the line of the held submit leaves it there. -/
theorem passed_step (hwas : was = false) (h : overtakes foreign s e = false) :
    passed foreign was s e (step joins herdr frameHash s e) = false := by
  rw [passed, hwas, Bool.false_or]
  cases hended : ended foreign s e with
  | false => exact Bool.and_false _
  | true =>
    cases e with
    | input now request c =>
      obtain ⟨hends, hholds⟩ := Bool.and_eq_true_iff.mp hended
      obtain ⟨p, hp, hid⟩ := (holdsFor_iff).mp hholds
      have hlaw : Superseded joins herdr frameHash s (.input now request c) :=
        (superseded_iff).mpr h
      rw [(hlaw hends p hp hid).2.2]
      rfl
    | others lines calls => cases hended.symm.trans h
    | _ => cases hended

theorem overtaken_step (h : overtakes foreign s e = true) :
    passed foreign was s e (step joins herdr frameHash s e) = true := by
  cases e with
  | input now request c =>
    obtain ⟨hended, hreturn⟩ := Bool.and_eq_true_iff.mp h
    obtain ⟨hends, hholds⟩ := Bool.and_eq_true_iff.mp hended
    obtain ⟨p, hp, -⟩ := (holdsFor_iff).mp hholds
    rw [passed, returnOnly_keeps hends hreturn, hp, ended, hended]
    simp
  | others lines calls =>
    have hended : ended foreign s (.others lines calls) = true := h
    have hsame : (step joins herdr frameHash s (.others lines calls)).bridge = s.bridge := rfl
    have hsome : s.bridge.pendingInput.isSome = true := by
      cases hp : s.bridge.pendingInput with
      | none => simp [ended, hp] at hended
      | some p => rfl
    rw [passed, hended, hsame, hsome]
    simp
  | _ => cases h

end Step

section Runs

variable [DecidableEq Hash]

/-- In every run the keys that end the line take the place of a held submit exactly when none of
them is Return alone, and then no status forwards a submit whose line was ended. With `foreign` the
same is told of the other sessions' keys. Keys that overtake a submit leave it held. -/
theorem held_superseded (joins : Graphemes) (herdr : HerdrCalls) (frameHash : FrameHash Hash)
    (foreign : Bool) (config : RelayConfig) (es : List Event) :
    ((∀ o e o', Occurs (Observed.step joins herdr frameHash foreign) (.start config) es o e o' →
        Superseded joins herdr frameHash o.thread e) ↔
      ∀ o e o', Occurs (Observed.step joins herdr frameHash foreign) (.start config) es o e o' →
        overtakes false o.thread e = false) ∧
    ((∀ o e o', Occurs (Observed.step joins herdr frameHash foreign) (.start config) es o e o' →
        overtakes foreign o.thread e = false) →
      ∀ o e o', Occurs (Observed.step joins herdr frameHash foreign) (.start config) es o e o' →
        SubmitsOnce o e o') ∧
    ∀ o e o', Occurs (Observed.step joins herdr frameHash foreign) (.start config) es o e o' →
      overtakes foreign o.thread e = true → o'.passed = true := by
  refine ⟨?_, ?_, ?_⟩
  · constructor
    · intro hlaw o e o' ho
      exact (superseded_iff).mp (hlaw o e o' ho)
    · intro hplain o e o' ho
      exact (superseded_iff).mpr (hplain o e o' ho)
  · intro hplain o e o' ho
    have hinv : o.passed = false := by
      refine visits_invariant (fun o : Observed Hash => o.passed = false) rfl ?_ ho.before
      intro o e o' hwas ho
      have hstep := ho.step_eq
      cases hstep
      exact passed_step hwas (hplain _ _ _ ho)
    cases e with
    | push now push => exact fun _ => hinv
    | _ => trivial
  · intro o e o' ho hover
    have hstep := ho.step_eq
    cases hstep
    exact overtaken_step hover

end Runs

/-- A submit is held while the agent works, keys are sent at once, and the agent stops. -/
def plainly (key : Text) : List Event :=
  [.watchPane 0 ['p'], .input 1 submit (some ['7']),
    .input 2 { paneId := ['p'], keys := some [key] } (some ['8']),
    .push 3 (.paneAgentStatusChanged ['p'] (some "idle".toList))]

theorem held_superseded_enter :
    (∀ o e o', Occurs (Observed.step (fun _ _ => false) busy (fun _ _ _ => ()) true)
        (.start ⟨120, 125, [60, 130, 250], 16⟩) (plainly "Enter".toList) o e o' →
        overtakes true o.thread e = false) ∧
      ∀ o e o', Occurs (Observed.step (fun _ _ => false) busy (fun _ _ _ => ()) true)
        (.start ⟨120, 125, [60, 130, 250], 16⟩) (plainly "Enter".toList) o e o' →
        SubmitsOnce o e o' := by
  have hplain : ∀ o e o', Occurs (Observed.step (fun _ _ => false) busy (fun _ _ _ => ()) true)
      (.start ⟨120, 125, [60, 130, 250], 16⟩) (plainly "Enter".toList) o e o' →
      overtakes true o.thread e = false := by
    intro o e o' ho
    have hgood := (@occurs_good _ _ _ _ _ _ _ _ (fun o e => !overtakes true o.thread e))
      (by decide) ho
    simpa using hgood
  exact ⟨hplain, (held_superseded (fun _ _ => false) busy (fun _ _ _ => ()) true _ _).2.1 hplain⟩

/-- Return submits the line, and the held Enter submits after it. -/
theorem return_submits_twice :
    (¬∀ o e o', Occurs (Observed.step (fun _ _ => false) busy (fun _ _ _ => ()) false)
        (.start ⟨120, 125, [60, 130, 250], 16⟩) (plainly "Return".toList) o e o' →
        Superseded (fun _ _ => false) busy (fun _ _ _ => ()) o.thread e) ∧
    ¬∀ o e o', Occurs (Observed.step (fun _ _ => false) busy (fun _ _ _ => ()) false)
      (.start ⟨120, 125, [60, 130, 250], 16⟩) (plainly "Return".toList) o e o' →
      SubmitsOnce o e o' := by
  constructor
  · intro hlaw
    have hstep := (superseded_iff).mp (hlaw _ _ _ ⟨(plainly "Return".toList).take 2,
      (plainly "Return".toList).drop 3, rfl, rfl, rfl⟩)
    exact absurd hstep (by decide)
  · intro honce
    have hlast := honce _ _ _
      ((@occurs_last _ _ _ _ _ _ _ (plainly "Return".toList).dropLast) rfl rfl)
    exact absurd (hlast (by decide)) (by decide)

end HerdrMobile.Host.Supersede
