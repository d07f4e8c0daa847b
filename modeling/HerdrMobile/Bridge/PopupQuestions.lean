import HerdrMobile.Bridge.PopupSteps
import HerdrMobile.Lib.Run

/-!
# Questions of the pane

What takes access from a phone or stops the relay is asked first, and the next key answers. Over a
run of draws, polls and key presses in any order, such a command has its question before it.
-/
namespace HerdrMobile.Bridge.PopupQuestions

open Lib.Run Bridge.Control Bridge.Popup Bridge.PopupSteps
open Proto.Messages (Text)

set_option autoImplicit false

variable {X : Terminal} {app app' : App} {e : Event} {es : List Event}
  {start now width height : Nat} {key : KeyCode} {answers : Answers}

theorem confirm_clampSelection (app : App) : app.clampSelection.confirm = app.confirm := by
  unfold App.clampSelection
  split
  · rfl
  · split <;> rfl

theorem confirm_refreshAt (answer : Except ClientError Status) :
    (app.refreshAt X answer now).confirm = app.confirm := by
  unfold App.refreshAt
  split
  · dsimp only
    split <;> exact confirm_clampSelection _
  · rfl
  · rfl

theorem confirm_sendCommand (sent : Except ClientError Unit) :
    (app.sendCommand sent).1.confirm = app.confirm := by
  unfold App.sendCommand
  split <;> rfl

theorem confirm_confirmAction (pending : PendingAction) :
    (app.confirmAction X pending answers).confirm = app.confirm := by
  have hsent := @confirm_sendCommand app answers.sent
  unfold App.confirmAction
  generalize app.sendCommand answers.sent = r at hsent
  obtain ⟨app', accepted⟩ := r
  have hrefresh : (app'.refresh X answers).confirm = app.confirm :=
    (confirm_refreshAt _).trans hsent
  cases pending with
  | removeOne deviceId deviceName | removeAll count =>
    dsimp only
    split
    · exact hrefresh
    · exact hsent
  | stop => exact hrefresh

/-- A key answers the question that is open, and otherwise it may ask one. -/
theorem confirm_handleKey : (app.handleKey X key now answers).1.confirm =
    if app.confirm = none then app.asks key else none := by
  unfold App.handleKey
  cases hc : app.confirm with
  | some pending =>
    dsimp only
    rw [if_neg (Option.some_ne_none pending)]
    split
    · exact confirm_confirmAction pending
    · rfl
  | none =>
    dsimp only
    rw [if_pos rfl]
    have hask : (app.ask key).confirm = app.asks key := by
      unfold App.ask
      cases app.asks key with
      | none => exact hc
      | some pending => rfl
    have hmove : ∀ delta, (app.moveSelection delta).confirm = none := by
      intro delta
      unfold App.moveSelection
      split <;> exact hc
    have hcopy : (app.copyPairing X now answers.copied).confirm = none := by
      unfold App.copyPairing
      split
      · exact hc
      · split <;> exact hc
    have hquit : (app.quit answers).confirm = none := by
      unfold App.quit
      split
      · exact (confirm_sendCommand _).trans hc
      · exact hc
    split
    · exact hmove (-1)
    · exact hmove (-1)
    · exact hmove 1
    · exact hmove 1
    · exact (confirm_refreshAt _).trans ((confirm_sendCommand _).trans hc)
    · exact hcopy
    · exact hask
    · exact hask
    · exact hask
    · exact confirm_refreshAt _
    · exact hquit
    · exact hquit
    · next h1 h2 h3 h4 h5 h6 h7 h8 h9 h10 h11 h12 =>
      unfold App.asks
      split
      · exact absurd rfl h7
      · exact absurd rfl h8
      · exact absurd rfl h9
      · exact hc

def isKey : Event → Bool
  | .key .. => true
  | _ => false

theorem confirm_step (hstep : step X app e = some app') (hkey : isKey e = false) :
    app'.confirm = app.confirm := by
  cases e with
  | draw width height now =>
    cases hstep
    exact (same_draw X app width height now).confirm
  | poll answer now =>
    cases hstep
    exact confirm_refreshAt answer
  | key key now answers => cases hkey

/-- The question was asked by a key press, no key came after it, and every draw since showed the
question or a pane that is too small. -/
structure Asked (X : Terminal) (start : Nat) (past : List Event) (pending : PendingAction) :
    Prop where
  asked : ∃ before key pressed answers since asker,
    past = before ++ .key key pressed answers :: since ∧
    run (step X) (.new start) before = some asker ∧ asker.confirm = none ∧
      asker.asks key = some pending ∧ (∀ e ∈ since, isKey e = false) ∧
        ∀ between width height now after app, since = between ++ .draw width height now :: after →
          run (step X) (.new start) (before ++ .key key pressed answers :: between) = some app →
            (app.draw X width height now).2 = .confirm pending.question ∨
              (app.draw X width height now).2 = .tooSmall

theorem draw_question {pending : PendingAction} (hconfirm : app.confirm = some pending) :
    (app.draw X width height now).2 = .confirm pending.question ∨
      (app.draw X width height now).2 = .tooSmall := by
  generalize hafter : (app.draw X width height now).1 = after
  generalize hscreen : (app.draw X width height now).2 = screen
  have hdrawn := drawn X app width height now
  rw [hafter, hscreen] at hdrawn
  cases hdrawn with
  | tooSmall => exact Or.inr rfl
  | confirm other hother =>
    obtain rfl : pending = other := Option.some.inj (hconfirm.symm.trans hother)
    exact Or.inl rfl
  | notRunning hnone | normal status hnone =>
    rw [hconfirm] at hnone
    cases hnone

theorem asked_of_confirm {past : List Event} {pending : PendingAction}
    (hrun : run (step X) (.new start) past = some app) (hconfirm : app.confirm = some pending) :
    Asked X start past pending := by
  induction past using List.reverseRecOn generalizing app with
  | nil =>
    cases hrun
    cases hconfirm
  | append_singleton init e ih =>
    obtain ⟨prev, hinit, hstep⟩ := run_snoc_inv hrun
    cases hkey : isKey e with
    | true =>
      cases e with
      | key key pressed answers =>
        cases hstep
        rw [confirm_handleKey] at hconfirm
        split at hconfirm
        · next hnone =>
          refine ⟨init, key, pressed, answers, [], prev, rfl, hinit, hnone, hconfirm, ?_, ?_⟩
          · exact fun e he => nomatch he
          · intro between width height now after app hsplit
            cases between <;> cases hsplit
        · cases hconfirm
      | draw | poll => cases hkey
    | false =>
      have hprev : prev.confirm = some pending := (confirm_step hstep hkey).symm.trans hconfirm
      obtain ⟨before, key, pressed, answers, since, asker, rfl, hbefore, hnone, hasks, hkeys,
        hdraws⟩ := ih hinit hprev
      refine ⟨before, key, pressed, answers, since ++ [e], asker, ?_, hbefore, hnone, hasks, ?_, ?_⟩
      · rw [List.append_assoc, List.cons_append]
      · intro e' he'
        rcases List.mem_append.mp he' with he' | he'
        · exact hkeys e' he'
        · rw [List.mem_singleton.mp he']
          exact hkey
      · intro between width height now after app' hsplit hrun'
        -- The draw is the last event, or one that the earlier events contain.
        rcases List.eq_nil_or_concat after with rfl | ⟨rest, last, rfl⟩
        · obtain ⟨rfl, -⟩ := List.append_inj' hsplit rfl
          rw [hinit] at hrun'
          cases hrun'
          exact draw_question hprev
        · rw [List.concat_eq_append, ← List.cons_append, ← List.append_assoc] at hsplit
          obtain ⟨hsplit, -⟩ := List.append_inj' hsplit rfl
          exact hdraws between width height now rest app' hsplit hrun'

def destructive : Command → Bool
  | .revoke _ | .revokeAll | .stop => true
  | .status | .openPairing | .closePairing => false

/-- A phone loses access, or the relay stops, only by `y` right after the question for it. -/
theorem destructive_confirmed (X : Terminal) (start : Nat) (past : List Event) (app : App)
    (hrun : run (step X) (.new start) past = some app) (key : KeyCode) (now : Nat)
    (answers : Answers) (command : Command)
    (hsent : (app.handleKey X key now answers).2.2 = some command)
    (hcommand : destructive command = true) :
    key = .char 'y' ∧ ∃ pending, pending.command = command ∧ Asked X start past pending := by
  unfold App.handleKey at hsent
  cases hconfirm : app.confirm with
  | some pending =>
    rw [hconfirm] at hsent
    dsimp only at hsent
    split at hsent
    · next hkey =>
      exact ⟨hkey, pending, Option.some.inj hsent, asked_of_confirm hrun hconfirm⟩
    · cases hsent
  | none =>
    exfalso
    rw [hconfirm] at hsent
    dsimp only at hsent
    split at hsent <;> first | cases hsent; done | skip
    · obtain rfl := Option.some.inj hsent
      cases hcommand
    all_goals
      dsimp only at hsent
      split at hsent
      · obtain rfl := Option.some.inj hsent
        cases hcommand
      · cases hsent

/-- One cell for each character, no code, and a split that gives the middle what is left. -/
def plain : Terminal :=
  ⟨List.length, fun _ => none, fun height top bottom => height - (top + bottom),
    fun _ _ _ _ => rfl⟩

def pixel : DeviceRow := ⟨"d1".toList, "Pixel".toList, .android, "15".toList, [], [], [], true⟩

def onePhone : Status := ⟨"http://r".toList, ⟨.idle, 0, none⟩, none, [pixel]⟩

def granted : Answers := ⟨.ok (), .ok onePhone, .ok (), 0⟩

theorem destructive_confirmed_all :
    ∃ app, run (step plain) (.new 0) [.poll (.ok onePhone) 0, .key (.char 'r') 0 granted,
        .draw 72 46 0] = some app ∧
      ∃ pending, pending.command = .revokeAll ∧ Asked plain 0 [.poll (.ok onePhone) 0,
        .key (.char 'r') 0 granted, .draw 72 46 0] pending :=
  ⟨_, rfl, (destructive_confirmed plain 0 _ _ rfl (.char 'y') 0 granted .revokeAll rfl rfl).2⟩

end HerdrMobile.Bridge.PopupQuestions
