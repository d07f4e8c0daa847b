import Mathlib.Logic.Relation
import HerdrMobile.Bridge.Popup

/-!
# What an event does to the pane

A draw changes the notice and the flags of the screen and leaves the status, the selection and the
question alone. A key press or a poll is a chain of a few kinds of changes.
-/
namespace HerdrMobile.Bridge.PopupSteps

open Bridge.Control Bridge.Popup
open Proto.Messages (Text)

set_option autoImplicit false

variable {X : Terminal} {app app' : App} {now width height : Nat} {key : KeyCode}
  {answers : Answers}

/-- The operation changes neither the status nor the selection nor a question. -/
structure Same (app app' : App) : Prop where
  status : app'.status = app.status
  bridgeDown : app'.bridgeDown = app.bridgeDown
  fetched : app'.statusFetchedAt = app.statusFetchedAt
  selected : app'.selected = app.selected
  confirm : app'.confirm = app.confirm

theorem Same.refl (app : App) : Same app app := ⟨rfl, rfl, rfl, rfl, rfl⟩

theorem Same.trans {app'' : App} (h : Same app app') (h' : Same app' app'') : Same app app'' :=
  ⟨h'.status.trans h.status, h'.bridgeDown.trans h.bridgeDown, h'.fetched.trans h.fetched,
    h'.selected.trans h.selected, h'.confirm.trans h.confirm⟩

theorem same_clearNotice (app : App) : Same app app.clearNotice := by
  unfold App.clearNotice
  split <;> exact ⟨rfl, rfl, rfl, rfl, rfl⟩

theorem same_markNoticeShown (app : App) : Same app app.markNoticeShown := by
  unfold App.markNoticeShown
  split <;> exact ⟨rfl, rfl, rfl, rfl, rfl⟩

theorem same_noteExpiry (app : App) (now : Nat) : Same app (app.noteExpiry X now) := by
  unfold App.noteExpiry
  split
  · exact ⟨rfl, rfl, rfl, rfl, rfl⟩
  · exact Same.refl app

theorem same_visible (app : App) (visible : Bool) :
    Same app { app with tableVisible := visible } :=
  ⟨rfl, rfl, rfl, rfl, rfl⟩

/-- The cases of a draw: what it shows, and the pane that it leaves. -/
inductive Drawn (X : Terminal) (app : App) (width height now : Nat) : App → Screen → Prop where
  | tooSmall :
      Drawn X app width height now
        { app.clearNotice with tableVisible := false }.markNoticeShown .tooSmall
  | confirm (pending : PendingAction) : app.confirm = some pending →
      Drawn X app width height now app.clearNotice.markNoticeShown (.confirm pending.question)
  | notRunning : app.confirm = none →
      Drawn X app width height now
        { app.clearNotice with tableVisible := false }.markNoticeShown .notRunning
  | normal (status : Status) : app.confirm = none → app.status = some status →
      Drawn X app width height now
        { app.clearNotice.noteExpiry X now with
          tableVisible := ((app.clearNotice.noteExpiry X now).normalScreen X status.link width
            height now).regions.table }.markNoticeShown
        (.normal ((app.clearNotice.noteExpiry X now).normalScreen X status.link width height now))

theorem drawn (X : Terminal) (app : App) (width height now : Nat) :
    Drawn X app width height now (app.draw X width height now).1
      (app.draw X width height now).2 := by
  have hsame := same_clearNotice app
  unfold App.draw
  dsimp only
  split
  · exact .tooSmall
  · split
    · next pending hconfirm => exact .confirm pending (hsame.confirm ▸ hconfirm)
    · next hconfirm =>
      split
      · exact .notRunning (hsame.confirm ▸ hconfirm)
      · next status hstatus =>
        refine .normal status (hsame.confirm ▸ hconfirm) ?_
        split at hstatus
        · cases hstatus
        · exact hsame.status ▸ hstatus

theorem same_draw (X : Terminal) (app : App) (width height now : Nat) :
    Same app (app.draw X width height now).1 := by
  have hclear := same_clearNotice app
  generalize hafter : (app.draw X width height now).1 = after
  generalize hscreen : (app.draw X width height now).2 = screen
  have hdrawn := drawn X app width height now
  rw [hafter, hscreen] at hdrawn
  cases hdrawn with
  | tooSmall | notRunning =>
    exact hclear.trans ((same_visible _ false).trans (same_markNoticeShown _))
  | confirm => exact hclear.trans (same_markNoticeShown _)
  | normal =>
    exact hclear.trans ((same_noteExpiry _ now).trans
      ((same_visible _ _).trans (same_markNoticeShown _)))

/-- One change of a key press or a poll. -/
inductive Change (app : App) : App → Prop where
  | notice (text : Text) : text ≠ App.expiredNotice → Change app (app.setNotice text)
  | down : Change app { app with status := none, bridgeDown := true }
  | fetched (status : Status) (now : Nat) : Change app { app with
      statusFetchedAt := now, status := some status, bridgeDown := false }.clampSelection
  | moved (delta : Int) : Change app (app.moveSelection delta)
  | asked (pending : Option PendingAction) : Change app { app with confirm := pending }
  | hidden : Change app { app with
      status := app.status.map fun status => { status with pairing := none } }
  | loading (on : Bool) : Change app { app with loading := on }

def Changes : App → App → Prop := Relation.ReflTransGen Change

theorem Change.changes (h : Change app app') : Changes app app' := Relation.ReflTransGen.single h

theorem errorText_ne (err : ClientError) : errorText err ≠ App.expiredNotice := by
  intro h
  have hhead : (errorText err).head? = some 't' := by
    cases err <;> rfl
  rw [h] at hhead
  exact absurd hhead (by decide)

theorem changes_refreshAt (answer : Except ClientError Status) :
    Changes app (app.refreshAt X answer now) := by
  unfold App.refreshAt
  split
  · next status =>
    dsimp only
    have hfetched := (@Change.fetched app status now).changes
    split
    · exact hfetched.tail (.notice _ (by decide))
    · exact hfetched
  · exact Change.down.changes
  · exact (Change.notice _ (errorText_ne _)).changes

theorem changes_sendCommand (sent : Except ClientError Unit) :
    Changes app (app.sendCommand sent).1 := by
  unfold App.sendCommand
  split
  · exact .refl
  · exact Change.down.changes
  · exact (Change.notice _ (errorText_ne _)).changes

/-- The notice about a phone ends in other words than the one about the phrase. -/
theorem lostAccess_ne (deviceName : Text) :
    deviceName ++ " lost access".toList ≠ App.expiredNotice := by
  intro h
  have hlast : (deviceName ++ " lost access".toList).getLast? = some 's' := by
    rw [List.getLast?_append]
    rfl
  rw [h] at hlast
  exact absurd hlast (by decide)

theorem changes_confirmAction (pending : PendingAction) :
    Changes app (app.confirmAction X pending answers) := by
  have hsent := @changes_sendCommand app answers.sent
  unfold App.confirmAction
  generalize app.sendCommand answers.sent = r at hsent
  obtain ⟨app', accepted⟩ := r
  have hrefresh : Changes app (app'.refresh X answers) := hsent.trans (changes_refreshAt _)
  cases pending with
  | removeOne deviceId deviceName =>
    dsimp only
    split
    · exact hrefresh.tail (.notice _ (lostAccess_ne deviceName))
    · exact hsent
  | removeAll count =>
    dsimp only
    split
    · exact hrefresh.tail (.notice _ (by decide))
    · exact hsent
  | stop => exact hrefresh

theorem changes_copyPairing : Changes app (app.copyPairing X now answers.copied) := by
  unfold App.copyPairing
  split
  · exact (Change.notice _ (by decide)).changes
  · split
    · exact (Change.notice _ (by decide)).changes
    · next message _ =>
      refine (Change.notice _ fun h => ?_).changes
      have hhead : ("copy failed: ".toList ++ message).head? = some 'c' := rfl
      rw [h] at hhead
      exact absurd hhead (by decide)

theorem changes_quit : Changes app (app.quit answers) := by
  unfold App.quit
  split
  · exact (changes_sendCommand _).tail .hidden
  · exact .refl

theorem changes_handleKey : Changes app (app.handleKey X key now answers).1 := by
  unfold App.handleKey
  split
  · have hclosed := (@Change.asked app none).changes
    dsimp only
    split
    · exact hclosed.trans (changes_confirmAction _)
    · exact hclosed
  · have hask : Changes app (app.ask key) := by
      unfold App.ask
      split
      · exact (Change.asked _).changes
      · exact .refl
    have hloading := (@Change.loading app true).changes
    split
    · exact (Change.moved _).changes
    · exact (Change.moved _).changes
    · exact (Change.moved _).changes
    · exact (Change.moved _).changes
    · exact (changes_sendCommand _).trans (changes_refreshAt _)
    · exact changes_copyPairing
    · exact hask
    · exact hask
    · exact hask
    · exact (hloading.trans (changes_refreshAt _)).tail (.loading false)
    · exact changes_quit
    · exact changes_quit
    · exact .refl

end HerdrMobile.Bridge.PopupSteps
