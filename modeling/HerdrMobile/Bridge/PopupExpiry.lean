import HerdrMobile.Bridge.PopupSteps
import HerdrMobile.Lib.Totals

/-!
# The expired notice

The flag that keeps the notice from being shown twice belongs to the pane and is never taken back,
so the notice is shown for one pairing of a pane at most.
-/
namespace HerdrMobile.Bridge.PopupExpiry

open Lib.Run Bridge.Control Bridge.Popup Bridge.PopupSteps

set_option autoImplicit false

variable {X : Terminal} {app app' : App} {e : Event} {now : Nat}

def shownBy : Screen → Nat
  | .normal view => if view.notice = some App.expiredNotice then 1 else 0
  | _ => 0

def foundBy (X : Terminal) (app : App) (now : Nat) : Screen → Nat
  | .normal _ => if app.expires X now then 1 else 0
  | _ => 0

/-- The draws that show the notice. -/
def shows (X : Terminal) (app : App) : Event → Nat
  | .draw width height now => shownBy (app.draw X width height now).2
  | _ => 0

/-- The draws of the normal screen that find the countdown of an open pairing over. -/
def finds (X : Terminal) (app : App) : Event → Nat
  | .draw width height now => foundBy X app now (app.draw X width height now).2
  | _ => 0

/-- The notice has been shown if it is there. -/
def Settled (app : App) : Prop :=
  app.notice = some App.expiredNotice → app.noticeShown = true

theorem settled_change (hs : Settled app) (h : Change app app') :
    Settled app' ∧ app'.expiryNoticed = app.expiryNoticed := by
  cases h with
  | notice text hne => exact ⟨fun h => absurd (Option.some.inj h) hne, rfl⟩
  | down | asked | hidden | loading => exact ⟨hs, rfl⟩
  | fetched status now =>
    unfold App.clampSelection
    split
    · exact ⟨hs, rfl⟩
    · split <;> exact ⟨hs, rfl⟩
  | moved delta =>
    unfold App.moveSelection
    split <;> exact ⟨hs, rfl⟩

theorem settled_changes (hs : Settled app) (h : Changes app app') :
    Settled app' ∧ app'.expiryNoticed = app.expiryNoticed := by
  induction h with
  | refl => exact ⟨hs, rfl⟩
  | tail _ h ih =>
    obtain ⟨hsettled, hflag⟩ := settled_change ih.1 h
    exact ⟨hsettled, hflag.trans ih.2⟩

/-- A shown notice is cleared before the next one is decided. -/
theorem clearNotice_notice (hs : Settled app) :
    app.clearNotice.notice ≠ some App.expiredNotice := by
  unfold App.clearNotice
  split
  · exact fun h => nomatch h
  · next hshown => exact fun h => hshown (hs h)

theorem clearNotice_flag (app : App) : app.clearNotice.expiryNoticed = app.expiryNoticed := by
  unfold App.clearNotice
  split <;> rfl

theorem settled_markNoticeShown (app : App) : Settled app.markNoticeShown := by
  unfold App.markNoticeShown
  split
  · exact fun _ => rfl
  · next hnone =>
    intro h
    rw [h] at hnone
    exact absurd rfl hnone

theorem flag_markNoticeShown (app : App) :
    app.markNoticeShown.expiryNoticed = app.expiryNoticed := by
  unfold App.markNoticeShown
  split <;> rfl

theorem expires_congr (h : Same app app') : app'.expires X now = app.expires X now := by
  unfold App.expires App.pairingOpen App.pairingView
  rw [h.status, h.fetched]

/-- The notice is set where the countdown is over and the flag is not. -/
theorem noteExpiry_spec (hnotice : app.notice ≠ some App.expiredNotice) (now : Nat) :
    (if (app.noteExpiry X now).notice = some App.expiredNotice then 1 else 0) =
        (if app.expiryNoticed then 0 else if app.expires X now then 1 else 0) ∧
      (app.noteExpiry X now).expiryNoticed = (app.expiryNoticed || app.expires X now) := by
  unfold App.noteExpiry
  cases app.expires X now with
  | false =>
    rw [Bool.false_and, if_neg Bool.false_ne_true, if_neg hnotice, if_neg Bool.false_ne_true,
      Bool.or_false]
    exact ⟨(ite_self _).symm, rfl⟩
  | true =>
    cases hflag : app.expiryNoticed with
    | false => exact ⟨if_pos rfl, rfl⟩
    | true =>
      rw [Bool.not_true, Bool.and_false, if_neg Bool.false_ne_true, if_neg hnotice]
      exact ⟨rfl, hflag⟩

/-- One step: the notice is shown by the first draw that finds the countdown over. -/
theorem step_expiry (hs : Settled app) (hstep : step X app e = some app') :
    Settled app' ∧ shows X app e = (if app.expiryNoticed then 0 else finds X app e) ∧
      app'.expiryNoticed = (app.expiryNoticed || decide (0 < finds X app e)) := by
  have hquiet : Changes app app' → shows X app e = 0 → finds X app e = 0 →
      Settled app' ∧ shows X app e = (if app.expiryNoticed then 0 else finds X app e) ∧
        app'.expiryNoticed = (app.expiryNoticed || decide (0 < finds X app e)) := by
    intro hchanges hshows hfinds
    obtain ⟨hsettled, hflag⟩ := settled_changes hs hchanges
    rw [hshows, hfinds, hflag]
    exact ⟨hsettled, (ite_self _).symm, (Bool.or_false _).symm⟩
  cases e with
  | poll answer now =>
    cases hstep
    exact hquiet (changes_refreshAt answer) rfl rfl
  | key key now answers =>
    cases hstep
    exact hquiet changes_handleKey rfl rfl
  | draw width height now =>
    obtain rfl := Option.some.inj hstep
    have hshows : shows X app (.draw width height now) = shownBy (app.draw X width height now).2 :=
      rfl
    have hfinds : finds X app (.draw width height now) =
        foundBy X app now (app.draw X width height now).2 := rfl
    rw [hshows, hfinds]
    generalize hafter : (app.draw X width height now).1 = after
    generalize hscreen : (app.draw X width height now).2 = screen
    have hdrawn := drawn X app width height now
    rw [hafter, hscreen] at hdrawn
    cases hdrawn with
    | tooSmall | notRunning | confirm =>
      refine ⟨settled_markNoticeShown _, (ite_self _).symm, ?_⟩
      rw [flag_markNoticeShown]
      exact (clearNotice_flag app).trans (Bool.or_false _).symm
    | normal status hnone hstatus =>
      obtain ⟨hnotice, hflag⟩ := @noteExpiry_spec X _ (clearNotice_notice hs) now
      rw [clearNotice_flag, expires_congr (same_clearNotice app)] at hnotice hflag
      refine ⟨settled_markNoticeShown _, hnotice, ?_⟩
      rw [flag_markNoticeShown]
      refine hflag.trans ?_
      unfold foundBy
      cases app.expires X now <;> rfl

/-- Over a run the notice is shown once if any draw finds a countdown over, however many pairings
run out. -/
theorem expired_once (X : Terminal) (start : Nat) (es : List Event) :
    total (step X) (shows X) (.new start) es =
      min 1 (total (step X) (finds X) (.new start) es) := by
  have hrun : ∃ app, run (step X) (.new start) es = some app ∧ Settled app ∧
      app.expiryNoticed = decide (0 < total (step X) (finds X) (.new start) es) ∧
        total (step X) (shows X) (.new start) es =
          min 1 (total (step X) (finds X) (.new start) es) := by
    induction es using List.reverseRecOn with
    | nil =>
      have hsettled : Settled (.new start) := fun h => nomatch h
      exact ⟨.new start, rfl, hsettled, rfl, rfl⟩
    | append_singleton init e ih =>
      obtain ⟨prev, hinit, hsettled, hflag, htotal⟩ := ih
      obtain ⟨app, hstep⟩ : ∃ app, step X prev e = some app := by
        cases e <;> exact ⟨_, rfl⟩
      obtain ⟨hsettled', hshows, hflag'⟩ := step_expiry hsettled hstep
      refine ⟨app, run_snoc hinit hstep, hsettled', ?_, ?_⟩
      · rw [total_snoc hinit, hflag', hflag]
        generalize total (step X) (finds X) (.new start) init = found
        rw [← Bool.decide_or]
        exact decide_eq_decide.mpr (by omega)
      · rw [total_snoc hinit, total_snoc hinit, hshows, htotal, hflag]
        have hbit : finds X prev e ≤ 1 := by
          unfold finds foundBy
          split
          · split
            · split <;> omega
            · omega
          · omega
        by_cases h : 0 < total (step X) (finds X) (.new start) init
        · rw [decide_eq_true h, if_pos rfl]
          omega
        · rw [decide_eq_false h, if_neg Bool.false_ne_true]
          omega
  obtain ⟨app, -, -, -, htotal⟩ := hrun
  exact htotal

end HerdrMobile.Bridge.PopupExpiry
