import HerdrMobile.Lib.Run
import HerdrMobile.App.Panes

/-!
# A switch of panes

The frames of the pane that is left still come in until the `watch_ack` of the next one, and
what they leave behind is not dropped with it. A switch during which none of them comes in
loses no frame of the new pane and shows none of the old one.
-/
namespace HerdrMobile.App.Switch

open HerdrMobile.Lib.Run HerdrMobile.Proto.Messages HerdrMobile.Host.Watch HerdrMobile.App
open HerdrMobile.App.Panes

set_option autoImplicit false

/-- The frames that were fed to the grid since the last `watch_ack`. -/
def fed : List Drawn → List PaneFrame
  | [] => []
  | .watchAck _ :: _ => []
  | .frame _ frame :: rest => frame :: fed rest
  | .history _ :: rest => fed rest

/-- Every frame was fed while its pane was the one that the state names. -/
def Faithful (drawn : List Drawn) : Prop :=
  ∀ paneId frame, .frame paneId frame ∈ drawn → paneId = some frame.paneId

/-- A frame of the attached pane is fed, or held, or another one is newer: its revision is
higher, or as high and it came later. -/
def Kept (w : Watch) : Prop :=
  ∀ later frame earlier, w.received = later ++ frame :: earlier →
    frame ∈ fed w.service.drawn ∨ w.service.pendingFrame = some frame ∨
      (∃ newer ∈ later, frame.revision ≤ newer.revision) ∨
      ∃ newer ∈ earlier, frame.revision < newer.revision

/-- A held frame waits for the end of a freeze or for the throttle. -/
def Waits (t : TerminalService) : Prop :=
  t.pendingFrame.isSome = true → t.frozen = true ∨ t.coalesceTimer = true

structure Law (w : Watch) : Prop where
  faithful : Faithful w.service.drawn
  kept : Kept w
  waits : Waits w.service

/-- At the `watch_ack` of an attach, no frame of the pane shown so far has come in since the
attach began. -/
def Clean (w : Watch) : Event → Prop
  | .watchAck ack => w.service.attachingPaneId = some ack.paneId → w.service.currentBest = none
  | _ => True

/-- The frames that the service has are of the pane that its state names. -/
structure Own (t : TerminalService) : Prop where
  faithful : Faithful t.drawn
  pending : ∀ frame, t.pendingFrame = some frame → t.paneId = some frame.paneId
  live : ∀ frame, t.lastLiveFrame = some frame → t.paneId = some frame.paneId
  applied : t.lastAppliedRevision = t.lastLiveFrame.map PaneFrame.revision

/-- The frame is the best one, and it is held or fed. -/
def Best (t : TerminalService) (frame : PaneFrame) : Prop :=
  t.currentBest = some frame.revision ∧ (t.pendingFrame = some frame ∨ frame ∈ fed t.drawn)

/-- The pane, the attach and the best frame are as before. -/
structure Same (t t' : TerminalService) : Prop where
  paneId : t'.paneId = t.paneId
  attaching : t'.attachingPaneId = t.attachingPaneId
  best : t'.currentBest = t.currentBest
  had : ∀ frame, (t.pendingFrame = some frame ∨ frame ∈ fed t.drawn) →
    t'.pendingFrame = some frame ∨ frame ∈ fed t'.drawn

section Service

variable {t t' t'' : TerminalService} {frame : PaneFrame} {tripped : Bool}

theorem Same.refl (t : TerminalService) : Same t t := ⟨rfl, rfl, rfl, fun _ h => h⟩

theorem Same.trans (h : Same t t') (h' : Same t' t'') : Same t t'' :=
  ⟨h'.paneId.trans h.paneId, h'.attaching.trans h.attaching, h'.best.trans h.best,
    fun frame hf => h'.had frame (h.had frame hf)⟩

theorem Same.bestFrame (h : Same t t') (hb : Best t frame) : Best t' frame :=
  ⟨h.best.trans hb.1, h.had frame hb.2⟩

theorem flush_held (hf : t.pendingFrame = some frame) (hfrozen : t.frozen = false) :
    t.flushPendingFrame tripped =
      { t with
        coalesceTimer := false
        pendingFrame := none
        lastAppliedRevision := some frame.revision
        lastLiveFrame := some frame
        drawn := .frame t.paneId frame :: t.drawn
        slow := t.slow || tripped } := by
  have hfrozen' : ¬{ t with coalesceTimer := false }.frozen = true := by
    show ¬t.frozen = true
    rw [hfrozen]
    exact Bool.false_ne_true
  unfold TerminalService.flushPendingFrame
  dsimp only
  split
  · rename_i hnone
    cases hf.symm.trans hnone
  · rename_i g hg
    cases hf.symm.trans hg
    rw [if_neg hfrozen']

theorem flush_frozen (hfrozen : t.frozen = true) :
    t.flushPendingFrame tripped = { t with coalesceTimer := false } := by
  have hfrozen' : { t with coalesceTimer := false }.frozen = true := hfrozen
  unfold TerminalService.flushPendingFrame
  dsimp only
  split
  · rfl
  · rw [if_pos hfrozen']

theorem flush_none (hf : t.pendingFrame = none) :
    t.flushPendingFrame tripped = { t with coalesceTimer := false } := by
  unfold TerminalService.flushPendingFrame
  simp only [hf]

theorem flush_cases (t : TerminalService) (tripped : Bool) :
    (t.flushPendingFrame tripped = { t with coalesceTimer := false } ∧
        (t.pendingFrame = none ∨ t.frozen = true)) ∨
      ∃ frame, t.pendingFrame = some frame ∧ t.frozen = false ∧
        t.flushPendingFrame tripped =
          { t with
            coalesceTimer := false
            pendingFrame := none
            lastAppliedRevision := some frame.revision
            lastLiveFrame := some frame
            drawn := .frame t.paneId frame :: t.drawn
            slow := t.slow || tripped } := by
  obtain hf | ⟨frame, hf⟩ := Option.eq_none_or_eq_some t.pendingFrame
  · exact .inl ⟨flush_none hf, .inl hf⟩
  · cases hfrozen : t.frozen with
    | true => exact .inl ⟨flush_frozen hfrozen, .inr rfl⟩
    | false => exact .inr ⟨frame, hf, rfl, flush_held hf hfrozen⟩

theorem flush_same (t : TerminalService) (tripped : Bool) :
    Same t (t.flushPendingFrame tripped) := by
  obtain ⟨heq, -⟩ | ⟨frame, hf, -, heq⟩ := flush_cases t tripped
  · rw [heq]
    exact ⟨rfl, rfl, rfl, fun _ h => h⟩
  · rw [heq]
    refine ⟨rfl, rfl, ?_, ?_⟩
    · simp [TerminalService.currentBest, hf]
    · intro g hg
      refine .inr ?_
      cases hg with
      | inl hg =>
        cases hf.symm.trans hg
        exact List.mem_cons_self ..
      | inr hg => exact List.mem_cons_of_mem _ hg

theorem flush_waits (t : TerminalService) (tripped : Bool) :
    Waits (t.flushPendingFrame tripped) := by
  obtain ⟨heq, hcase⟩ | ⟨frame, -, -, heq⟩ := flush_cases t tripped
  · rw [heq]
    intro hsome
    cases hcase with
    | inl hnone =>
      have hsome : t.pendingFrame.isSome = true := hsome
      rw [hnone] at hsome
      cases hsome
    | inr hfrozen => exact .inl hfrozen
  · rw [heq]
    intro hsome
    cases hsome

/-- What is fed is of the pane that the state names. -/
theorem Own.flush (h : Own t) (tripped : Bool) : Own (t.flushPendingFrame tripped) := by
  obtain ⟨heq, -⟩ | ⟨frame, hf, -, heq⟩ := flush_cases t tripped
  · rw [heq]
    exact ⟨h.faithful, h.pending, h.live, h.applied⟩
  · rw [heq]
    have hpane := h.pending frame hf
    refine ⟨?_, ?_, ?_, rfl⟩
    · intro paneId g hg
      cases List.mem_cons.mp hg with
      | inl hg =>
        cases hg
        exact hpane
      | inr hg => exact h.faithful paneId g hg
    · intro g hg
      cases hg
    · intro g hg
      cases hg
      exact hpane

/-- A change of what the frames do not depend on. -/
theorem Own.of_same (h : Own t) (hd : t'.drawn = t.drawn) (hp : t'.paneId = t.paneId)
    (hpending : t'.pendingFrame = t.pendingFrame) (hlive : t'.lastLiveFrame = t.lastLiveFrame)
    (happlied : t'.lastAppliedRevision = t.lastAppliedRevision) : Own t' := by
  refine ⟨?_, ?_, ?_, ?_⟩
  · rw [hd]
    exact h.faithful
  · rw [hpending, hp]
    exact h.pending
  · rw [hlive, hp]
    exact h.live
  · rw [happlied, hlive]
    exact h.applied

theorem leaveHistory_own (h : Own t) : Own t.leaveHistory := by
  unfold TerminalService.leaveHistory
  split
  · refine ⟨h.faithful, ?_, h.live, h.applied⟩
    intro g hg
    have hg : t.pendingFrame.or t.lastLiveFrame = some g := hg
    cases Option.or_eq_some_iff.mp hg with
    | inl hg => exact h.pending g hg
    | inr hg => exact h.live g hg.2
  · exact h

/-- The last frame is held again, and its revision is the one that was painted. -/
theorem leaveHistory_same (h : Own t) : Same t t.leaveHistory := by
  unfold TerminalService.leaveHistory
  split
  · refine ⟨rfl, rfl, ?_, ?_⟩
    · unfold TerminalService.currentBest
      rw [h.applied]
      show ((t.pendingFrame.or t.lastLiveFrame).map _).or (t.lastLiveFrame.map _) =
        (t.pendingFrame.map _).or (t.lastLiveFrame.map _)
      cases t.pendingFrame with
      | some f => rfl
      | none => cases t.lastLiveFrame <;> rfl
    · intro g hg
      refine hg.imp ?_ id
      intro hg
      show t.pendingFrame.or t.lastLiveFrame = some g
      rw [hg]
      rfl
  · exact .refl t

/-- What an operation on the frames keeps. -/
structure Turned (t t' : TerminalService) : Prop where
  own : Own t'
  same : Same t t'
  waits : Waits t'

theorem onFreeze_turned (h : Own t) (tripped : Bool) :
    Turned t (t.onFreezeConditionChanged tripped) := by
  unfold TerminalService.onFreezeConditionChanged
  split
  · rename_i hfrozen
    exact ⟨h, .refl t, fun _ => .inl hfrozen⟩
  · have hstopped : Own { t with coalesceTimer := false } := h.of_same rfl rfl rfl rfl rfl
    have hleft := leaveHistory_own hstopped
    have hsame : Same t { t with coalesceTimer := false } := ⟨rfl, rfl, rfl, fun _ hf => hf⟩
    exact ⟨hleft.flush tripped,
      (hsame.trans (leaveHistory_same hstopped)).trans (flush_same _ tripped),
      flush_waits _ tripped⟩

theorem Turned.after (hsame : Same t t') (h : Turned t' t'') : Turned t t'' :=
  ⟨h.own, hsame.trans h.same, h.waits⟩

/-- The freeze conditions change first. -/
theorem onFreeze_after (h : Own t) (hd : t'.drawn = t.drawn) (hp : t'.paneId = t.paneId)
    (ha : t'.attachingPaneId = t.attachingPaneId) (hpending : t'.pendingFrame = t.pendingFrame)
    (hlive : t'.lastLiveFrame = t.lastLiveFrame)
    (happlied : t'.lastAppliedRevision = t.lastAppliedRevision) (tripped : Bool) :
    Turned t (t'.onFreezeConditionChanged tripped) := by
  have hsame : Same t t' := by
    refine ⟨hp, ha, ?_, ?_⟩
    · unfold TerminalService.currentBest
      rw [hpending, happlied]
    · rw [hpending, hd]
      exact fun _ hf => hf
  exact .after hsame (onFreeze_turned (h.of_same hd hp hpending hlive happlied) tripped)

theorem setSelectionLive_turned (h : Own t) (hw : Waits t) (live tripped : Bool) :
    Turned t (t.setSelectionLive live tripped) := by
  unfold TerminalService.setSelectionLive
  split
  · exact ⟨h, .refl t, hw⟩
  · refine onFreeze_after h ?_ ?_ ?_ ?_ ?_ ?_ tripped <;> rfl

theorem frozen_scroll (t : TerminalService) {offset : Int}
    (h : decide (t.scrollOffset ≤ 0) = decide (offset ≤ 0)) :
    { t with scrollOffset := offset }.frozen = t.frozen := by
  have hpos : decide (0 < offset) = decide (0 < t.scrollOffset) := by
    by_cases ho : offset ≤ 0
    · have ht : t.scrollOffset ≤ 0 := by simpa [ho] using h
      simp [Int.not_lt.mpr ho, Int.not_lt.mpr ht]
    · have ht : ¬t.scrollOffset ≤ 0 := by simpa [ho] using h
      simp [Int.not_le.mp ho, Int.not_le.mp ht]
  unfold TerminalService.frozen
  rw [hpos]

theorem setScrollOffset_turned (h : Own t) (hw : Waits t) (offset : Int) (tripped : Bool) :
    Turned t (t.setScrollOffset offset tripped) := by
  unfold TerminalService.setScrollOffset
  dsimp only
  split
  · refine onFreeze_after h ?_ ?_ ?_ ?_ ?_ ?_ tripped <;> rfl
  · split
    · rename_i heq
      refine ⟨h.of_same rfl rfl rfl rfl rfl, ⟨rfl, rfl, rfl, fun _ hf => hf⟩, ?_⟩
      intro hsome
      rw [frozen_scroll t heq]
      exact hw hsome
    · refine onFreeze_after h ?_ ?_ ?_ ?_ ?_ ?_ tripped <;> rfl

theorem requestScrollback_turned (h : Own t) (hw : Waits t) (tripped : Bool) :
    Turned t (t.requestScrollback tripped) := by
  unfold TerminalService.requestScrollback
  split
  · have hasked : Turned t ({ t with
        scrollEpoch := t.scrollEpoch + 1, readingScrollback := true }.onFreezeConditionChanged
          tripped) := by
      refine onFreeze_after h ?_ ?_ ?_ ?_ ?_ ?_ tripped <;> rfl
    exact ⟨hasked.own.of_same rfl rfl rfl rfl rfl,
      hasked.same.trans ⟨rfl, rfl, rfl, fun _ hf => hf⟩, hasked.waits⟩
  · exact ⟨h, .refl t, hw⟩

theorem showHistory_turned (h : Own t) (hw : Waits t) (text : Text) (proven : Bool) :
    Turned t (t.showHistory text proven) := by
  have hdrawn : (t.showHistory text proven).drawn = t.drawn ∨
      (t.showHistory text proven).drawn = .history text :: t.drawn := by
    unfold TerminalService.showHistory
    dsimp only
    split
    · exact .inl rfl
    · exact .inr rfl
  refine ⟨⟨?_, h.pending, h.live, h.applied⟩, ⟨rfl, rfl, rfl, ?_⟩, hw⟩
  · intro paneId g hg
    obtain heq | heq := hdrawn
    · rw [heq] at hg
      exact h.faithful paneId g hg
    · rw [heq] at hg
      cases List.mem_cons.mp hg with
      | inl hg => cases hg
      | inr hg => exact h.faithful paneId g hg
  · intro g hg
    refine hg.imp id ?_
    obtain heq | heq := hdrawn
    · rw [heq]
      exact id
    · rw [heq]
      exact id

theorem endFetch_turned (h : Own t) (hw : Waits t) (fetch : Fetch) (reply : Option Text)
    (proven tripped : Bool) : Turned t (t.endFetch fetch reply proven tripped) := by
  have hdone : Same t { t with scrollCompleter := none } := ⟨rfl, rfl, rfl, fun _ hf => hf⟩
  have hown : Own { t with scrollCompleter := none } := h.of_same rfl rfl rfl rfl rfl
  unfold TerminalService.endFetch
  dsimp only
  split
  · exact ⟨hown, hdone, hw⟩
  · cases reply with
    | none =>
      refine onFreeze_after h ?_ ?_ ?_ ?_ ?_ ?_ tripped <;> rfl
    | some text => exact .after hdone (showHistory_turned hown hw text proven)

theorem scrollTimeout_turned (h : Own t) (hw : Waits t) (tripped : Bool) :
    Turned t (t.scrollTimeout tripped) := by
  unfold TerminalService.scrollTimeout
  split
  · exact endFetch_turned h hw _ none false tripped
  · exact ⟨h, .refl t, hw⟩

theorem onScrollResponse_turned (h : Own t) (hw : Waits t) (paneId : PaneId) (text : Text)
    (proven tripped : Bool) : Turned t (t.onScrollResponse paneId text proven tripped) := by
  unfold TerminalService.onScrollResponse
  split
  · split
    · exact endFetch_turned h hw _ _ proven tripped
    · exact ⟨h, .refl t, hw⟩
  · exact ⟨h, .refl t, hw⟩

/-- The terminal without its reader feeds the same. -/
theorem plain_flushPendingFrame (t : TerminalService) (tripped : Bool) :
    (t.flushPendingFrame tripped).plain = t.plain.flushPendingFrame tripped := by
  have hfrozen : t.plain.frozen = t.frozen := rfl
  have hpending : t.plain.pendingFrame = t.pendingFrame := rfl
  unfold Terminal.TerminalService.flushPendingFrame
  obtain ⟨heq, hcase⟩ | ⟨frame, hf, hthawed, heq⟩ := flush_cases t tripped
  · rw [heq]
    dsimp only
    split
    · rfl
    · rename_i frame hf
      have hfrozen : t.plain.frozen = true := by
        refine hcase.resolve_left ?_
        intro hnone
        cases hnone.symm.trans hf
      rw [if_pos hfrozen]
      rfl
  · rw [heq]
    rw [hpending, hf]
    dsimp only
    rw [if_neg (by rw [hfrozen, hthawed]; exact Bool.false_ne_true)]
    rfl

theorem plain_onPaneFrame (t : TerminalService) (frame : PaneFrame) (tripped : Bool) :
    (t.onPaneFrame frame tripped).plain = t.plain.onPaneFrame frame tripped := by
  have hflush := plain_flushPendingFrame { t with pendingFrame := some frame } tripped
  have hpane : t.plain.paneId = t.paneId := rfl
  have holder : t.plain.older frame = t.older frame := rfl
  unfold TerminalService.onPaneFrame Terminal.TerminalService.onPaneFrame
  rw [hpane, holder]
  dsimp only
  split
  · rfl
  · split
    · rfl
    · have hwait : (t.plain.frozen || t.plain.coalesceTimer) =
          ({ t with pendingFrame := some frame }.frozen || t.coalesceTimer) := rfl
      have hslow : t.plain.slow = t.slow := rfl
      rw [hwait, hslow]
      split
      · rfl
      · split
        · rfl
        · exact hflush

/-- No history is asked for, read or shown. -/
structure Unread (t : TerminalService) : Prop where
  reading : t.readingScrollback = false
  showing : t.showingScrollback = false
  asking : t.scrollCompleter = none

theorem Unread.flush (h : Unread t) (tripped : Bool) : Unread (t.flushPendingFrame tripped) := by
  obtain ⟨heq, -⟩ | ⟨frame, -, -, heq⟩ := flush_cases t tripped
  · rw [heq]
    exact ⟨h.reading, h.showing, h.asking⟩
  · rw [heq]
    exact ⟨h.reading, h.showing, h.asking⟩

theorem Unread.onPaneFrame (h : Unread t) (frame : PaneFrame) (tripped : Bool) :
    Unread (t.onPaneFrame frame tripped) := by
  have hpending : Unread { t with pendingFrame := some frame } := ⟨h.reading, h.showing, h.asking⟩
  unfold TerminalService.onPaneFrame
  split
  · exact h
  · split
    · exact h
    · dsimp only
      split
      · exact hpending
      · split
        · exact ⟨h.reading, h.showing, h.asking⟩
        · exact hpending.flush tripped

theorem onFreeze_unread (h : Unread t) (tripped : Bool) :
    t.onFreezeConditionChanged tripped =
      if t.frozen then t else { t with coalesceTimer := false }.flushPendingFrame tripped := by
  have hstays : { t with coalesceTimer := false }.leaveHistory = { t with coalesceTimer := false } :=
    if_neg (by rw [h.showing]; exact Bool.false_ne_true)
  unfold TerminalService.onFreezeConditionChanged
  rw [hstays]

theorem Unread.onFreeze (h : Unread t) (tripped : Bool) :
    Unread (t.onFreezeConditionChanged tripped) := by
  have hstopped : Unread { t with coalesceTimer := false } := ⟨h.reading, h.showing, h.asking⟩
  rw [onFreeze_unread h]
  split
  · exact h
  · exact hstopped.flush tripped

theorem Unread.setSelectionLive (h : Unread t) (live tripped : Bool) :
    Unread (t.setSelectionLive live tripped) := by
  have hchanged : Unread { t with selectionLive := live } := ⟨h.reading, h.showing, h.asking⟩
  unfold TerminalService.setSelectionLive
  split
  · exact h
  · exact hchanged.onFreeze tripped

theorem Unread.setScrollOffset (h : Unread t) (offset : Int) (tripped : Bool) :
    Unread (t.setScrollOffset offset tripped) := by
  have hscrolled : Unread { t with scrollOffset := offset } := ⟨h.reading, h.showing, h.asking⟩
  unfold TerminalService.setScrollOffset
  dsimp only
  rw [if_neg (by rw [h.reading, Bool.and_false]; exact Bool.false_ne_true)]
  split
  · exact hscrolled
  · exact hscrolled.onFreeze tripped

/-- The freeze conditions of `t` change, and a grid that is not frozen in `t'` was frozen. -/
theorem plain_onFreeze (h : Unread t') (hplain : t'.plain = { t.plain with frozen := t'.frozen })
    (hthaws : t'.frozen = false → t.frozen = true) (tripped : Bool) :
    (t'.onFreezeConditionChanged tripped).plain = t.plain.setFrozen t'.frozen tripped := by
  rw [onFreeze_unread h]
  unfold Terminal.TerminalService.setFrozen
  cases hfrozen : t'.frozen with
  | true =>
    rw [hfrozen] at hplain
    exact hplain
  | false =>
    have hwas : t.plain.frozen = true := hthaws hfrozen
    rw [hfrozen] at hplain
    rw [if_neg Bool.false_ne_true, if_neg Bool.false_ne_true, if_pos hwas, plain_flushPendingFrame]
    exact congrArg (fun u => Terminal.TerminalService.flushPendingFrame
      { u with coalesceTimer := false } tripped) hplain

theorem setFrozen_self (u : Terminal.TerminalService) (tripped : Bool) :
    u.setFrozen u.frozen tripped = u := by
  unfold Terminal.TerminalService.setFrozen
  split
  · rename_i hfrozen
    rw [← hfrozen]
  · rfl

theorem plain_setSelectionLive (h : Unread t) (live tripped : Bool) :
    (t.setSelectionLive live tripped).plain =
      t.plain.setFrozen (live || decide (0 < t.scrollOffset)) tripped := by
  have hfrozen : { t with selectionLive := live }.frozen =
      (live || decide (0 < t.scrollOffset)) := by
    simp [TerminalService.frozen, h.reading]
  have hchanged : Unread { t with selectionLive := live } := ⟨h.reading, h.showing, h.asking⟩
  unfold TerminalService.setSelectionLive
  split
  · rename_i hsame
    subst hsame
    rw [← hfrozen]
    exact (setFrozen_self t.plain tripped).symm
  · rename_i hchanges
    rw [← hfrozen]
    refine plain_onFreeze hchanged rfl ?_ tripped
    intro hthawed
    rw [hfrozen, Bool.or_eq_false_iff] at hthawed
    have hlive : t.selectionLive = true := by
      rw [hthawed.1] at hchanges
      exact Bool.eq_true_of_not_eq_false hchanges
    simp [TerminalService.frozen, hlive]

theorem plain_setScrollOffset (h : Unread t) (offset : Int) (tripped : Bool) :
    (t.setScrollOffset offset tripped).plain =
      t.plain.setFrozen (t.selectionLive || decide (0 < offset)) tripped := by
  have hfrozen : { t with scrollOffset := offset }.frozen =
      (t.selectionLive || decide (0 < offset)) := by
    simp [TerminalService.frozen, h.reading]
  have hscrolled : Unread { t with scrollOffset := offset } := ⟨h.reading, h.showing, h.asking⟩
  unfold TerminalService.setScrollOffset
  dsimp only
  rw [if_neg (by rw [h.reading, Bool.and_false]; exact Bool.false_ne_true), ← hfrozen]
  split
  · rename_i hsame
    have hplain : { t with scrollOffset := offset }.plain = t.plain := by
      unfold TerminalService.plain
      rw [frozen_scroll t hsame]
    rw [hplain, frozen_scroll t hsame]
    exact (setFrozen_self t.plain tripped).symm
  · rename_i hchanges
    refine plain_onFreeze hscrolled rfl ?_ tripped
    intro hthawed
    rw [hfrozen, Bool.or_eq_false_iff, decide_eq_false_iff_not] at hthawed
    have hscroll : 0 < t.scrollOffset := by
      by_contra hlive
      exact hchanges (by simp [Int.not_lt.mp hlive, Int.not_lt.mp hthawed.2])
    simp [TerminalService.frozen, hscroll]

theorem onPaneFrame_other (hp : t.paneId ≠ some frame.paneId) :
    t.onPaneFrame frame tripped = t := by
  unfold TerminalService.onPaneFrame
  rw [if_pos hp]

theorem onPaneFrame_older (ho : t.older frame = true) : t.onPaneFrame frame tripped = t := by
  unfold TerminalService.onPaneFrame
  rw [ho, if_pos rfl]
  exact ite_self t

/-- A frame of the pane that is not older becomes the best one. -/
theorem onPaneFrame_newest (h : Own t) (tripped : Bool) (hp : t.paneId = some frame.paneId)
    (ho : t.older frame = false) :
    Own (t.onPaneFrame frame tripped) ∧ Waits (t.onPaneFrame frame tripped) ∧
      (t.onPaneFrame frame tripped).paneId = t.paneId ∧
      (t.onPaneFrame frame tripped).attachingPaneId = t.attachingPaneId ∧
      Best (t.onPaneFrame frame tripped) frame := by
  have hheld : Own { t with pendingFrame := some frame } := by
    refine ⟨h.faithful, ?_, h.live, h.applied⟩
    intro g hg
    cases hg
    exact hp
  have hbest : Best { t with pendingFrame := some frame } frame := ⟨rfl, .inl rfl⟩
  unfold TerminalService.onPaneFrame
  rw [if_neg (not_not.mpr hp), ho, if_neg Bool.false_ne_true]
  dsimp only
  split
  · rename_i hwait
    exact ⟨hheld, fun _ => Bool.or_eq_true_iff.mp hwait, rfl, rfl, hbest⟩
  · split
    · exact ⟨hheld.of_same rfl rfl rfl rfl rfl, fun _ => .inr rfl, rfl, rfl, hbest⟩
    · have hsame := flush_same { t with pendingFrame := some frame } tripped
      exact ⟨hheld.flush tripped, flush_waits _ tripped, hsame.paneId, hsame.attaching,
        hsame.bestFrame hbest⟩

theorem older_iff (t : TerminalService) (frame : PaneFrame) {best : Nat}
    (hb : t.currentBest = some best) : t.older frame = true ↔ frame.revision < best := by
  unfold TerminalService.older
  rw [hb, Option.any_some, decide_eq_true_eq]

end Service

/-- One of the frames received is the best: none that came later is as new, and none that
came earlier is newer. -/
def Newest (t : TerminalService) (received : List PaneFrame) : Prop :=
  (received = [] ∧ t.currentBest = none) ∨
    ∃ later frame earlier, received = later ++ frame :: earlier ∧
      (∀ g ∈ later, g.revision < frame.revision) ∧
      (∀ g ∈ earlier, g.revision ≤ frame.revision) ∧ Best t frame

structure Held (w : Watch) : Prop where
  own : Own w.service
  waits : Waits w.service
  attached : ∀ p, w.attached = some p →
    w.service.paneId = some p ∧ w.service.attachingPaneId = none ∧ Newest w.service w.received
  unattached : w.attached = none → w.received = []

theorem held_start : Held .start where
  own := ⟨nofun, nofun, nofun, rfl⟩
  waits := nofun
  attached := nofun
  unattached _ := rfl

section Step

variable {w v : Watch} {e : Event}

theorem Newest.same {t t' : TerminalService} {received : List PaneFrame}
    (h : Newest t received) (hsame : Same t t') : Newest t' received := by
  obtain ⟨hnil, hbest⟩ | ⟨later, frame, earlier, heq, hl, he, hb⟩ := h
  · exact .inl ⟨hnil, hsame.best.trans hbest⟩
  · exact .inr ⟨later, frame, earlier, heq, hl, he, hsame.bestFrame hb⟩

theorem Held.turned (h : Held w) {t : TerminalService} (ht : Turned w.service t) :
    Held { w with service := t } where
  own := ht.own
  waits := ht.waits
  attached p hp := by
    obtain ⟨hpane, hattaching, hnewest⟩ := h.attached p hp
    exact ⟨ht.same.paneId.trans hpane, ht.same.attaching.trans hattaching,
      hnewest.same ht.same⟩
  unattached := h.unattached

theorem reset_own {t : TerminalService} (h : Own t) (p : Option PaneId) :
    Own { t.reset with paneId := p } :=
  ⟨h.faithful, nofun, nofun, rfl⟩

/-- A frame of the attached pane comes in. -/
theorem Newest.receive {t : TerminalService} {received : List PaneFrame} {frame : PaneFrame}
    (h : Newest t received) (hown : Own t) (hp : t.paneId = some frame.paneId)
    (tripped : Bool) : Newest (t.onPaneFrame frame tripped) (frame :: received) := by
  cases ho : t.older frame with
  | true =>
    rw [onPaneFrame_older ho]
    obtain ⟨-, hbest⟩ | ⟨later, best, earlier, heq, hl, he, hb⟩ := h
    · unfold TerminalService.older at ho
      rw [hbest] at ho
      cases ho
    · refine .inr ⟨frame :: later, best, earlier, by rw [heq]; rfl, ?_, he, hb⟩
      intro g hg
      cases List.mem_cons.mp hg with
      | inl hg =>
        rw [hg]
        exact (older_iff t frame hb.1).mp ho
      | inr hg => exact hl g hg
  | false =>
    obtain ⟨-, -, -, -, hbest⟩ := onPaneFrame_newest hown tripped hp ho
    refine .inr ⟨[], frame, received, rfl, fun g hg => (List.not_mem_nil hg).elim, ?_, hbest⟩
    obtain ⟨hnil, -⟩ | ⟨later, best, earlier, heq, hl, he, hb⟩ := h
    · intro g hg
      rw [hnil] at hg
      cases hg
    · have hle : best.revision ≤ frame.revision := by
        apply Nat.le_of_not_lt
        intro hlt
        rw [(older_iff t frame hb.1).mpr hlt] at ho
        cases ho
      intro g hg
      rw [heq, List.mem_append, List.mem_cons] at hg
      obtain hg | rfl | hg := hg
      · exact Nat.le_of_lt (Nat.lt_of_lt_of_le (hl g hg) hle)
      · exact hle
      · exact Nat.le_trans (he g hg) hle

theorem Held.onPaneFrame (h : Held w) (frame : PaneFrame) (tripped : Bool) :
    Held (w.onPaneFrame frame tripped) := by
  by_cases hp : w.service.paneId = some frame.paneId
  · have hkept : Own (w.service.onPaneFrame frame tripped) ∧
        Waits (w.service.onPaneFrame frame tripped) ∧
        (w.service.onPaneFrame frame tripped).paneId = w.service.paneId ∧
        (w.service.onPaneFrame frame tripped).attachingPaneId = w.service.attachingPaneId := by
      cases ho : w.service.older frame with
      | true =>
        rw [onPaneFrame_older ho]
        exact ⟨h.own, h.waits, rfl, rfl⟩
      | false =>
        obtain ⟨hown, hwaits, hpane, hattaching, -⟩ := onPaneFrame_newest h.own tripped hp ho
        exact ⟨hown, hwaits, hpane, hattaching⟩
    obtain ⟨hown, hwaits, hpane, hattaching⟩ := hkept
    refine ⟨hown, hwaits, ?_, ?_⟩
    · intro p hattached
      obtain ⟨hshown, hnone, hnewest⟩ := h.attached p hattached
      refine ⟨hpane.trans hshown, hattaching.trans hnone, ?_⟩
      show Newest _ (if w.attached = some frame.paneId then _ else _)
      have hsame : w.attached = some frame.paneId :=
        Eq.trans hattached (hshown.symm.trans hp)
      rw [if_pos hsame]
      exact hnewest.receive h.own hp tripped
    · intro hnone
      have hnone : w.attached = none := hnone
      show (if w.attached = some frame.paneId then _ else _) = _
      rw [hnone]
      exact h.unattached hnone
  · have hattached : w.attached ≠ some frame.paneId :=
      fun heq => hp (h.attached _ heq).1
    have hsame : w.onPaneFrame frame tripped = w := by
      unfold Watch.onPaneFrame
      rw [onPaneFrame_other hp, if_neg hattached]
    rw [hsame]
    exact h

/-- The service has nothing of a pane that was shown before. -/
theorem Own.unpainted {t : TerminalService} (h : Own t) (hb : t.currentBest = none) :
    t.pendingFrame = none ∧ t.lastLiveFrame = none := by
  unfold TerminalService.currentBest at hb
  rw [h.applied] at hb
  obtain ⟨hp, hl⟩ := Option.or_eq_none_iff.mp hb
  exact ⟨Option.map_eq_none_iff.mp hp, Option.map_eq_none_iff.mp hl⟩

theorem Held.onWatchAck (h : Held w) (ack : WatchAck) (hclean : Clean w (.watchAck ack)) :
    Held (w.onWatchAck ack) := by
  unfold Watch.onWatchAck TerminalService.onWatchAck
  split
  · rename_i hattaching
    obtain ⟨hpending, hlive⟩ := h.own.unpainted (hclean hattaching)
    refine ⟨⟨?_, ?_, ?_, h.own.applied⟩, ?_, ?_, nofun⟩
    · intro paneId g hg
      cases List.mem_cons.mp hg with
      | inl hg => cases hg
      | inr hg => exact h.own.faithful paneId g hg
    · intro g hg
      cases hpending.symm.trans hg
    · intro g hg
      cases hlive.symm.trans hg
    · intro hsome
      have hsome : w.service.pendingFrame.isSome = true := hsome
      rw [hpending] at hsome
      cases hsome
    · intro p hp
      exact ⟨hp, rfl, .inl ⟨rfl, hclean hattaching⟩⟩
  · exact h

theorem held_step (h : Held w) (hclean : Clean w e) (hs : w.step e = some v) : Held v := by
  cases e with
  | attach paneId =>
    cases hs
    exact ⟨(reset_own h.own w.service.paneId).of_same rfl rfl rfl rfl rfl,
      nofun, nofun, fun _ => rfl⟩
  | detach =>
    cases hs
    exact ⟨reset_own h.own none, nofun, nofun, fun _ => rfl⟩
  | attachTimeout =>
    cases hs
    refine ⟨h.own.of_same rfl rfl rfl rfl rfl, h.waits, ?_, h.unattached⟩
    intro p hp
    obtain ⟨hpane, -, hnewest⟩ := h.attached p hp
    exact ⟨hpane, rfl, hnewest⟩
  | watchAck ack =>
    cases hs
    exact h.onWatchAck ack hclean
  | paneFrame frame tripped =>
    cases hs
    exact h.onPaneFrame frame tripped
  | setSelectionLive live tripped =>
    cases hs
    exact h.turned (setSelectionLive_turned h.own h.waits live tripped)
  | setScrollOffset offset tripped =>
    cases hs
    exact h.turned (setScrollOffset_turned h.own h.waits offset tripped)
  | requestScrollback tripped =>
    cases hs
    exact h.turned (requestScrollback_turned h.own h.waits tripped)
  | scrollResponse paneId text proven tripped =>
    cases hs
    exact h.turned (onScrollResponse_turned h.own h.waits paneId text proven tripped)
  | scrollTimeout tripped =>
    cases hs
    exact h.turned (scrollTimeout_turned h.own h.waits tripped)
  | error answersReply tripped =>
    cases hs
    unfold TerminalService.onError
    split
    · exact h
    · have hfailed : Held { w with service := w.service.attachFailed } := by
        refine ⟨h.own.of_same rfl rfl rfl rfl rfl, h.waits, ?_, h.unattached⟩
        intro p hp
        obtain ⟨hpane, -, hnewest⟩ := h.attached p hp
        exact ⟨hpane, rfl, hnewest⟩
      exact hfailed.turned (scrollTimeout_turned hfailed.own hfailed.waits tripped)
  | timer tripped =>
    simp only [Watch.step] at hs
    split at hs
    · cases hs
      exact h.turned ⟨h.own.flush tripped, flush_same _ tripped, flush_waits _ tripped⟩
    · cases hs
  | disconnect =>
    cases hs
    exact h

/-- Of the frames received one is the best, and the others are older than it. -/
theorem Held.kept (h : Held w) : Kept w := by
  intro later frame earlier heq
  cases hattached : w.attached with
  | none =>
    rw [h.unattached hattached] at heq
    cases later <;> cases heq
  | some p =>
    obtain ⟨-, -, hnewest⟩ := h.attached p hattached
    obtain ⟨hnil, -⟩ | ⟨later', best, earlier', heq', hl, he, -, hhad⟩ := hnewest
    · rw [hnil] at heq
      cases later <;> cases heq
    · rw [heq'] at heq
      obtain ⟨mid, hlater, hrest⟩ | ⟨mid, hlater, hrest⟩ := List.append_eq_append_iff.mp heq
      · -- the frame came before the best one, or is the best one
        cases mid with
        | nil =>
          cases hrest
          exact hhad.symm.imp id .inl
        | cons first mid =>
          have hrest : best :: earlier' = first :: (mid ++ frame :: earlier) := hrest
          obtain ⟨rfl, hearlier⟩ := List.cons.inj hrest
          have hmem : frame ∈ earlier' := by
            rw [hearlier]
            simp
          refine .inr (.inr (.inl ⟨best, ?_, he frame hmem⟩))
          rw [hlater]
          simp
      · cases mid with
        | nil =>
          cases hrest
          exact hhad.symm.imp id .inl
        | cons first mid =>
          have hrest : frame :: earlier = first :: (mid ++ best :: earlier') := hrest
          obtain ⟨rfl, hearlier⟩ := List.cons.inj hrest
          refine .inr (.inr (.inr ⟨best, ?_, hl frame ?_⟩))
          · rw [hearlier]
            simp
          · rw [hlater]
            simp

theorem Held.law (h : Held w) : Law w := ⟨h.own.faithful, h.kept, h.waits⟩

/-- A revision that is left over from before the `watch_ack` drops a lower one after it. -/
theorem leftover_drops {ack : WatchAck} {best : Nat}
    (hattaching : w.service.attachingPaneId = some ack.paneId)
    (hbest : w.service.currentBest = some best) (hpos : 0 < best) :
    ∃ frame v, (w.onWatchAck ack).step (.paneFrame frame false) = some v ∧ ¬Law v := by
  let frame : PaneFrame :=
    { paneId := ack.paneId, revision := 0, viewportRows := 0, width := 0, text := [] }
  refine ⟨frame, _, rfl, ?_⟩
  have hacked : w.onWatchAck ack =
      { service := w.service.applyWatchAck ack, attached := some ack.paneId, received := [] } := by
    unfold Watch.onWatchAck TerminalService.onWatchAck
    rw [if_pos hattaching, if_pos hattaching]
  have holder : (w.service.applyWatchAck ack).older frame = true :=
    (older_iff (w.service.applyWatchAck ack) frame hbest).mpr hpos
  have hdropped : (w.onWatchAck ack).onPaneFrame frame false =
      { service := w.service.applyWatchAck ack, attached := some ack.paneId,
        received := [frame] } := by
    rw [hacked]
    unfold Watch.onPaneFrame
    rw [onPaneFrame_older holder, if_pos rfl]
  rw [hdropped]
  intro hlaw
  obtain hfed | hheld | ⟨g, hg, -⟩ | ⟨g, hg, -⟩ := hlaw.kept [] frame [] rfl
  · cases hfed
  · have hheld : w.service.pendingFrame = some frame := hheld
    unfold TerminalService.currentBest at hbest
    rw [hheld] at hbest
    have hzero : 0 = best := Option.some.inj hbest
    omega
  · cases hg
  · cases hg

/-- What an event does to the terminal of a Device that reads no history. -/
def unreadStep (w : Watch) (u : Terminal.TerminalService) : Event → Terminal.TerminalService
  | .attach paneId => u.attach paneId
  | .detach => u.detach
  | .attachTimeout => u.attachFailed
  | .watchAck ack => u.onWatchAck ack
  | .paneFrame frame tripped => u.onPaneFrame frame tripped
  | .setSelectionLive live tripped =>
    u.setFrozen (live || decide (0 < w.service.scrollOffset)) tripped
  | .setScrollOffset offset tripped =>
    u.setFrozen (w.service.selectionLive || decide (0 < offset)) tripped
  | .error false _ => u.attachFailed
  | .timer tripped => u.flushPendingFrame tripped
  | _ => u

theorem plain_step (h : Unread w.service) (hs : w.step e = some v)
    (hasks : ∀ tripped, e ≠ .requestScrollback tripped) :
    Unread v.service ∧ v.service.plain = unreadStep w w.service.plain e := by
  cases e with
  | attach paneId =>
    cases hs
    exact ⟨⟨rfl, rfl, rfl⟩, rfl⟩
  | detach =>
    cases hs
    exact ⟨⟨rfl, rfl, rfl⟩, rfl⟩
  | attachTimeout =>
    cases hs
    exact ⟨⟨h.reading, h.showing, h.asking⟩, rfl⟩
  | watchAck ack =>
    cases hs
    have hplain := TerminalService.plain_onWatchAck w.service ack
    unfold Watch.onWatchAck
    split
    · rename_i hattaching
      refine ⟨?_, hplain⟩
      rw [TerminalService.onWatchAck, if_pos hattaching]
      exact ⟨h.reading, h.showing, h.asking⟩
    · rename_i hattaching
      rw [TerminalService.onWatchAck, if_neg hattaching] at hplain
      exact ⟨h, hplain⟩
  | paneFrame frame tripped =>
    cases hs
    exact ⟨h.onPaneFrame frame tripped, plain_onPaneFrame _ frame tripped⟩
  | setSelectionLive live tripped =>
    cases hs
    exact ⟨h.setSelectionLive live tripped, plain_setSelectionLive h live tripped⟩
  | setScrollOffset offset tripped =>
    cases hs
    exact ⟨h.setScrollOffset offset tripped, plain_setScrollOffset h offset tripped⟩
  | requestScrollback tripped => exact absurd rfl (hasks tripped)
  | scrollResponse paneId text proven tripped =>
    cases hs
    have hstays : w.service.onScrollResponse paneId text proven tripped = w.service := by
      rw [TerminalService.onScrollResponse, h.asking]
    rw [hstays]
    exact ⟨h, rfl⟩
  | scrollTimeout tripped =>
    cases hs
    have hstays : w.service.scrollTimeout tripped = w.service := by
      rw [TerminalService.scrollTimeout, h.asking]
    rw [hstays]
    exact ⟨h, rfl⟩
  | error answersReply tripped =>
    cases hs
    cases answersReply with
    | true => exact ⟨h, rfl⟩
    | false =>
      have hfails : w.service.onError false tripped = w.service.attachFailed := by
        have hasking : w.service.attachFailed.scrollCompleter = none := h.asking
        rw [TerminalService.onError, if_neg Bool.false_ne_true, TerminalService.scrollTimeout,
          hasking]
      rw [hfails]
      exact ⟨⟨h.reading, h.showing, h.asking⟩, rfl⟩
  | timer tripped =>
    simp only [Watch.step] at hs
    split at hs
    · cases hs
      exact ⟨h.flush tripped, plain_flushPendingFrame _ tripped⟩
    · cases hs
  | disconnect =>
    cases hs
    exact ⟨h, rfl⟩

/-- Both terminals on the same events. -/
def unreadAlong (p : Watch × Terminal.TerminalService) (e : Event) :
    Option (Watch × Terminal.TerminalService) :=
  (p.1.step e).map fun v => (v, unreadStep p.1 p.2 e)

/-- Until history is asked for, this terminal is the one without its reader. -/
theorem plain_run {es : List Event} (hasks : ∀ tripped, .requestScrollback tripped ∉ es)
    {p : Watch × Terminal.TerminalService}
    (hr : run unreadAlong (.start, .start) es = some p) : p.1.service.plain = p.2 := by
  have hkept : Unread p.1.service ∧ p.1.service.plain = p.2 := by
    refine visits_invariant (fun p => Unread p.1.service ∧ p.1.service.plain = p.2)
      ⟨⟨rfl, rfl, rfl⟩, rfl⟩ ?_ (visits_end hr)
    rintro p e q ⟨hunread, hplain⟩ ⟨pre, post, hes, -, hstep⟩
    obtain ⟨v, hs, rfl⟩ := Option.map_eq_some_iff.mp hstep
    rw [← hplain]
    refine plain_step hunread hs ?_
    rintro tripped rfl
    exact hasks tripped (hes ▸ List.mem_append_right _ List.mem_cons_self)
  exact hkept.2

end Step

theorem held_visits {es : List Event} {v : Watch}
    (hclean : ∀ a e b, Occurs Watch.step .start es a e b → Clean a e)
    (hv : Visits Watch.step .start es v) : Held v :=
  visits_invariant Held held_start
    (fun h hocc => held_step h (hclean _ _ _ hocc) hocc.step_eq) hv

/-- The law holds in every state of a run in which every attach ends clean. Where an attach
ends with a revision left over, one more frame breaks it. -/
theorem switch_keeps (es : List Event) :
    ((∀ a e b, Occurs Watch.step .start es a e b → Clean a e) →
      ∀ v, Visits Watch.step .start es v → Law v) ∧
    ∀ a ack b best, Occurs Watch.step .start es a (.watchAck ack) b →
      a.service.attachingPaneId = some ack.paneId → a.service.currentBest = some best →
      0 < best → ∃ frame v, b.step (.paneFrame frame false) = some v ∧ ¬Law v := by
  refine ⟨fun hclean v hv => (held_visits hclean hv).law, ?_⟩
  intro a ack b best hocc hattaching hbest hpos
  cases hocc.step_eq
  exact leftover_drops hattaching hbest hpos

def ackOf (paneId : PaneId) (revision : Nat) : WatchAck where
  paneId := paneId
  line := []
  revision := revision
  viewportRows := 24
  width := 80
  scroll := { offsetFromBottom := 0, maxOffsetFromBottom := 0 }

def frameOf (paneId : PaneId) (revision : Nat) (text : Text) : PaneFrame where
  paneId := paneId
  revision := revision
  viewportRows := 24
  width := 80
  text := text

/-- One pane and then another, with nothing in between. -/
def cleanSwitch : List Event :=
  [ .attach "p".toList, .watchAck (ackOf "p".toList 9),
    .paneFrame (frameOf "p".toList 9 "left".toList) false,
    .attach "q".toList, .watchAck (ackOf "q".toList 2),
    .paneFrame (frameOf "q".toList 2 "right".toList) false ]

theorem switch_keeps_small : ∀ v, Visits Watch.step .start cleanSwitch v → Law v := by
  apply (switch_keeps cleanSwitch).1
  intro a e b hocc
  have hevery : everyStep Watch.step (fun w e => match e with
      | .watchAck _ => w.service.currentBest.isNone
      | _ => true) .start cleanSwitch = true := by decide
  have hgood := occurs_good hevery hocc
  cases e with
  | watchAck ack => exact fun _ => Option.isNone_iff_eq_none.mp hgood
  | _ => trivial

/-- A frame of the first pane comes in after the second attach began. -/
def lateFrame : List Event :=
  [ .attach "p".toList, .watchAck (ackOf "p".toList 9), .attach "q".toList,
    .paneFrame (frameOf "p".toList 9 "left".toList) false, .watchAck (ackOf "q".toList 2),
    .paneFrame (frameOf "q".toList 2 "right".toList) false ]

/-- The first frame right behind the second `watch_ack` is dropped. -/
theorem late_frame_drops :
    ¬∀ es v, run Watch.step .start es = some v → Law v := by
  intro hall
  have hlast : (run Watch.step .start lateFrame).any (fun v =>
      decide (v.received = [frameOf "q".toList 2 "right".toList] ∧
        v.service.pendingFrame = none ∧
        frameOf "q".toList 2 "right".toList ∉ fed v.service.drawn)) = true := by decide
  obtain ⟨v, hv, hp⟩ := (Option.any_eq_true _ _).mp hlast
  obtain ⟨hreceived, hpending, hfed⟩ := of_decide_eq_true hp
  obtain h | h | ⟨g, hg, -⟩ | ⟨g, hg, -⟩ := (hall lateFrame v hv).kept [] _ [] hreceived
  · exact hfed h
  · cases hpending.symm.trans h
  · cases hg
  · cases hg

end HerdrMobile.App.Switch
