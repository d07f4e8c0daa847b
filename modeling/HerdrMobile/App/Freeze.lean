import HerdrMobile.App.Switch

/-!
# The freeze

A selection, a scroll and a look at the history each keep live frames from the grid, in any order
and any overlap. The newest frame is held meanwhile, and is on the grid when the last of them ends.
-/
namespace HerdrMobile.App.Freeze

open HerdrMobile.Lib.Run HerdrMobile.Proto.Messages HerdrMobile.Host.Watch HerdrMobile.App
open HerdrMobile.App.Panes HerdrMobile.App.Switch

set_option autoImplicit false

/-- `shown` are the frames that came in for the pane that the state names, newest first: since it
is named, or since an attach or a detach. -/
structure Reader where
  watch : Watch
  shown : List PaneFrame
deriving DecidableEq

namespace Reader

def start : Reader := ⟨.start, []⟩

abbrev service (r : Reader) : TerminalService := r.watch.service

def shownAfter (r : Reader) : Event → List PaneFrame
  | .attach _ | .detach => []
  | .watchAck ack =>
    if r.service.attachingPaneId = some ack.paneId ∧ r.service.paneId ≠ some ack.paneId then []
    else r.shown
  | .paneFrame frame _ =>
    if r.service.paneId = some frame.paneId then frame :: r.shown else r.shown
  | _ => r.shown

def step (r : Reader) (e : Event) : Option Reader :=
  (r.watch.step e).map fun watch => ⟨watch, r.shownAfter e⟩

end Reader

/-- A later frame is newer, unless its revision is lower. -/
def newest : List PaneFrame → Option PaneFrame
  | [] => none
  | frame :: earlier =>
    match newest earlier with
    | none => some frame
    | some best => if frame.revision < best.revision then some best else some frame

/-- What a step of the service may do. -/
structure Lawful (t t' : TerminalService) (best : Option PaneFrame) : Prop where
  quiet : ∀ new paneId frame, t'.drawn = new ++ t.drawn → .frame paneId frame ∈ new →
    t'.frozen = false
  restored : t.frozen = true → t'.frozen = false → ∀ frame, best = some frame →
    gridOf t'.drawn = some frame.text

structure Law (es : List Event) : Prop where
  held : ∀ r, Visits Reader.step .start es r → ∀ frame, r.service.pendingFrame = some frame →
    newest r.shown = some frame
  lawful : ∀ r e s, Occurs Reader.step .start es r e s →
    Lawful r.service s.service (newest s.shown)

/-- At the `watch_ack` that names another pane, no frame of the pane that was named has come in
since the attach began. -/
def Clean (r : Reader) : Event → Prop
  | .watchAck ack =>
    r.service.attachingPaneId = some ack.paneId → r.service.paneId ≠ some ack.paneId → r.shown = []
  | _ => True

instance : ∀ (r : Reader) (e : Event), Decidable (Clean r e)
  | r, .watchAck ack =>
    inferInstanceAs (Decidable (r.service.attachingPaneId = some ack.paneId →
      r.service.paneId ≠ some ack.paneId → r.shown = []))
  | _, .attach _ => .isTrue trivial
  | _, .detach => .isTrue trivial
  | _, .attachTimeout => .isTrue trivial
  | _, .paneFrame _ _ => .isTrue trivial
  | _, .setSelectionLive _ _ => .isTrue trivial
  | _, .setScrollOffset _ _ => .isTrue trivial
  | _, .requestScrollback _ => .isTrue trivial
  | _, .scrollResponse _ _ _ _ => .isTrue trivial
  | _, .scrollTimeout _ => .isTrue trivial
  | _, .error _ _ => .isTrue trivial
  | _, .timer _ => .isTrue trivial
  | _, .disconnect => .isTrue trivial

/-- The frame that is held, or else the last one that was fed. -/
def latest (t : TerminalService) : Option PaneFrame := t.pendingFrame.or t.lastLiveFrame

/-- The grid has the last frame that was fed, unless it has the history. -/
structure Good (t : TerminalService) : Prop where
  applied : t.lastAppliedRevision = t.lastLiveFrame.map PaneFrame.revision
  grid : ∀ frame, t.lastLiveFrame = some frame →
    gridOf t.drawn = some frame.text ∨ t.showingScrollback = true

/-- What an operation does that takes no frame in. -/
structure Turn (t t' : TerminalService) : Prop where
  good : Good t'
  latest : latest t' = latest t
  lawful : Lawful t t' (Freeze.latest t')

section Service

variable {t t' t'' : TerminalService} {frame : PaneFrame} {tripped : Bool}

theorem currentBest_eq (h : Good t) : t.currentBest = (latest t).map PaneFrame.revision := by
  unfold TerminalService.currentBest latest
  rw [h.applied]
  cases t.pendingFrame <;> rfl

/-- Nothing is drawn and the freeze is as it was. -/
theorem lawful_same {best : Option PaneFrame} (hdrawn : t'.drawn = t.drawn)
    (hfrozen : t'.frozen = t.frozen) : Lawful t t' best where
  quiet new paneId frame hnew hmem := by
    rw [hdrawn] at hnew
    rw [List.self_eq_append_left.mp hnew] at hmem
    cases hmem
  restored hbefore hafter := by
    rw [hfrozen, hbefore] at hafter
    cases hafter

theorem Good.of_same (h : Good t) (hlive : t'.lastLiveFrame = t.lastLiveFrame)
    (happlied : t'.lastAppliedRevision = t.lastAppliedRevision) (hdrawn : t'.drawn = t.drawn)
    (hshowing : t'.showingScrollback = t.showingScrollback) : Good t' where
  applied := by rw [happlied, hlive, h.applied]
  grid frame hframe := by
    rw [hdrawn, hshowing]
    exact h.grid frame (hlive ▸ hframe)

theorem Turn.refl (h : Good t) : Turn t t := ⟨h, rfl, lawful_same rfl rfl⟩

/-- A feed. -/
theorem flush_turn (h : Good t) (tripped : Bool) : Turn t (t.flushPendingFrame tripped) := by
  obtain ⟨heq, -⟩ | ⟨frame, hf, hfrozen, heq⟩ := flush_cases t tripped
  · rw [heq]
    exact ⟨h.of_same rfl rfl rfl rfl, rfl, lawful_same rfl rfl⟩
  · rw [heq]
    refine ⟨⟨rfl, ?_⟩, ?_, ⟨fun _ _ _ _ _ => hfrozen, fun hbefore => ?_⟩⟩
    · intro g hg
      cases hg
      exact .inl rfl
    · simp [latest, hf]
    · rw [hfrozen] at hbefore
      cases hbefore

/-- The end of `onFreezeConditionChanged` where nothing is frozen. -/
def thaw (t : TerminalService) (tripped : Bool) : TerminalService :=
  { t with coalesceTimer := false }.leaveHistory.flushPendingFrame tripped

/-- The end of a freeze: with the history on the grid the last frame is held again, and whatever
is held is fed. -/
theorem thaw_cases (t : TerminalService) (hfrozen : t.frozen = false) (tripped : Bool) :
    (∃ frame slow, latest t = some frame ∧ thaw t tripped =
      { t with
        coalesceTimer := false
        showingScrollback := false
        pendingFrame := none
        lastAppliedRevision := some frame.revision
        lastLiveFrame := some frame
        drawn := .frame t.paneId frame :: t.drawn
        slow := slow }) ∨
    (t.pendingFrame = none ∧ (t.showingScrollback = true → t.lastLiveFrame = none) ∧
      thaw t tripped =
        { t with coalesceTimer := false, showingScrollback := false }) := by
  have hflush {u : TerminalService} (hleave : { t with coalesceTimer := false }.leaveHistory = u) :
      thaw t tripped = u.flushPendingFrame tripped :=
    congrArg (fun u => u.flushPendingFrame tripped) hleave
  obtain hshowing | hshowing := Bool.eq_false_or_eq_true t.showingScrollback
  · have hleave : { t with coalesceTimer := false }.leaveHistory =
        { t with coalesceTimer := false, showingScrollback := false, pendingFrame := latest t } :=
      if_pos hshowing
    obtain hlatest | ⟨frame, hlatest⟩ := Option.eq_none_or_eq_some (latest t)
    · obtain ⟨hpending, hlive⟩ := Option.or_eq_none_iff.mp hlatest
      refine .inr ⟨hpending, fun _ => hlive, ?_⟩
      have hsame : { t with
            coalesceTimer := false, showingScrollback := false, pendingFrame := latest t } =
          { t with coalesceTimer := false, showingScrollback := false } := by
        rw [hlatest, hpending]
      exact (hflush hleave).trans ((flush_none hlatest).trans hsame)
    · exact .inl ⟨frame, t.slow || tripped, hlatest,
        (hflush hleave).trans (flush_held hlatest hfrozen)⟩
  · have hleave : { t with coalesceTimer := false }.leaveHistory =
        { t with coalesceTimer := false, showingScrollback := false } := by
      unfold TerminalService.leaveHistory
      simp only [hshowing, Bool.false_eq_true, if_false]
    obtain hpending | ⟨frame, hpending⟩ := Option.eq_none_or_eq_some t.pendingFrame
    · refine .inr ⟨hpending, fun h => ?_, (hflush hleave).trans (flush_none hpending)⟩
      rw [hshowing] at h
      cases h
    · refine .inl ⟨frame, t.slow || tripped, ?_,
        (hflush hleave).trans (flush_held hpending hfrozen)⟩
      rw [latest, hpending, Option.some_or]

/-- The newest frame is on the grid when the freeze ends. -/
theorem thaw_turn (h : Good t) (hfrozen : t.frozen = false) (tripped : Bool) :
    Good (thaw t tripped) ∧ latest (thaw t tripped) = latest t ∧
      (thaw t tripped).frozen = false ∧
      ∀ frame, latest t = some frame → gridOf (thaw t tripped).drawn = some frame.text := by
  obtain ⟨frame, slow, hlatest, heq⟩ | ⟨hpending, hlive, heq⟩ := thaw_cases t hfrozen tripped
  · rw [heq]
    refine ⟨⟨rfl, ?_⟩, hlatest.symm, hfrozen, ?_⟩
    · intro g hg
      cases hg
      exact .inl rfl
    · intro g hg
      cases hlatest.symm.trans hg
      rfl
  · rw [heq]
    have hgrid : ∀ frame, t.lastLiveFrame = some frame → gridOf t.drawn = some frame.text := by
      intro frame hframe
      refine (h.grid frame hframe).resolve_right fun hshowing => ?_
      cases (hlive hshowing).symm.trans hframe
    refine ⟨⟨h.applied, fun frame hframe => .inl (hgrid frame hframe)⟩, rfl, hfrozen, ?_⟩
    intro frame hframe
    rw [latest, hpending, Option.none_or] at hframe
    exact hgrid frame hframe

/-- A freeze condition has changed. -/
theorem onFreeze_turn (h : Good t) (hlive : t'.lastLiveFrame = t.lastLiveFrame)
    (happlied : t'.lastAppliedRevision = t.lastAppliedRevision) (hdrawn : t'.drawn = t.drawn)
    (hshowing : t'.showingScrollback = t.showingScrollback)
    (hpending : t'.pendingFrame = t.pendingFrame) (tripped : Bool) :
    Turn t (t'.onFreezeConditionChanged tripped) := by
  have hgood : Good t' := h.of_same hlive happlied hdrawn hshowing
  have hlatest : latest t' = latest t := by rw [latest, hpending, hlive, latest]
  unfold TerminalService.onFreezeConditionChanged
  cases hfrozen : t'.frozen with
  | true =>
    rw [if_pos rfl]
    refine ⟨hgood, hlatest, ⟨fun new paneId frame hnew hmem => ?_, fun _ hthawed => ?_⟩⟩
    · rw [hdrawn] at hnew
      rw [List.self_eq_append_left.mp hnew] at hmem
      cases hmem
    · rw [hfrozen] at hthawed
      cases hthawed
  | false =>
    rw [if_neg Bool.false_ne_true]
    obtain ⟨hgood', hlatest', hthawed, hshows⟩ := thaw_turn hgood hfrozen tripped
    refine ⟨hgood', hlatest'.trans hlatest, ⟨fun _ _ _ _ _ => hthawed, fun _ _ frame hframe => ?_⟩⟩
    exact hshows frame (hlatest' ▸ hframe)

theorem setSelectionLive_turn (h : Good t) (live tripped : Bool) :
    Turn t (t.setSelectionLive live tripped) := by
  unfold TerminalService.setSelectionLive
  split
  · exact .refl h
  · refine onFreeze_turn h ?_ ?_ ?_ ?_ ?_ tripped <;> rfl

theorem setScrollOffset_turn (h : Good t) (offset : Int) (tripped : Bool) :
    Turn t (t.setScrollOffset offset tripped) := by
  unfold TerminalService.setScrollOffset
  dsimp only
  split
  · refine onFreeze_turn h ?_ ?_ ?_ ?_ ?_ tripped <;> rfl
  · split
    · rename_i heq
      exact ⟨h.of_same rfl rfl rfl rfl, rfl, lawful_same rfl (frozen_scroll t heq)⟩
    · refine onFreeze_turn h ?_ ?_ ?_ ?_ ?_ tripped <;> rfl

theorem requestScrollback_turn (h : Good t) (tripped : Bool) :
    Turn t (t.requestScrollback tripped) := by
  unfold TerminalService.requestScrollback
  split
  · have hasked : Turn t ({ t with
        scrollEpoch := t.scrollEpoch + 1
        readingScrollback := true }.onFreezeConditionChanged tripped) := by
      refine onFreeze_turn h ?_ ?_ ?_ ?_ ?_ tripped <;> rfl
    obtain ⟨hgood, hlatest, hlawful⟩ := hasked
    exact ⟨hgood.of_same rfl rfl rfl rfl, hlatest, ⟨hlawful.quiet, hlawful.restored⟩⟩
  · exact .refl h

theorem endFetch_turn (h : Good t) (fetch : Fetch) (reply : Option Text) (proven tripped : Bool) :
    Turn t (t.endFetch fetch reply proven tripped) := by
  unfold TerminalService.endFetch
  dsimp only
  split
  · exact ⟨h.of_same rfl rfl rfl rfl, rfl, lawful_same rfl rfl⟩
  · cases reply with
    | none => refine onFreeze_turn h ?_ ?_ ?_ ?_ ?_ tripped <;> rfl
    | some text =>
      -- The rows of the history are no live frame, and the freeze goes on.
      refine ⟨⟨h.applied, fun _ _ => .inr rfl⟩, rfl, ⟨fun new paneId frame hnew hmem => ?_, ?_⟩⟩
      · simp only [TerminalService.showHistory] at hnew
        split at hnew
        · rw [List.self_eq_append_left.mp hnew] at hmem
          cases hmem
        · have hsame : new = [.history text] := by
            have hcons : [Drawn.history text] ++ t.drawn = new ++ t.drawn := hnew
            exact (List.append_cancel_right hcons).symm
          rw [hsame] at hmem
          cases List.mem_singleton.mp hmem
      · intro hbefore hafter
        have hsame : t.frozen = false := hafter
        rw [hsame] at hbefore
        cases hbefore

theorem scrollTimeout_turn (h : Good t) (tripped : Bool) : Turn t (t.scrollTimeout tripped) := by
  unfold TerminalService.scrollTimeout
  split
  · exact endFetch_turn h _ none false tripped
  · exact .refl h

theorem onScrollResponse_turn (h : Good t) (paneId : PaneId) (text : Text)
    (proven tripped : Bool) : Turn t (t.onScrollResponse paneId text proven tripped) := by
  unfold TerminalService.onScrollResponse
  split
  · split
    · exact endFetch_turn h _ _ proven tripped
    · exact .refl h
  · exact .refl h

theorem newest_cons (frame : PaneFrame) (earlier : List PaneFrame) (h : Good t)
    (hlatest : latest t = newest earlier) : newest (frame :: earlier) =
      if t.older frame then newest earlier else some frame := by
  rw [newest, TerminalService.older, currentBest_eq h, hlatest]
  cases newest earlier with
  | none => rfl
  | some best =>
    dsimp only
    by_cases hlt : frame.revision < best.revision
    · simp [hlt]
    · simp [hlt]

theorem accept_turn (h : Good t) (tripped : Bool) (hp : t.paneId = some frame.paneId)
    (ho : t.older frame = false) : Good (t.onPaneFrame frame tripped) ∧
      latest (t.onPaneFrame frame tripped) = some frame ∧
      Lawful t (t.onPaneFrame frame tripped) (latest (t.onPaneFrame frame tripped)) := by
  have hheld : Good { t with pendingFrame := some frame } := h.of_same rfl rfl rfl rfl
  unfold TerminalService.onPaneFrame
  rw [if_neg (not_not.mpr hp), ho, if_neg Bool.false_ne_true]
  dsimp only
  split
  · exact ⟨hheld, rfl, lawful_same rfl rfl⟩
  · split
    · exact ⟨hheld.of_same rfl rfl rfl rfl, rfl, lawful_same rfl rfl⟩
    · obtain ⟨hgood, hlatest, hlawful⟩ := flush_turn hheld tripped
      exact ⟨hgood, hlatest, ⟨hlawful.quiet, hlawful.restored⟩⟩

end Service

structure Inv (r : Reader) : Prop where
  good : Good r.service
  newest : latest r.service = newest r.shown

theorem Inv.held {r : Reader} (h : Inv r) {frame : PaneFrame}
    (hf : r.service.pendingFrame = some frame) : Freeze.newest r.shown = some frame := by
  rw [← h.newest, latest, hf, Option.some_or]

theorem inv_start : Inv .start where
  good := ⟨rfl, fun _ h => by cases h⟩
  newest := rfl

section Step

variable {r s : Reader} {e : Event} {t : TerminalService}

/-- An operation that takes no frame in. -/
theorem Inv.turn (h : Inv r) (ht : Turn r.service t) :
    Inv ⟨{ r.watch with service := t }, r.shown⟩ ∧ Lawful r.service t (latest t) :=
  ⟨⟨ht.good, ht.latest.trans h.newest⟩, ht.lawful⟩

/-- Everything of the pane is dropped. -/
theorem inv_dropped {watch : Watch} (hpending : watch.service.pendingFrame = none)
    (hlive : watch.service.lastLiveFrame = none)
    (happlied : watch.service.lastAppliedRevision = none)
    (hdrawn : watch.service.drawn = r.service.drawn) :
    Inv ⟨watch, []⟩ ∧ Lawful r.service watch.service (latest watch.service) := by
  have hnone : latest watch.service = none := by rw [latest, hpending, hlive, Option.or_none]
  refine ⟨⟨⟨?_, fun frame hframe => ?_⟩, hnone⟩, ⟨fun new paneId frame hnew hmem => ?_, ?_⟩⟩
  · rw [happlied, hlive]
    rfl
  · cases hlive.symm.trans hframe
  · rw [hdrawn] at hnew
    rw [List.self_eq_append_left.mp hnew] at hmem
    cases hmem
  · intro _ _ frame hframe
    cases hnone.symm.trans hframe

theorem inv_watchAck (h : Inv r) (ack : WatchAck) (hclean : Clean r (.watchAck ack)) :
    Inv ⟨r.watch.onWatchAck ack, r.shownAfter (.watchAck ack)⟩ ∧
      Lawful r.service (r.watch.onWatchAck ack).service
        (latest (r.watch.onWatchAck ack).service) := by
  have hshown : r.shownAfter (.watchAck ack) = r.shown := by
    by_cases hnew : r.service.attachingPaneId = some ack.paneId ∧ r.service.paneId ≠ some ack.paneId
    · exact (if_pos hnew).trans (hclean hnew.1 hnew.2).symm
    · exact if_neg hnew
  rw [hshown]
  unfold Watch.onWatchAck TerminalService.onWatchAck
  split
  · refine ⟨⟨⟨h.good.applied, h.good.grid⟩, h.newest⟩,
      ⟨fun new paneId frame hnew hmem => ?_, fun hbefore hafter => ?_⟩⟩
    · have hsame : new = [.watchAck ack] := by
        have hcons : [Drawn.watchAck ack] ++ r.service.drawn = new ++ r.service.drawn := hnew
        exact (List.append_cancel_right hcons).symm
      rw [hsame] at hmem
      cases List.mem_singleton.mp hmem
    · have hsame : r.service.frozen = false := hafter
      rw [hsame] at hbefore
      cases hbefore
  · exact h.turn (.refl h.good)

theorem inv_paneFrame (h : Inv r) (frame : PaneFrame) (tripped : Bool) :
    Inv ⟨r.watch.onPaneFrame frame tripped, r.shownAfter (.paneFrame frame tripped)⟩ ∧
      Lawful r.service (r.service.onPaneFrame frame tripped)
        (latest (r.service.onPaneFrame frame tripped)) := by
  by_cases hp : r.service.paneId = some frame.paneId
  · have hshown : r.shownAfter (.paneFrame frame tripped) = frame :: r.shown := if_pos hp
    have hnewest := newest_cons frame r.shown h.good h.newest
    rw [hshown]
    cases ho : r.service.older frame with
    | true =>
      have hsame : r.service.onPaneFrame frame tripped = r.service := onPaneFrame_older ho
      rw [ho, if_pos rfl] at hnewest
      rw [Watch.onPaneFrame, hsame]
      exact ⟨⟨h.good, h.newest.trans hnewest.symm⟩, (Turn.refl h.good).lawful⟩
    | false =>
      obtain ⟨hgood, hlatest, hlawful⟩ := accept_turn h.good tripped hp ho
      rw [ho, if_neg Bool.false_ne_true] at hnewest
      exact ⟨⟨hgood, hlatest.trans hnewest.symm⟩, hlawful⟩
  · have hshown : r.shownAfter (.paneFrame frame tripped) = r.shown := if_neg hp
    have hsame : r.service.onPaneFrame frame tripped = r.service := onPaneFrame_other hp
    rw [hshown, Watch.onPaneFrame, hsame]
    exact ⟨⟨h.good, h.newest⟩, (Turn.refl h.good).lawful⟩

/-- One step, whatever it is. -/
theorem inv_step (h : Inv r) (hclean : Clean r e) (hs : r.step e = some s) :
    Inv s ∧ Lawful r.service s.service (latest s.service) := by
  obtain ⟨watch, hwatch, rfl⟩ := Option.map_eq_some_iff.mp hs
  cases e with
  | attach paneId =>
    cases hwatch
    exact inv_dropped rfl rfl rfl rfl
  | detach =>
    cases hwatch
    exact inv_dropped rfl rfl rfl rfl
  | attachTimeout =>
    cases hwatch
    exact h.turn ⟨h.good.of_same rfl rfl rfl rfl, rfl, lawful_same rfl rfl⟩
  | watchAck ack =>
    cases hwatch
    exact inv_watchAck h ack hclean
  | paneFrame frame tripped =>
    cases hwatch
    exact inv_paneFrame h frame tripped
  | setSelectionLive live tripped =>
    cases hwatch
    exact h.turn (setSelectionLive_turn h.good live tripped)
  | setScrollOffset offset tripped =>
    cases hwatch
    exact h.turn (setScrollOffset_turn h.good offset tripped)
  | requestScrollback tripped =>
    cases hwatch
    exact h.turn (requestScrollback_turn h.good tripped)
  | scrollResponse paneId text proven tripped =>
    cases hwatch
    exact h.turn (onScrollResponse_turn h.good paneId text proven tripped)
  | scrollTimeout tripped =>
    cases hwatch
    exact h.turn (scrollTimeout_turn h.good tripped)
  | error answersReply tripped =>
    cases hwatch
    unfold TerminalService.onError
    split
    · exact h.turn (.refl h.good)
    · have hfailed : Good r.service.attachFailed := h.good.of_same rfl rfl rfl rfl
      obtain ⟨hgood, hlatest, hlawful⟩ := scrollTimeout_turn hfailed tripped
      exact h.turn ⟨hgood, hlatest, ⟨hlawful.quiet, hlawful.restored⟩⟩
  | timer tripped =>
    simp only [Watch.step] at hwatch
    split at hwatch
    · cases hwatch
      exact h.turn (flush_turn h.good tripped)
    · cases hwatch
  | disconnect =>
    cases hwatch
    exact h.turn (.refl h.good)

end Step

/-- In every run in which no frame of a pane comes in between an attach of another one and its
`watch_ack`: no live frame is fed during a freeze, what is held is the newest one, and it is on the
grid when the last cause ends. -/
theorem freeze_law (es : List Event)
    (hclean : ∀ r e s, Occurs Reader.step .start es r e s → Clean r e) : Law es := by
  have hinv : ∀ {r}, Visits Reader.step .start es r → Inv r := fun {r} hr =>
    visits_invariant Inv inv_start
      (fun h hocc => (inv_step h (hclean _ _ _ hocc) hocc.step_eq).1) hr
  refine ⟨fun r hr frame hframe => (hinv hr).held hframe, fun r e s hocc => ?_⟩
  obtain ⟨hs, hlawful⟩ := inv_step (hinv hocc.before) (hclean _ _ _ hocc) hocc.step_eq
  rw [← hs.newest]
  exact hlawful

/-- A look at the history with a selection in it, and then another pane. -/
def readHistory : List Event :=
  [ .attach "p".toList, .watchAck (ackOf "p".toList 1),
    .paneFrame (frameOf "p".toList 1 "a".toList) false, .requestScrollback false,
    .scrollResponse "p".toList "old".toList false false, .setSelectionLive true false,
    .paneFrame (frameOf "p".toList 2 "b".toList) false, .setScrollOffset 0 false,
    .setSelectionLive false false, .attach "q".toList, .watchAck (ackOf "q".toList 1) ]

theorem freeze_law_history : Law readHistory ∧
    (run Reader.step .start readHistory).any
      (fun r => decide (gridOf r.service.drawn = some "b".toList)) = true := by
  refine ⟨freeze_law readHistory fun r e s hocc => ?_, by decide⟩
  have hevery : everyStep Reader.step (fun r e => decide (Clean r e)) .start readHistory =
      true := by
    decide
  have hgood := occurs_good hevery hocc
  exact of_decide_eq_true hgood

/-- A frame of the first pane is held while the second one is attached. -/
def heldOver : List Event :=
  [ .attach "p".toList, .watchAck (ackOf "p".toList 9), .attach "q".toList,
    .setSelectionLive true false, .paneFrame (frameOf "p".toList 9 "left".toList) false,
    .watchAck (ackOf "q".toList 2) ]

theorem held_over_breaks : ¬Law heldOver := by
  intro h
  have hlast : (run Reader.step .start heldOver).any (fun r =>
      decide (r.service.pendingFrame = some (frameOf "p".toList 9 "left".toList) ∧
        r.shown = [])) = true := by decide
  obtain ⟨r, hr, hp⟩ := (Option.any_eq_true _ _).mp hlast
  obtain ⟨hpending, hshown⟩ := of_decide_eq_true hp
  have hheld := h.held r (visits_end hr) _ hpending
  rw [hshown] at hheld
  cases hheld

end HerdrMobile.App.Freeze
