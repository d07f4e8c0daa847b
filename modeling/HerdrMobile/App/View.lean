import HerdrMobile.Lib.Newest
import HerdrMobile.App.Terminal
import HerdrMobile.Host.Frames

/-!
# The grid shows the newest frame

Host and Device agree on which frame is the newest as long as the revisions that reach
the Device for a pane never go down. The Host stores whatever revision the last event
carried, so an event older than the stored revision breaks this, and so does an attach
whose first frame is below what the Device has painted in the meantime.
-/
namespace HerdrMobile.App.View

open HerdrMobile.Lib.Run HerdrMobile.Lib.Newest HerdrMobile.Proto.Messages
open HerdrMobile.Host.Keys HerdrMobile.Host.Herdr HerdrMobile.Host.Input HerdrMobile.Host.Held
open HerdrMobile.Host.Watch HerdrMobile.Host.Session HerdrMobile.Host.HeldSteps
open HerdrMobile.App.Terminal

set_option autoImplicit false

variable {Hash : Type} {joins : Graphemes} {herdr : HerdrCalls} {frameHash : FrameHash Hash}
  {v v' : View Hash} {t : TerminalService} {p : PaneId} {frame : PaneFrame} {tripped : Bool}
  {ack : WatchAck} {q : List FromHost}

def mark (p : PaneId) : FromHost → Option (Mark Nat)
  | .watchAck ack => if ack.paneId = p then some (.base ack.revision) else none
  | .paneFrame frame => if frame.paneId = p then some (.item frame.revision) else none
  | .error => none

def marks (p : PaneId) (q : List FromHost) : List (Mark Nat) := q.filterMap (mark p)

def frameFor (p : PaneId) : FromHost → Option PaneFrame
  | .paneFrame frame => if frame.paneId = p then some frame else none
  | _ => none

/-- The last frame of the pane that is on its way. -/
def lastFrame (p : PaneId) (q : List FromHost) : Option PaneFrame := (q.filterMap (frameFor p)).getLast?

/-- Every `watch_ack` on its way is followed by a frame of its pane. -/
def Paired : List FromHost → Prop
  | [] => True
  | .watchAck ack :: q => (lastFrame ack.paneId q).isSome = true ∧ Paired q
  | _ :: q => Paired q

/-- The revision of the last frame sent for a pane. -/
def newest (v : View Hash) (p : PaneId) : Option Nat := (v.sent p).map PaneFrame.revision

theorem lastFrame_cons_other {m : FromHost} (hm : frameFor p m = none) :
    lastFrame p (m :: q) = lastFrame p q := by
  unfold lastFrame
  rw [List.filterMap_cons_none hm]

theorem lastFrame_cons_frame (hp : frame.paneId = p) :
    lastFrame p (.paneFrame frame :: q) = some ((lastFrame p q).getD frame) := by
  unfold lastFrame
  rw [List.filterMap_cons_some (by simp [frameFor, hp] : frameFor p (.paneFrame frame) = some frame),
    List.getLast?_cons]

theorem lastFrame_append {r : List FromHost} :
    lastFrame p (q ++ r) = (lastFrame p r).or (lastFrame p q) := by
  unfold lastFrame
  rw [List.filterMap_append, List.getLast?_append]

theorem lastFrame_snoc : lastFrame p (q ++ [.paneFrame frame]) =
    if frame.paneId = p then some frame else lastFrame p q := by
  rw [lastFrame_append]
  by_cases hp : frame.paneId = p
  · rw [lastFrame_cons_frame hp, if_pos hp]
    rfl
  · have hother : frameFor p (.paneFrame frame) = none := if_neg hp
    rw [lastFrame_cons_other hother, if_neg hp]
    rfl

theorem lastFrame_snoc_other {m : FromHost} (hm : frameFor p m = none) :
    lastFrame p (q ++ [m]) = lastFrame p q := by
  rw [lastFrame_append, lastFrame_cons_other hm]
  rfl

theorem paired_append {r : List FromHost} (hq : Paired q) (hr : Paired r) : Paired (q ++ r) := by
  induction q with
  | nil => exact hr
  | cons m q ih =>
    cases m with
    | watchAck ack =>
      refine ⟨?_, ih hq.2⟩
      show (lastFrame ack.paneId (q ++ r)).isSome = true
      rw [lastFrame_append, Option.isSome_or, hq.1, Bool.or_true]
    | paneFrame frame => exact ih hq
    | error => exact ih hq

/-- The pane is attached: nothing on its way is older than what is shown, and what is
shown is the last frame sent unless more of them are on their way. -/
structure Shows (v : View Hash) (p : PaneId) : Prop where
  paneId : v.terminal.paneId = some p
  attaching : v.terminal.attachingPaneId = none
  order : InOrder v.terminal.currentBest (marks p v.toDevice) (newest v p)
  shown : lastFrame p v.toDevice = none →
    ∃ frame, v.sent p = some frame ∧ v.terminal.shown = some frame.text

/-- The Device and what is on its way to it. -/
structure Received (v : View Hash) : Prop where
  channel : ∀ p, InOrder none (marks p v.toDevice) (newest v p)
  paired : Paired v.toDevice
  latest : ∀ p frame, lastFrame p v.toDevice = some frame → v.sent p = some frame
  attached : ∀ p, v.attached = some p → Shows v p
  holds : v.terminal.Holds
  kept : v.discarded = []

/-- The Host sends for the watched pane only, and its stored revision is not below the
last one it sent. -/
structure Sends (v : View Hash) : Prop where
  watched : ∀ w, v.thread.bridge.watched = some w → Below (newest v w.paneId) (some w.lastRevision)
  slot : ∀ frame, v.thread.slot = some frame →
    Below (newest v frame.paneId) (some frame.revision) ∧
      ∀ w, v.thread.bridge.watched = some w → w.paneId = frame.paneId ∧ frame.revision ≤ w.lastRevision

theorem received_start (config : RelayConfig) : Received (View.start config : View Hash) where
  channel _ := ⟨trivial, below_none⟩
  paired := trivial
  latest _ _ h := nomatch h
  attached _ h := nomatch h
  holds h := nomatch h
  kept := rfl

theorem sends_start (config : RelayConfig) : Sends (View.start config : View Hash) where
  watched _ h := nomatch h
  slot _ h := nomatch h

theorem Received.terminal {t : TerminalService} (h : Received v) (hs : v.terminal.Same t)
    (hh : t.Holds) : Received { v with terminal := t } where
  channel := h.channel
  paired := h.paired
  latest := h.latest
  attached p hp := by
    have hv := h.attached p hp
    refine ⟨hs.paneId.trans hv.paneId, hs.attaching.trans hv.attaching, ?_, ?_⟩
    · show InOrder t.currentBest (marks p v.toDevice) (newest v p)
      rw [hs.best]
      exact hv.order
    · intro hlast
      obtain ⟨frame, hsent, hshown⟩ := hv.shown hlast
      exact ⟨frame, hsent, hs.shown.trans hshown⟩
  holds := hh
  kept := h.kept

/-- The Device begins an attach or gives its pane up. -/
theorem Received.leave {t : TerminalService} {toHost : List ToHost} (h : Received v) (hh : t.Holds) :
    Received { v with terminal := t, attached := none, toHost := toHost } where
  channel := h.channel
  paired := h.paired
  latest := h.latest
  attached _ hp := nomatch hp
  holds := hh
  kept := h.kept

theorem Received.attachFailed (h : Received v) :
    Received { v with terminal := v.terminal.attachFailed } where
  channel := h.channel
  paired := h.paired
  latest := h.latest
  attached p hp :=
    have hv := h.attached p hp
    ⟨hv.paneId, rfl, hv.order, hv.shown⟩
  holds := h.holds
  kept := h.kept

/-- A message is gone from the channel; what is left is still in order. -/
theorem marks_cons {m : FromHost} : marks p (m :: q) = (mark p m).toList ++ marks p q := by
  unfold marks
  cases h : mark p m with
  | none => rw [List.filterMap_cons_none h]; rfl
  | some k => rw [List.filterMap_cons_some h]; rfl

theorem inOrder_tail {m : FromHost} {last : Option Nat} (h : InOrder none (marks p (m :: q)) last) :
    InOrder none (marks p q) last := by
  rw [marks_cons] at h
  cases hm : mark p m with
  | none =>
    rw [hm] at h
    exact h
  | some k =>
    rw [hm] at h
    cases k with
    | base a => exact h.takeBase below_none
    | item a => exact h.takeItem.2.weaken below_none

theorem lastFrame_cons_some {m : FromHost} (h : lastFrame p q = some frame) :
    lastFrame p (m :: q) = some frame := by
  cases m with
  | watchAck ack => rwa [lastFrame_cons_other rfl]
  | error => rwa [lastFrame_cons_other rfl]
  | paneFrame frame' =>
    by_cases hp : frame'.paneId = p
    · rw [lastFrame_cons_frame hp, h]
      rfl
    · have hother : frameFor p (.paneFrame frame') = none := if_neg hp
      rwa [lastFrame_cons_other hother]

theorem receive_watchAck (h : Received v) (hq : v.toDevice = .watchAck ack :: q)
    (hfresh : v.terminal.attachingPaneId = some ack.paneId ∨ v.attached = some ack.paneId →
      Below v.terminal.currentBest (some ack.revision)) :
    Received ({ v with toDevice := q }.receive tripped (.watchAck ack)) := by
  have hchannel := h.channel
  have hpaired := h.paired
  rw [hq] at hchannel hpaired
  have hmark : mark ack.paneId (.watchAck ack) = some (.base ack.revision) := if_pos rfl
  have hbest : (v.terminal.onWatchAck ack).currentBest = v.terminal.currentBest := by
    unfold TerminalService.onWatchAck
    split <;> rfl
  have hframe : ∀ {p}, ack.paneId = p → lastFrame p q ≠ none := by
    rintro _ rfl hnone
    have hsome := hpaired.1
    rw [hnone] at hsome
    cases hsome
  refine ⟨fun p => inOrder_tail (hchannel p), hpaired.2, ?_, ?_, ?_, h.kept⟩
  · intro p frame hlast
    exact h.latest p frame (by rw [hq]; exact lastFrame_cons_some hlast)
  · intro p hp
    by_cases hatt : v.terminal.attachingPaneId = some ack.paneId
    · have hack : ack.paneId = p := by simpa [View.receive, hatt] using hp
      have ht : v.terminal.onWatchAck ack =
          { v.terminal with attachingPaneId := none, paneId := some ack.paneId } := if_pos hatt
      refine ⟨?_, ?_, ?_, fun hlast => absurd hlast (hframe hack)⟩
      · show (v.terminal.onWatchAck ack).paneId = some p
        rw [ht, ← hack]
      · show (v.terminal.onWatchAck ack).attachingPaneId = none
        rw [ht]
      · show InOrder (v.terminal.onWatchAck ack).currentBest (marks p q) (newest v p)
        have hin := hchannel ack.paneId
        rw [marks_cons, hmark] at hin
        rw [hbest, ← hack]
        exact hin.takeBase (hfresh (Or.inl hatt))
    · have hattached : v.attached = some p := by simpa [View.receive, hatt] using hp
      have ht : v.terminal.onWatchAck ack = v.terminal := if_neg hatt
      have hv := h.attached p hattached
      have horder := hv.order
      rw [hq, marks_cons] at horder
      refine ⟨by simpa [View.receive, ht] using hv.paneId,
        by simpa [View.receive, ht] using hv.attaching, ?_, ?_⟩
      · show InOrder (v.terminal.onWatchAck ack).currentBest (marks p q) (newest v p)
        rw [hbest]
        by_cases hack : ack.paneId = p
        · subst hack
          rw [hmark] at horder
          exact horder.takeBase (hfresh (Or.inr hattached))
        · have hother : mark p (.watchAck ack) = none := if_neg hack
          rw [hother] at horder
          exact horder
      · intro hlast
        show ∃ frame, v.sent p = some frame ∧ (v.terminal.onWatchAck ack).shown = some frame.text
        rw [ht]
        apply hv.shown
        rw [hq, lastFrame_cons_other rfl]
        exact hlast
  · show (v.terminal.onWatchAck ack).Holds
    unfold TerminalService.onWatchAck
    split <;> exact h.holds

theorem receive_paneFrame (h : Received v) (hq : v.toDevice = .paneFrame frame :: q) :
    Received ({ v with toDevice := q }.receive tripped (.paneFrame frame)) := by
  have hchannel := h.channel
  have hpaired := h.paired
  rw [hq] at hchannel hpaired
  have hmark : mark frame.paneId (.paneFrame frame) = some (.item frame.revision) := if_pos rfl
  -- A frame of the attached pane is in order, so it is not older than what is shown.
  have hnewer : v.attached = some frame.paneId → v.terminal.older frame = false ∧
      InOrder (some frame.revision) (marks frame.paneId q) (newest v frame.paneId) := by
    intro hattached
    have horder := (h.attached _ hattached).order
    rw [hq, marks_cons, hmark] at horder
    exact ⟨TerminalService.older_eq_false.mpr horder.takeItem.1, horder.takeItem.2⟩
  have hlatest : ∀ p frame', lastFrame p q = some frame' → v.sent p = some frame' := by
    intro p frame' hlast
    exact h.latest p frame' (by rw [hq]; exact lastFrame_cons_some hlast)
  refine ⟨fun p => inOrder_tail (hchannel p), hpaired, hlatest, ?_, ?_, ?_⟩
  · intro p hp
    have hv := h.attached p hp
    by_cases hid : frame.paneId = p
    · subst hid
      obtain ⟨hpane, hattaching, hbest, hshown⟩ := TerminalService.onPaneFrame_newest tripped
        hv.paneId (hnewer hp).1
      refine ⟨hpane.trans hv.paneId, hattaching.trans hv.attaching, ?_, ?_⟩
      · show InOrder (v.terminal.onPaneFrame frame tripped).currentBest _ _
        rw [hbest]
        exact (hnewer hp).2
      · intro hlast
        have hsent : v.sent frame.paneId = some frame := by
          apply h.latest
          have hlast' : lastFrame frame.paneId q = none := hlast
          rw [hq, lastFrame_cons_frame rfl, hlast']
          rfl
        exact ⟨frame, hsent, hshown⟩
    · have hother : v.terminal.onPaneFrame frame tripped = v.terminal := by
        apply TerminalService.onPaneFrame_other
        rw [hv.paneId]
        intro h'
        exact hid (Option.some.inj h').symm
      have hmark' : mark p (.paneFrame frame) = none := if_neg hid
      have hframe' : frameFor p (.paneFrame frame) = none := if_neg hid
      have horder := hv.order
      rw [hq, marks_cons, hmark'] at horder
      refine ⟨by simpa [View.receive, hother] using hv.paneId,
        by simpa [View.receive, hother] using hv.attaching, ?_, ?_⟩
      · show InOrder (v.terminal.onPaneFrame frame tripped).currentBest _ _
        rw [hother]
        exact horder
      · intro hlast
        show ∃ f, v.sent p = some f ∧ (v.terminal.onPaneFrame frame tripped).shown = some f.text
        rw [hother]
        apply hv.shown
        rw [hq, lastFrame_cons_other hframe']
        exact hlast
  · exact TerminalService.onPaneFrame_holds h.holds
  · have hnot : ¬(v.attached = some frame.paneId ∧ v.terminal.older frame = true) := by
      rintro ⟨hattached, hold⟩
      rw [(hnewer hattached).1] at hold
      cases hold
    show (if _ then _ else _) = []
    rw [if_neg hnot]
    exact h.kept

theorem receive_error (h : Received v) (hq : v.toDevice = .error :: q) :
    Received ({ v with toDevice := q }.receive tripped .error) := by
  have hrest : Received { v with toDevice := q } := by
    have hchannel := h.channel
    have hpaired := h.paired
    rw [hq] at hchannel hpaired
    refine ⟨fun p => inOrder_tail (hchannel p), hpaired, ?_, ?_, h.holds, h.kept⟩
    · intro p frame hlast
      exact h.latest p frame (by rw [hq]; exact lastFrame_cons_some hlast)
    · intro p hp
      have hv := h.attached p hp
      have horder := hv.order
      have hshown := hv.shown
      rw [hq] at horder hshown
      exact ⟨hv.paneId, hv.attaching, horder, hshown⟩
  exact hrest.attachFailed

/-- The messages of a watch, or of a read if there is no acknowledgement. -/
def messages (ack : Option WatchAck) (frame : PaneFrame) : List FromHost :=
  (ack.map FromHost.watchAck).toList ++ [.paneFrame frame]

/-- A frame is sent, after the acknowledgement of its watch or not below the last one. -/
theorem received_send (thread : Thread Hash) (toHost : List ToHost) (a : Option WatchAck)
    (ha : ∀ ack ∈ a, ack.paneId = frame.paneId ∧ ack.revision = frame.revision)
    (hb : a = none → Below (newest v frame.paneId) (some frame.revision)) (h : Received v) :
    Received { v with
      thread := thread
      toHost := toHost
      toDevice := v.toDevice ++ messages a frame
      sent := Function.update v.sent frame.paneId (some frame) } := by
  have hlast : ∀ p, lastFrame p (v.toDevice ++ messages a frame) =
      if frame.paneId = p then some frame else lastFrame p v.toDevice := by
    intro p
    unfold messages
    rw [← List.append_assoc, lastFrame_snoc]
    cases a with
    | none => simp
    | some ack =>
      have hnone : lastFrame p [FromHost.watchAck ack] = none := rfl
      show (if _ then _ else lastFrame p (v.toDevice ++ [FromHost.watchAck ack])) = _
      rw [lastFrame_append, hnone, Option.none_or]
  have horder : ∀ {best} p, InOrder best (marks p v.toDevice) (newest v p) →
      InOrder best (marks p (v.toDevice ++ messages a frame))
        ((Function.update v.sent frame.paneId (some frame) p).map PaneFrame.revision) := by
    intro best p hin
    unfold marks messages
    rw [List.filterMap_append, List.filterMap_append]
    by_cases hp : frame.paneId = p
    · subst hp
      rw [Function.update_self]
      cases a with
      | none => simpa [marks, mark] using hin.sendItem (hb rfl)
      | some ack =>
        obtain ⟨hpane, hrev⟩ := ha ack rfl
        have hboth := (hin.sendBase (a := frame.revision)).sendItem (below_refl _)
        simpa [marks, mark, hpane, hrev] using hboth
    · rw [Function.update_of_ne (Ne.symm hp)]
      cases a with
      | none => simpa [marks, newest, mark, hp] using hin
      | some ack => simpa [marks, newest, mark, (ha ack rfl).1, hp] using hin
  refine ⟨fun p => horder p (h.channel p), ?_, ?_, ?_, h.holds, h.kept⟩
  · show Paired (v.toDevice ++ messages a frame)
    apply paired_append h.paired
    cases a with
    | none => trivial
    | some ack =>
      refine ⟨?_, trivial⟩
      show (lastFrame ack.paneId [.paneFrame frame]).isSome = true
      rw [lastFrame_cons_frame (ha ack rfl).1.symm]
      rfl
  · intro p frame' hframe'
    rw [hlast] at hframe'
    by_cases hp : frame.paneId = p
    · subst hp
      rw [if_pos rfl] at hframe'
      rw [← hframe']
      exact Function.update_self ..
    · rw [if_neg hp] at hframe'
      show Function.update v.sent frame.paneId (some frame) p = some frame'
      rw [Function.update_of_ne (Ne.symm hp)]
      exact h.latest p frame' hframe'
  · intro p hattached
    have hv := h.attached p hattached
    refine ⟨hv.paneId, hv.attaching, horder p hv.order, ?_⟩
    intro hnone
    rw [hlast] at hnone
    by_cases hp : frame.paneId = p
    · rw [if_pos hp] at hnone
      cases hnone
    · rw [if_neg hp] at hnone
      obtain ⟨frame', hsent, hshown⟩ := hv.shown hnone
      refine ⟨frame', ?_, hshown⟩
      show Function.update v.sent frame.paneId (some frame) p = some frame'
      rw [Function.update_of_ne (Ne.symm hp)]
      exact hsent

theorem received_error {thread : Thread Hash} {toHost : List ToHost} (h : Received v) :
    Received { v with
      thread := thread
      toHost := toHost
      toDevice := v.toDevice ++ [.error] } := by
  have hmarks : ∀ p, marks p (v.toDevice ++ [.error]) = marks p v.toDevice := by
    intro p
    unfold marks
    rw [List.filterMap_append]
    exact List.append_nil _
  have hlast : ∀ p, lastFrame p (v.toDevice ++ [.error]) = lastFrame p v.toDevice :=
    fun p => lastFrame_snoc_other rfl
  refine ⟨?_, paired_append h.paired trivial, ?_, ?_, h.holds, h.kept⟩
  · intro p
    show InOrder none (marks p (v.toDevice ++ [.error])) _
    rw [hmarks]
    exact h.channel p
  · intro p frame hframe
    rw [hlast] at hframe
    exact h.latest p frame hframe
  · intro p hattached
    have hv := h.attached p hattached
    refine ⟨hv.paneId, hv.attaching, ?_, ?_⟩
    · show InOrder _ (marks p (v.toDevice ++ [.error])) _
      rw [hmarks]
      exact hv.order
    · intro hnone
      rw [hlast] at hnone
      exact hv.shown hnone

theorem Received.thread {thread : Thread Hash} {toHost : List ToHost} (h : Received v) :
    Received { v with thread := thread, toHost := toHost } where
  channel := h.channel
  paired := h.paired
  latest := h.latest
  attached p hp :=
    have hv := h.attached p hp
    ⟨hv.paneId, hv.attaching, hv.order, hv.shown⟩
  holds := h.holds
  kept := h.kept

/-- The watched pane stays, its revision does not go down, and a frame that is new in the
slot carries its revision. -/
structure Moved (s s' : Thread Hash) : Prop where
  watched : ∀ w', s'.bridge.watched = some w' → ∃ w, s.bridge.watched = some w ∧
    w'.paneId = w.paneId ∧ w.lastRevision ≤ w'.lastRevision
  slot : ∀ frame, s'.slot = some frame → s.slot = some frame ∨
    ∃ w, s.bridge.watched = some w ∧ frame.paneId = w.paneId ∧ frame.revision = w.lastRevision

theorem moved_same {s s' : Thread Hash} (hw : s'.bridge.watched = s.bridge.watched)
    (hs : s'.slot = s.slot) : Moved s s' := by
  refine ⟨?_, ?_⟩
  · intro w' hw'
    exact ⟨w', hw ▸ hw', rfl, le_refl _⟩
  · intro frame hframe
    exact Or.inl (hs ▸ hframe)

theorem Sends.moved {thread : Thread Hash} {toHost : List ToHost} (h : Sends v)
    (hm : Moved v.thread thread) : Sends { v with thread := thread, toHost := toHost } := by
  refine ⟨?_, ?_⟩
  · intro w' hw'
    obtain ⟨w, hw, hid, hrev⟩ := hm.watched w' hw'
    rw [hid]
    exact (h.watched w hw).trans (below_some.mpr fun x hx => by cases hx; exact hrev)
  · intro frame hframe
    cases hm.slot frame hframe with
    | inl hold =>
      refine ⟨(h.slot frame hold).1, ?_⟩
      intro w' hw'
      obtain ⟨w, hw, hid, hrev⟩ := hm.watched w' hw'
      obtain ⟨hpane, hle⟩ := (h.slot frame hold).2 w hw
      exact ⟨hid.trans hpane, le_trans hle hrev⟩
    | inr hnew =>
      obtain ⟨w, hw, hpane, hrev⟩ := hnew
      refine ⟨?_, ?_⟩
      · rw [hpane, hrev]
        exact h.watched w hw
      · intro w' hw'
        obtain ⟨w₁, hw₁, hid, hle⟩ := hm.watched w' hw'
        rw [hw] at hw₁
        cases hw₁
        exact ⟨hid.trans hpane.symm, by rw [hrev]; exact hle⟩

/-- The acknowledgement of a watch and its frame are made of the same snapshot. -/
theorem watchPane_ack {Corr : Type} {now : Nat} {paneId : PaneId} {b : Bridge Hash Corr}
    {m : Shared} (h : (watchPane herdr frameHash now paneId b m).1 = .ok (ack, frame)) :
    ack.paneId = frame.paneId ∧ ack.revision = frame.revision := by
  unfold watchPane at h
  split at h
  · cases h
  · split at h
    · cases h
    · split at h
      · cases h
      · split at h
        · cases h
        · cases h
          exact ⟨rfl, rfl⟩

/-- What the Device is told does not go down: an event for the watched pane carries no
revision below the stored one, and the `watch_ack` of an attach none below what the
Device has painted since the attach began. -/
def fresh (v : View Hash) : ViewEvent → Bool
  | .host (.push _ (.paneUpdated paneId (some revision) _)) =>
    v.thread.bridge.watched.all fun w => w.paneId ≠ paneId || w.lastRevision ≤ revision
  | .deliver _ =>
    match v.toDevice with
    | .watchAck ack :: _ =>
      if v.terminal.attachingPaneId = some ack.paneId ∨ v.attached = some ack.paneId then
        v.terminal.currentBest.all (· ≤ ack.revision)
      else true
    | _ => true
  | _ => true

section Thread

variable {s : Thread Hash} {now : Nat}

theorem leavePane_watched {Corr : Type} (paneId : PaneId) (b : Bridge Hash Corr) :
    (leavePane paneId b).watched = none ∨ (leavePane paneId b).watched = b.watched := by
  unfold leavePane
  split
  · exact Or.inl rfl
  · exact Or.inr rfl

theorem moved_leave {s' : Thread Hash} (paneId : PaneId)
    (hw : s'.bridge = leavePane paneId s.bridge) (hs : s'.slot = s.slot) : Moved s s' := by
  cases leavePane_watched paneId s.bridge with
  | inl hnone =>
    refine ⟨?_, fun frame hframe => Or.inl (hs ▸ hframe)⟩
    intro w' hw'
    rw [hw, hnone] at hw'
    cases hw'
  | inr hsame => exact moved_same (by rw [hw, hsame]) hs

/-- The stored revision becomes that of the event, if it changes at all. -/
theorem handlePaneUpdated_watched {Corr : Type} {b : Bridge Hash Corr} {m : Shared}
    {paneId : PaneId} {revision rows : Option Nat} {w' : WatchedPane Hash}
    (h : (handlePaneUpdated herdr now paneId revision rows b m).1.watched = some w') :
    ∃ w, b.watched = some w ∧ w'.paneId = w.paneId ∧
      (w'.lastRevision = w.lastRevision ∨
        revision = some w'.lastRevision ∧ w.paneId = paneId) := by
  unfold handlePaneUpdated at h
  split at h
  · rename_i revision w hw
    simp only at h
    split at h
    · exact ⟨w', h, rfl, Or.inl rfl⟩
    · rename_i hguard
      rw [not_or, not_not] at hguard
      refine ⟨w, hw, ?_⟩
      split at h
      · split at h
        · cases h
          exact ⟨rfl, Or.inr ⟨rfl, hguard.1⟩⟩
        · cases h
          exact ⟨rfl, Or.inr ⟨rfl, hguard.1⟩⟩
      · cases h
        exact ⟨rfl, Or.inr ⟨rfl, hguard.1⟩⟩
  · exact ⟨w', h, rfl, Or.inl rfl⟩

variable [DecidableEq Hash]

theorem moved_push {push : Push} (hf : fresh { v with thread := s } (.host (.push now push)) = true) :
    Moved s (Host.Session.step joins herdr frameHash s (.push now push)) := by
  cases push with
  | paneAgentStatusChanged paneId status =>
    cases hs : handleSubscriptionLine joins herdr now (.paneAgentStatusChanged paneId status)
        s.bridge s.shared with
    | mk b' m' =>
      apply moved_same
      · simp only [Host.Session.step, hs]
        unfold handleSubscriptionLine at hs
        simp only at hs
        split at hs
        · exact (release_cases hs).2.watched
        · cases hs
          rfl
      · rfl
  | paneUpdated paneId revision rows =>
    refine ⟨?_, fun frame hframe => Or.inl hframe⟩
    intro w' hw'
    obtain ⟨w, hw, hid, hrev⟩ := handlePaneUpdated_watched hw'
    refine ⟨w, hw, hid, ?_⟩
    cases hrev with
    | inl hsame => exact le_of_eq hsame.symm
    | inr hnew =>
      obtain ⟨rfl, hpane⟩ := hnew
      simpa [fresh, hw, hpane] using hf
  | paneClosed paneId => exact moved_leave paneId rfl rfl

theorem moved_poll : Moved s (Host.Session.step joins herdr frameHash s (.poll now)) := by
  cases hp : pollScheduler herdr frameHash now s.bridge s.shared with
  | mk frame rest =>
    obtain ⟨b', m'⟩ := rest
    have hbridge : (Host.Session.step joins herdr frameHash s (.poll now)).bridge = b' := by
      simp [Host.Session.step, hp]
    have hslot : (Host.Session.step joins herdr frameHash s (.poll now)).slot = frame.or s.slot := by
      simp [Host.Session.step, hp]
    obtain ⟨scheduler, ⟨rfl, hb, hm⟩ | ⟨isPoll, -, -, hcases⟩⟩ := pollScheduler_cases hp
    · exact moved_same (by rw [hbridge, hb]) hslot
    · cases hcases with
      | unwatched hw hb hm => exact moved_same (by rw [hbridge, hb]) hslot
      | failed w hw hb hlog => exact moved_same (by rw [hbridge, hb]) hslot
      | same w text hw hb hpoll hhash hlog => exact moved_same (by rw [hbridge, hb]) hslot
      | sent w text hw hb hne hlog =>
        refine ⟨?_, ?_⟩
        · intro w' hw'
          rw [hbridge, hb] at hw'
          cases hw'
          exact ⟨w, hw, rfl, le_refl _⟩
        · intro frame hframe
          rw [hslot] at hframe
          cases hframe
          exact Or.inr ⟨w, hw, rfl, rfl⟩

/-- Whatever reaches the thread, other than a request to watch, and except for the slot
that the end of a window empties. -/
theorem moved_host {e : Event} (hreq : View.request e = false) (hdrain : e ≠ .drain)
    (hf : fresh { v with thread := s } (.host e) = true) :
    Moved s (Host.Session.step joins herdr frameHash s e) := by
  cases e with
  | input now request corr =>
    cases hs : serveInput joins herdr now request (some ⟨s.requests.length, corr⟩) s.bridge
        s.shared with
    | mk out rest =>
      obtain ⟨b', m'⟩ := rest
      obtain ⟨ack, b₁, -, hkept, rfl, -⟩ := serveInput_outcome hs
      apply moved_same
      · simp only [Host.Session.step, hs]
        exact hkept.watched
      · rfl
  | watchPane now paneId => cases hreq
  | unwatchPane paneId => cases hreq
  | push now push => exact moved_push hf
  | poll now => exact moved_poll
  | drain => exact absurd rfl hdrain
  | cancelPending => exact moved_same (kept_cancel s.bridge).watched rfl
  | inactive => exact moved_same rfl rfl
  | others lines calls => exact moved_same rfl rfl

end Thread

variable [DecidableEq Hash]

/-- The two ends and the channel between them. -/
structure Good (v : View Hash) : Prop where
  received : Received v
  sends : Sends v

theorem good_deliver (h : Good v) (hf : fresh v (.deliver tripped) = true)
    (hs : View.step joins herdr frameHash v (.deliver tripped) = some v') : Good v' := by
  simp only [View.step] at hs
  cases hq : v.toDevice with
  | nil => simp [hq] at hs
  | cons m q =>
    simp only [hq, Option.some.injEq] at hs
    obtain rfl := hs
    cases m with
    | watchAck ack =>
      refine ⟨receive_watchAck h.received hq ?_, h.sends.watched, h.sends.slot⟩
      intro hack
      have hbest : v.terminal.currentBest.all (· ≤ ack.revision) = true := by
        simpa only [fresh, hq, if_pos hack] using hf
      rw [below_some]
      intro best hb
      rw [Option.mem_def.mp hb] at hbest
      exact of_decide_eq_true hbest
    | paneFrame frame =>
      exact ⟨receive_paneFrame h.received hq, h.sends.watched, h.sends.slot⟩
    | error => exact ⟨receive_error h.received hq, h.sends.watched, h.sends.slot⟩

theorem good_serve {now : Nat} (h : Good v)
    (hs : View.step joins herdr frameHash v (.serve now) = some v') : Good v' := by
  simp only [View.step] at hs
  split at hs
  · cases hs
  · rename_i hslot
    have hnone : v.thread.slot = none := by simpa using hslot
    cases hq : v.toHost with
    | nil => simp [hq] at hs
    | cons request rest =>
      cases request with
      | unwatchPane paneId =>
        simp only [hq, Option.some.injEq] at hs
        obtain rfl := hs
        exact ⟨h.received.thread, h.sends.moved (moved_leave paneId rfl rfl)⟩
      | watchPane paneId =>
        simp only [hq] at hs
        cases hw : watchPane herdr frameHash now paneId v.thread.bridge v.thread.shared with
        | mk result rest' =>
          obtain ⟨b', m'⟩ := rest'
          have hbridge : (Host.Session.step joins herdr frameHash v.thread
              (.watchPane now paneId)).bridge = b' := by simp [Host.Session.step, hw]
          have hslot' : (Host.Session.step joins herdr frameHash v.thread
              (.watchPane now paneId)).slot = none := by simp [Host.Session.step, hnone]
          have hcases := watchPane_cases hw
          rw [hw] at hs
          cases hcases with
          | failed e calls hb hlog hread =>
            simp only [Option.some.injEq] at hs
            obtain rfl := hs
            have hmoved : Sends { v with
                thread := Host.Session.step joins herdr frameHash v.thread (.watchPane now paneId)
                toHost := rest } :=
              h.sends.moved (moved_same (by rw [hbridge, hb]) (by rw [hslot', hnone]))
            exact ⟨received_error h.received, hmoved.watched, hmoved.slot⟩
          | read ack pane width text hb hlog =>
            simp only [Option.some.injEq] at hs
            obtain rfl := hs
            obtain ⟨hpane, hrev⟩ := watchPane_ack (congrArg Prod.fst hw)
            refine ⟨?_, ?_, ?_⟩
            · have hsend := received_send
                (Host.Session.step joins herdr frameHash v.thread (.watchPane now paneId)) rest
                (some ack) (by rintro _ ⟨⟩; exact ⟨hpane, hrev⟩) (by simp)
                h.received
              simpa [View.send, View.sendAck, messages] using hsend
            · intro w hw'
              have hw'' : (attach frameHash now { pane with paneId := paneId } width text
                  (switching paneId v.thread.bridge)).watched = some w := by
                rw [← hb, ← hbridge]
                exact hw'
              cases hw''
              show Below (newest _ paneId) (some pane.revision)
              simp only [newest, View.send, Function.update_self]
              exact below_refl _
            · intro frame hframe
              have hframe' : (Host.Session.step joins herdr frameHash v.thread
                  (.watchPane now paneId)).slot = some frame := hframe
              rw [hslot'] at hframe'
              cases hframe'

/-- The end of a window: what is in the slot is sent. -/
theorem good_drain (h : Good v)
    (hs : View.step joins herdr frameHash v (.host .drain) = some v') : Good v' := by
  cases hslot : v.thread.slot with
  | none =>
    simp only [View.step, View.request, hslot] at hs
    cases hs
    exact ⟨h.received.thread, h.sends.moved (moved_same rfl hslot.symm)⟩
  | some frame =>
    simp only [View.step, View.request, hslot] at hs
    cases hs
    obtain ⟨hbelow, hpane⟩ := h.sends.slot frame hslot
    refine ⟨?_, ?_, fun _ hnone => nomatch hnone⟩
    · have hsend := received_send
        (Host.Session.step joins herdr frameHash v.thread .drain) v.toHost none (by simp) (fun _ => hbelow) h.received
      exact hsend
    · intro w hw
      obtain ⟨hid, hle⟩ := hpane w hw
      rw [hid, below_some]
      simp only [newest, View.send, Function.update_self]
      rintro x ⟨⟩
      exact hle

theorem good_step {e : ViewEvent} (h : Good v) (hf : fresh v e = true)
    (hs : View.step joins herdr frameHash v e = some v') : Good v' := by
  cases e with
  | attach paneId =>
    cases hs
    exact ⟨h.received.leave (by simp [TerminalService.attach, TerminalService.reset,
      TerminalService.Holds]), h.sends.watched, h.sends.slot⟩
  | detach =>
    cases hs
    exact ⟨h.received.leave (by simp [TerminalService.detach, TerminalService.reset,
      TerminalService.Holds]), h.sends.watched, h.sends.slot⟩
  | attachTimeout =>
    cases hs
    exact ⟨h.received.attachFailed, h.sends.watched, h.sends.slot⟩
  | freeze frozen tripped =>
    cases hs
    exact ⟨h.received.terminal (TerminalService.setFrozen_same _ _ _)
      (TerminalService.setFrozen_holds _ h.received.holds), h.sends.watched, h.sends.slot⟩
  | timer tripped =>
    simp only [View.step] at hs
    split at hs
    · cases hs
      exact ⟨h.received.terminal (TerminalService.flush_same _ _)
        (TerminalService.flush_holds _ _), h.sends.watched, h.sends.slot⟩
    · cases hs
  | deliver tripped => exact good_deliver h hf hs
  | serve now => exact good_serve h hs
  | host e =>
    by_cases hdrain : e = .drain
    · subst hdrain
      exact good_drain h hs
    · cases hreq : View.request e with
      | true => simp [View.step, hreq] at hs
      | false =>
        have hstep : v' = { v with thread := Host.Session.step joins herdr frameHash v.thread e } := by
          simp only [View.step, hreq, Bool.false_eq_true, if_false] at hs
          split at hs
          · exact absurd rfl hdrain
          · exact (Option.some.inj hs).symm
        obtain rfl := hstep
        exact ⟨h.received.thread, h.sends.moved (moved_host hreq hdrain hf)⟩

/-- No frame of the attached pane is taken for an older one, and with everything
delivered, nothing frozen and no timer running the grid shows the frame sent last. -/
structure Agrees (v : View Hash) : Prop where
  kept : v.discarded = []
  grid : ∀ p, v.attached = some p → v.toDevice = [] → v.terminal.frozen = false →
    v.terminal.coalesceTimer = false →
    ∃ frame, v.sent p = some frame ∧ v.terminal.grid = some frame.text

omit [DecidableEq Hash] in
theorem Good.agrees (h : Good v) : Agrees v := by
  refine ⟨h.received.kept, ?_⟩
  intro p hattached hempty hfrozen htimer
  have hv := h.received.attached p hattached
  obtain ⟨frame, hsent, hshown⟩ := hv.shown (by rw [hempty]; rfl)
  refine ⟨frame, hsent, ?_⟩
  have hpending : v.terminal.pendingFrame = none := by
    cases hp : v.terminal.pendingFrame with
    | none => rfl
    | some held =>
      have hholds := h.received.holds (by rw [hp]; rfl)
      rw [hfrozen, htimer] at hholds
      simp at hholds
  rw [← hshown]
  unfold TerminalService.shown
  rw [hpending]
  rfl

/-- In every run whose steps are fresh, Host and Device agree on the newest frame. -/
theorem grid_shows_newest (joins : Graphemes) (herdr : HerdrCalls) (frameHash : FrameHash Hash)
    (config : RelayConfig) (es : List ViewEvent)
    (hfresh : ∀ {v e v'}, Occurs (View.step joins herdr frameHash) (.start config) es v e v' →
      fresh v e = true)
    (hv : Visits (View.step joins herdr frameHash) (.start config) es v) : Agrees v := by
  have hgood : Good v := by
    apply visits_invariant Good ⟨received_start config, sends_start config⟩ ?_ hv
    intro s e t hs ho
    exact good_step hs (hfresh ho) ho.step_eq
  exact hgood.agrees

open HerdrMobile.Host.Frames (pane timing changing plainHash alone)

/-- The Device attaches, and the pane changes. -/
def watching : List ViewEvent :=
  [.attach pane, .serve 0, .deliver false, .deliver false, .host (.push 1 (.paneUpdated pane (some 2) none)),
    .host (.poll 1), .host .drain, .deliver false]

theorem grid_shows_newest_watching :
    ∃ v, run (View.step alone changing plainHash) (.start timing) watching = some v ∧
      v.attached = some pane ∧ Agrees v := by
  have hgood : everyStep (View.step alone changing plainHash) fresh (.start timing) watching = true := by
    decide
  refine ⟨_, rfl, rfl, ?_⟩
  exact grid_shows_newest alone changing plainHash timing watching (occurs_good hgood)
    (visits_end rfl)

/-- An event that was queued before the attach carries a revision below the snapshot's,
and the frame of the change after it is discarded. -/
theorem stale_event_discards :
    ∃ v, run (View.step alone changing plainHash) (.start timing)
        [.attach pane, .serve 0, .deliver false, .deliver false,
          .host (.push 1 (.paneUpdated pane (some 0) none)), .host (.poll 1), .host .drain,
          .deliver false] = some v ∧
      v.attached = some pane ∧ v.toDevice = [] ∧ v.terminal.frozen = false ∧
      v.terminal.coalesceTimer = false ∧
      (v.sent pane).map PaneFrame.text = some "$ ls".toList ∧
      v.terminal.grid = some "$".toList ∧ v.discarded.length = 1 ∧ ¬Agrees v := by
  refine ⟨_, rfl, rfl, rfl, rfl, rfl, rfl, rfl, rfl, ?_⟩
  intro h
  exact absurd h.kept (by decide)

end HerdrMobile.App.View
