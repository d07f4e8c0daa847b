import HerdrMobile.Host.Frames
import HerdrMobile.Lib.Run

/-!
# The width of a watched pane

The rows of a push are recorded before `pane.layout` is asked for the width that goes with them,
and rows that are recorded are not asked for again. As long as those calls succeed, every frame has
the width of its rows.
-/
namespace HerdrMobile.Host.Geometry

open HerdrMobile.Lib.Run HerdrMobile.Proto.Messages
open HerdrMobile.Host.Herdr HerdrMobile.Host.Scheduler HerdrMobile.Host.Input HerdrMobile.Host.Held
open HerdrMobile.Host.Watch HerdrMobile.Host.Session HerdrMobile.Host.HeldSteps
open HerdrMobile.Host.Frames

set_option autoImplicit false

variable {Hash Corr : Type} {joins : Graphemes} {herdr : HerdrCalls} {frameHash : FrameHash Hash}
  {now : Nat} {paneId : PaneId} {b b' : Bridge Hash Corr} {m m' : Shared} {s t : Thread Hash}
  {was : Bool} {e : Event}

/-- The pane that is watched, and the rows and the width that are recorded for it. -/
def geometry (b : Bridge Hash Corr) : Option (PaneId × Nat × Nat) :=
  b.watched.map fun w => (w.paneId, w.viewportRows, w.width)

/-- In this step `pane.layout` has told the width that is kept for the watched pane. -/
def laidOut (s t : Thread Hash) : Bool :=
  t.bridge.watched.any fun w => (newCalls s t).contains (.layout w.paneId (some w.width))

/-- Whether the width was told at or after the last change of the recorded rows. The calls of other
sessions tell nothing of it. -/
def obtained (was : Bool) (s : Thread Hash) (e : Event) (t : Thread Hash) : Bool :=
  match e with
  | .others _ _ => was
  | _ => laidOut s t || (was && decide (geometry t.bridge = geometry s.bridge))

/-- A session with that. -/
structure Observed (Hash : Type) where
  thread : Thread Hash
  obtained : Bool

def Observed.start (config : RelayConfig) : Observed Hash := ⟨.start config, false⟩

section Step

variable [DecidableEq Hash]

def Observed.step (joins : Graphemes) (herdr : HerdrCalls) (frameHash : FrameHash Hash)
    (o : Observed Hash) (e : Event) : Option (Observed Hash) :=
  let t := Session.step joins herdr frameHash o.thread e
  some ⟨t, Geometry.obtained o.obtained o.thread e t⟩

end Step

/-- A step hands out frames in the recorded geometry only, with a width that belongs to it, and an
acknowledgement has the geometry of its frame. -/
structure Fitting (s t : Observed Hash) : Prop where
  frames : ∀ f ∈ newFrames handedOut s.thread t.thread, t.obtained = true ∧
    ∃ w, t.thread.bridge.watched = some w ∧ f.paneId = w.paneId ∧
      f.viewportRows = w.viewportRows ∧ f.width = w.width
  acks : ∀ ack frame, .watched ack frame ∈ t.thread.trace.drop s.thread.trace.length →
    ack.paneId = frame.paneId ∧ ack.viewportRows = frame.viewportRows ∧ ack.width = frame.width

/-- The `pane.layout` call for changed rows succeeds. -/
def Answered (herdr : HerdrCalls) (s : Thread Hash) : Event → Prop
  | .push _ (.paneUpdated paneId revision viewportRows) =>
    ∀ w ∈ s.bridge.watched, w.paneId = paneId → revision.isSome = true →
      (viewportRows.map (· % 2 ^ 32)).any (· ≠ w.viewportRows) = true →
        (layoutWidth paneId (herdr.paneLayout s.shared.log paneId)).isOk = true
  | _ => True

/-- A `pane.updated` push says nothing new of the watched pane's rows, or new rows are recorded and
the width is asked for once. -/
inductive Resized (herdr : HerdrCalls) (paneId : PaneId) (revision viewportRows : Option Nat)
    (b b' : Bridge Hash Corr) (m m' : Shared) : Prop
  | kept : geometry b' = geometry b →
      (∀ w, b.watched = some w → w.paneId = paneId → revision.isSome = true →
        (viewportRows.map (· % 2 ^ 32)).any (· ≠ w.viewportRows) = false) →
      Resized herdr paneId revision viewportRows b b' m m'
  | changed (w w' : WatchedPane Hash) : b.watched = some w → b'.watched = some w' →
      w.paneId = paneId → w'.paneId = paneId → w'.viewportRows ≠ w.viewportRows →
      revision.isSome = true → (viewportRows.map (· % 2 ^ 32)).any (· ≠ w.viewportRows) = true →
      m'.log = m.log ++
        [.layout paneId (layoutWidth paneId (herdr.paneLayout m.log paneId)).toOption] →
      (∀ width, layoutWidth paneId (herdr.paneLayout m.log paneId) = .ok width →
        w'.width = width) →
      Resized herdr paneId revision viewportRows b b' m m'

theorem rows_changed {rows : Option Nat} {old : Nat} (h : rows.any (· ≠ old) = true) :
    rows.getD old ≠ old := by
  cases rows with
  | none => cases h
  | some new => simpa using h

theorem rows_same {rows : Option Nat} {old : Nat} (h : rows.any (· ≠ old) = false) :
    rows.getD old = old := by
  cases rows with
  | none => rfl
  | some new => simpa using h

theorem handlePaneUpdated_resized {revision viewportRows : Option Nat}
    (h : handlePaneUpdated herdr now paneId revision viewportRows b m = (b', m')) :
    Resized herdr paneId revision viewportRows b b' m m' := by
  unfold handlePaneUpdated at h
  cases hrevision : revision with
  | none =>
    simp only [hrevision] at h
    obtain ⟨rfl, rfl⟩ := h
    exact .kept rfl nofun
  | some rev =>
    cases hw : b.watched with
    | none =>
      simp only [hrevision, hw] at h
      obtain ⟨rfl, rfl⟩ := h
      exact .kept rfl fun w hwatched => by rw [hw] at hwatched; cases hwatched
    | some w =>
      simp only [hrevision, hw] at h
      by_cases hid : w.paneId = paneId
      · cases hrows : (viewportRows.map (· % 2 ^ 32)).any (· ≠ w.viewportRows) with
        | false =>
          have hkept : ∀ w', b.watched = some w' → w'.paneId = paneId → (some rev).isSome = true →
              (viewportRows.map (· % 2 ^ 32)).any (· ≠ w'.viewportRows) = false := by
            intro w' hw' _ _
            cases hw.symm.trans hw'
            exact hrows
          simp only [hrows] at h
          split at h
          · obtain ⟨rfl, rfl⟩ := h
            exact .kept rfl hkept
          · obtain ⟨rfl, rfl⟩ := h
            refine .kept ?_ hkept
            simp only [geometry, hw, Option.map_some, Bool.false_eq_true, if_false, rows_same hrows]
        | true =>
          have hother : ¬(w.paneId ≠ paneId ∨ (w.lastRevision = rev ∧ (!true) = true)) := by
            simp [hid]
          simp only [hrows, if_neg hother, if_true, HerdrCalls.fetchWidth] at h
          cases hwidth : layoutWidth paneId (herdr.paneLayout m.log paneId) with
          | ok width =>
            simp only [hwidth] at h
            obtain ⟨rfl, rfl⟩ := h
            refine .changed w _ hw rfl hid hid (rows_changed hrows) rfl hrows (by rw [hwidth]) ?_
            intro width' heq
            cases hwidth.symm.trans heq
            rfl
          | error err =>
            simp only [hwidth] at h
            obtain ⟨rfl, rfl⟩ := h
            refine .changed w _ hw rfl hid hid (rows_changed hrows) rfl hrows (by rw [hwidth]) ?_
            intro width' heq
            cases hwidth.symm.trans heq
      · rw [if_pos (Or.inl hid)] at h
        obtain ⟨rfl, rfl⟩ := h
        refine .kept rfl fun w' hw' hid' => ?_
        cases hw.symm.trans hw'
        exact absurd hid' hid

section Steps

variable [DecidableEq Hash]

/-- What a step does to the recorded geometry. -/
inductive Told (s t : Thread Hash) : Prop
  | same : geometry t.bridge = geometry s.bridge → Told s t
  | gone : t.bridge.watched = none → Told s t
  | told : laidOut s t = true → Told s t

omit [DecidableEq Hash] in
theorem geometry_watched (h : b'.watched = b.watched) : geometry b' = geometry b := by
  unfold geometry
  rw [h]

omit [DecidableEq Hash] in
theorem laidOut_of {w : WatchedPane Hash} {calls : Log} (hw : t.bridge.watched = some w)
    (hlog : t.shared.log = s.shared.log ++ calls) (hc : .layout w.paneId (some w.width) ∈ calls) :
    laidOut s t = true := by
  unfold laidOut
  rw [hw, newCalls_eq hlog]
  exact List.contains_iff_mem.mpr hc

omit [DecidableEq Hash] in
theorem told_leave (paneId : PaneId) (h : t.bridge = leavePane paneId s.bridge) : Told s t := by
  cases held_leavePane paneId s.bridge with
  | inl hnone => exact .gone (by rw [h, hnone])
  | inr hsame => exact .same (by rw [h, hsame])

theorem told_watchPane : Told s (step joins herdr frameHash s (.watchPane now paneId)) := by
  cases hw : Watch.watchPane herdr frameHash now paneId s.bridge s.shared with
  | mk result rest =>
    obtain ⟨b', m'⟩ := rest
    cases watchPane_cases hw with
    | failed e calls hb hlog hread => exact .same (by simp [step, hw, hb])
    | read ack pane width text hb hlog =>
      refine .told ((@laidOut_of _ _ _ ⟨paneId, pane.revision, pane.scroll.viewportRows, width,
          frameHash text pane.scroll.viewportRows width⟩ [.snapshot true, .layout paneId (some width),
        .read paneId (some text)]) ?_ ?_ ?_)
      · simp [step, hw, hb, attach]
      · simp [step, hw, hlog]
      · simp

theorem told_poll : Told s (step joins herdr frameHash s (.poll now)) := by
  cases hp : pollScheduler herdr frameHash now s.bridge s.shared with
  | mk frame rest =>
    obtain ⟨b', m'⟩ := rest
    have hbridge : (step joins herdr frameHash s (.poll now)).bridge = b' := by simp [step, hp]
    refine .same ?_
    rw [hbridge]
    obtain ⟨scheduler, ⟨-, hb, -⟩ | ⟨isPoll, -, -, hread⟩⟩ := pollScheduler_cases hp
    · exact geometry_watched (by rw [hb])
    · cases hread with
      | unwatched hw hb hm => exact geometry_watched (by rw [hb])
      | failed w hw hb hlog => exact geometry_watched (by rw [hb])
      | same w text hw hb hpoll hhash hlog => exact geometry_watched (by rw [hb])
      | sent w text hw hb hne hlog =>
        have hwatched : s.bridge.watched = some w := hw
        simp [geometry, hb, hwatched]

theorem told_push {push : Push} (ha : Answered herdr s (.push now push)) :
    Told s (step joins herdr frameHash s (.push now push)) := by
  cases hs : handleSubscriptionLine joins herdr now push s.bridge s.shared with
  | mk b' m' =>
    have hbridge : (step joins herdr frameHash s (.push now push)).bridge = b' := by
      simp [step, hs]
    have hshared : (step joins herdr frameHash s (.push now push)).shared = m' := by
      simp [step, hs]
    cases push with
    | paneAgentStatusChanged paneId status =>
      unfold handleSubscriptionLine at hs
      simp only at hs
      refine .same ?_
      rw [hbridge]
      split at hs
      · exact geometry_watched (release_cases hs).2.watched
      · obtain ⟨rfl, rfl⟩ := hs
        rfl
    | paneUpdated paneId revision rows =>
      cases handlePaneUpdated_resized hs with
      | kept hsame hrows => exact .same (by rw [hbridge, hsame])
      | changed w w' hw hw' hid hid' hrows hrevision hchanged hlog hwidth =>
        have hok := ha w hw hid hrevision hchanged
        cases hlayout : layoutWidth paneId (herdr.paneLayout s.shared.log paneId) with
        | error err =>
          rw [hlayout] at hok
          cases hok
        | ok width =>
          refine .told (laidOut_of (hbridge ▸ hw') (hshared ▸ hlog) ?_)
          rw [hid', hwidth width hlayout, hlayout]
          exact List.mem_singleton.mpr rfl
    | paneClosed paneId =>
      obtain ⟨rfl, rfl⟩ := hs
      exact told_leave paneId hbridge

theorem told_step (he : own e) (ha : Answered herdr s e) :
    Told s (step joins herdr frameHash s e) := by
  cases e with
  | input now request c =>
    cases hs : serveInput joins herdr now request (some ⟨s.requests.length, c⟩) s.bridge
        s.shared with
    | mk out rest =>
      obtain ⟨b', m'⟩ := rest
      obtain ⟨ack, b₁, -, hkept, rfl, -⟩ := serveInput_outcome hs
      refine .same (geometry_watched ?_)
      simp [step, hs, hkept.watched]
  | watchPane now paneId => exact told_watchPane
  | unwatchPane paneId => exact told_leave paneId rfl
  | push now push => exact told_push ha
  | poll now => exact told_poll
  | drain => exact .same rfl
  | cancelPending => exact .same (geometry_watched (kept_cancel s.bridge).watched)
  | inactive => exact .same rfl
  | others lines calls => exact he.elim

omit [DecidableEq Hash] in
theorem watchPane_ack {ack : WatchAck} {frame : PaneFrame}
    (h : Watch.watchPane herdr frameHash now paneId b m = (.ok (ack, frame), b', m')) :
    ack.paneId = frame.paneId ∧ ack.viewportRows = frame.viewportRows ∧
      ack.width = frame.width := by
  unfold Watch.watchPane at h
  split at h
  · cases h
  · split at h
    · cases h
    · split at h
      · cases h
      · split at h
        · cases h
        · cases h
          exact ⟨rfl, rfl, rfl⟩

/-- Only `watch_pane` acknowledges. -/
theorem acks_fit {ack : WatchAck} {frame : PaneFrame}
    (h : .watched ack frame ∈ (step joins herdr frameHash s e).trace.drop s.trace.length) :
    ack.paneId = frame.paneId ∧ ack.viewportRows = frame.viewportRows ∧
      ack.width = frame.width := by
  have hadded : ∀ {new : List Action}, (step joins herdr frameHash s e).trace = s.trace ++ new →
      .watched ack frame ∈ new := by
    intro new htrace
    rw [htrace, List.drop_left] at h
    exact h
  have hsent : ∀ {ticket : Option Ticket} {before after : Log},
      .watched ack frame ∉ sentFor ticket before after := by
    intro ticket before after hmem
    obtain ⟨⟨send, ok⟩, -, heq⟩ := List.mem_map.mp hmem
    cases heq
  have hreplies : ∀ {out : List (Reply Ticket)}, .watched ack frame ∉ replies out := by
    intro out hmem
    obtain ⟨⟨reply, ticket⟩, -, heq⟩ := List.mem_map.mp hmem
    cases heq
  cases e with
  | input now request c =>
    cases List.mem_append.mp (hadded (List.append_assoc ..)) with
    | inl hmem => exact absurd hmem hsent
    | inr hmem => exact absurd hmem hreplies
  | watchPane now paneId =>
    cases hw : Watch.watchPane herdr frameHash now paneId s.bridge s.shared with
    | mk result rest =>
      obtain ⟨b', m'⟩ := rest
      cases result with
      | error err =>
        have hmem := (@hadded []) (by simp [step, hw])
        cases hmem
      | ok out =>
        obtain ⟨ack', frame'⟩ := out
        have hmem := (@hadded [.watched ack' frame']) (by simp [step, hw])
        cases List.mem_singleton.mp hmem
        exact watchPane_ack hw
  | unwatchPane paneId => cases hadded (List.append_nil _).symm
  | push now push => exact absurd (hadded rfl) hsent
  | poll now =>
    obtain ⟨frame', -, heq⟩ := List.mem_map.mp (hadded rfl)
    cases heq
  | drain => exact absurd (hadded rfl) hreplies
  | cancelPending => cases hadded (List.append_nil _).symm
  | inactive => cases hadded (List.append_nil _).symm
  | others lines calls => cases hadded (List.append_nil _).symm

/-- The frames of a step have the geometry that is recorded after it. -/
theorem frames_recorded {f : PaneFrame}
    (h : f ∈ newFrames handedOut s (step joins herdr frameHash s e)) :
    ∃ w, (step joins herdr frameHash s e).bridge.watched = some w ∧ f.paneId = w.paneId ∧
      f.viewportRows = w.viewportRows ∧ f.width = w.width := by
  have hshown : ∀ {frame : PaneFrame} {w : WatchedPane Hash} {a : Action},
      handedOut a = some frame → (step joins herdr frameHash s e).trace = s.trace ++ [a] →
      (step joins herdr frameHash s e).bridge.watched = some w → w.paneId = frame.paneId →
      Shows frame frame.text w →
      ∃ w, (step joins herdr frameHash s e).bridge.watched = some w ∧ f.paneId = w.paneId ∧
        f.viewportRows = w.viewportRows ∧ f.width = w.width := by
    intro frame w a ha htrace hw hid hs
    rw [newFrames_eq [a] htrace, List.filterMap_cons_some ha] at h
    cases List.mem_singleton.mp h
    obtain ⟨-, hgeometry⟩ := Prod.mk.inj hs
    obtain ⟨hrows, hwidth⟩ := Prod.mk.inj hgeometry
    exact ⟨w, hw, hid.symm, hrows, hwidth⟩
  by_cases he : own e
  · cases (@screen_step _ joins herdr frameHash s) e he with
    | kept extra hlog htrace hnone hheld =>
      rw [newFrames_eq extra htrace, hnone] at h
      cases h
    | left hlog htrace hw =>
      rw [newFrames_none htrace] at h
      cases h
    | opened ack frame w hpoll hlog htrace hw hid hs hhash => exact hshown rfl htrace hw hid hs
    | same w text hlog htrace hw hw' hhash =>
      rw [newFrames_none htrace] at h
      cases h
    | put w w' frame hlog htrace hw hw' hid hid' hs hhash hne =>
      exact hshown rfl htrace hw' hid' hs
  · cases e with
    | others lines calls =>
      have hnone :
          newFrames handedOut s (step joins herdr frameHash s (.others lines calls)) = [] :=
        newFrames_none rfl
      rw [hnone] at h
      cases h
    | _ => exact absurd trivial he

theorem obtained_step (hwas : s.bridge.watched.isSome = true → was = true)
    (ha : Answered herdr s e)
    (hw : (step joins herdr frameHash s e).bridge.watched.isSome = true) :
    obtained was s e (step joins herdr frameHash s e) = true := by
  by_cases he : own e
  · have hobtained : obtained was s e (step joins herdr frameHash s e) =
        (laidOut s (step joins herdr frameHash s e) || (was &&
          decide (geometry (step joins herdr frameHash s e).bridge = geometry s.bridge))) := by
      cases e with
      | others lines calls => exact he.elim
      | _ => rfl
    rw [hobtained]
    cases (@told_step _ joins _ frameHash) he ha with
    | same hsame =>
      have hwatched : s.bridge.watched.isSome = true := by
        have hmap := congrArg Option.isSome hsame
        rw [geometry, geometry, Option.isSome_map, Option.isSome_map] at hmap
        rw [← hmap]
        exact hw
      rw [hwas hwatched, decide_eq_true hsame]
      exact Bool.or_true _
    | gone hnone =>
      rw [hnone] at hw
      cases hw
    | told htold => rw [htold, Bool.true_or]
  · cases e with
    | others lines calls => exact hwas hw
    | _ => exact absurd trivial he

/-- After a `pane.layout` call that failed the rows are new and the width is not theirs. -/
theorem unanswered_step (ha : ¬Answered herdr s e) :
    obtained was s e (step joins herdr frameHash s e) = false ∧
      (step joins herdr frameHash s e).bridge.watched.isSome = true := by
  cases e with
  | push now push =>
    cases push with
    | paneUpdated paneId revision rows =>
      cases hs : handleSubscriptionLine joins herdr now (.paneUpdated paneId revision rows) s.bridge
          s.shared with
      | mk b' m' =>
        have hbridge : (step joins herdr frameHash s
            (.push now (.paneUpdated paneId revision rows))).bridge = b' := by
          simp [step, hs]
        have hshared : (step joins herdr frameHash s
            (.push now (.paneUpdated paneId revision rows))).shared = m' := by
          simp [step, hs]
        cases handlePaneUpdated_resized hs with
        | kept hsame hrows =>
          refine absurd ?_ ha
          intro w hw hid hrevision hchanged
          rw [hrows w hw hid hrevision] at hchanged
          cases hchanged
        | changed w w' hw hw' hid hid' hrows hrevision hchanged hlog hwidth =>
          have hfailed :
              (layoutWidth paneId (herdr.paneLayout s.shared.log paneId)).toOption = none := by
            cases hlayout : layoutWidth paneId (herdr.paneLayout s.shared.log paneId) with
            | error err => rfl
            | ok width =>
              refine absurd ?_ ha
              intro w'' hw'' _ _ _
              rw [hlayout]
              rfl
          rw [hfailed] at hlog
          have hother : geometry b' ≠ geometry s.bridge := by
            simp [geometry, hw, hw', hrows]
          refine ⟨?_, by rw [hbridge, hw']; rfl⟩
          change (laidOut s _ || (was && decide _)) = false
          rw [laidOut, hbridge, hw', newCalls_eq (hshared ▸ hlog), decide_eq_false hother]
          simp
    | paneAgentStatusChanged paneId status => exact absurd trivial ha
    | paneClosed paneId => exact absurd trivial ha
  | _ => exact absurd trivial ha

end Steps

section Runs

variable [DecidableEq Hash]

/-- In a run where every `pane.layout` call for changed rows succeeds, every frame and every
acknowledgement has a width told for its rows. A call that fails leaves a width that is not. -/
theorem widths_fit (joins : Graphemes) (herdr : HerdrCalls) (frameHash : FrameHash Hash)
    (config : RelayConfig) (es : List Event) :
    ((∀ o e o', Occurs (Observed.step joins herdr frameHash) (.start config) es o e o' →
        Answered herdr o.thread e) →
      ∀ o e o', Occurs (Observed.step joins herdr frameHash) (.start config) es o e o' →
        Fitting o o') ∧
    ∀ o e o', Occurs (Observed.step joins herdr frameHash) (.start config) es o e o' →
      ¬Answered herdr o.thread e →
      o'.obtained = false ∧ o'.thread.bridge.watched.isSome = true := by
  constructor
  · intro hanswered o e o' ho
    have hinv : ∀ {o : Observed Hash},
        Visits (Observed.step joins herdr frameHash) (.start config) es o →
        o.thread.bridge.watched.isSome = true → o.obtained = true := by
      refine visits_invariant
        (fun o : Observed Hash => o.thread.bridge.watched.isSome = true → o.obtained = true)
        nofun ?_
      intro o e o' hwas ho hw
      have hstep := ho.step_eq
      cases hstep
      exact obtained_step hwas (hanswered _ _ _ ho) hw
    have hstep := ho.step_eq
    have hafter := hinv ho.after
    cases hstep
    constructor
    · intro f hf
      obtain ⟨w, hw, hgeometry⟩ := frames_recorded hf
      exact ⟨hafter (by rw [hw]; rfl), w, hw, hgeometry⟩
    · intro ack frame hmem
      exact acks_fit hmem
  · intro o e o' ho hfailed
    have hstep := ho.step_eq
    cases hstep
    exact unanswered_step hfailed

end Runs

/-- `pane.layout` fails once, with the fourth call, and tells another width after it. -/
def flaky : HerdrCalls where
  send := fun _ _ => true
  sessionSnapshot := fun _ => .ok ⟨[⟨pane, 1, ⟨0, 0, 24⟩⟩], []⟩
  paneLayout := fun log _ =>
    if log.length = 3 then none
    else some [⟨some pane, some (if log.length ≤ 3 then 80 else 120)⟩]
  paneReadVisible := fun _ _ => some (some "$".toList)

/-- The pane grows to 30 rows, which is told twice, and is read. -/
def resizing : List Event :=
  [.watchPane 0 pane, .push 1 (.paneUpdated pane (some 2) (some 30)),
    .push 2 (.paneUpdated pane (some 3) (some 30)), .poll (10 * second)]

theorem widths_fit_answered :
    (∀ o e o', Occurs (Observed.step alone changing plainHash) (.start timing) resizing o e o' →
      Fitting o o') ∧
    ∃ o e o', Occurs (Observed.step alone changing plainHash) (.start timing) resizing o e o' ∧
      newFrames handedOut o.thread o'.thread = [⟨pane, 3, 30, 80, "$ ls".toList⟩] := by
  have hall := widths_fit alone changing plainHash timing resizing
  refine ⟨hall.1 ?_, ?_⟩
  · intro o e o' ho
    cases e with
    | push now push =>
      cases push with
      | paneUpdated paneId revision rows =>
        obtain ⟨pre, post, hes, -, -⟩ := ho
        have hpane : paneId = pane := by
          have hmem : .push now (.paneUpdated paneId revision rows) ∈ resizing := by simp [hes]
          simp only [resizing, List.mem_cons, List.not_mem_nil, Event.push.injEq,
            Push.paneUpdated.injEq, reduceCtorEq, false_or, or_false] at hmem
          obtain ⟨-, h, -⟩ | ⟨-, h, -⟩ := hmem
          · exact h
          · exact h
        intro w _ _ _ _
        rw [hpane]
        rfl
      | paneAgentStatusChanged paneId status => trivial
      | paneClosed paneId => trivial
    | _ => trivial
  · exact ⟨_, _, _, (@occurs_last _ _ _ _ _ _ _ resizing.dropLast) rfl rfl, by decide⟩

/-- The first width goes out with the new rows, although a second push has told them again. -/
theorem width_kept_old :
    ¬∀ o e o', Occurs (Observed.step alone flaky plainHash) (.start timing) resizing o e o' →
      Fitting o o' := by
  intro h
  have hfit := h _ _ _ ((@occurs_last _ _ _ _ _ _ _ resizing.dropLast) rfl rfl)
  have hframe := (hfit.frames ⟨pane, 3, 30, 80, "$".toList⟩ (by decide)).1
  exact absurd hframe (by decide)

end HerdrMobile.Host.Geometry
