import HerdrMobile.Host.Held

/-!
# The watched pane

Attaching to a pane, what the bridge does with a push of the subscription, and
the reads that the scheduler orders. The hash of a frame is a parameter.
-/
namespace HerdrMobile.Host.Watch

open HerdrMobile.Proto.Messages
open HerdrMobile.Host.Herdr HerdrMobile.Host.Scheduler HerdrMobile.Host.Input HerdrMobile.Host.Held

set_option autoImplicit false

variable {Hash Corr : Type} {joins : Graphemes} {herdr : HerdrCalls} {now : Nat} {paneId : PaneId}
  {b b' : Bridge Hash Corr} {m m' : Shared}

/-- `frame_hash`: of a frame's text, rows and width. -/
abbrev FrameHash (Hash : Type) := Text → Nat → Nat → Hash

def newScheduler (config : RelayConfig) (now : Nat) : PaneScheduler :=
  .new (millis config.debounceMs) (millis config.pollMs) (config.inputReadMs.map millis)
    config.maxReadsPerSecond now

/-- The pane is watched from here on, with a fresh scheduler. -/
def attach (frameHash : FrameHash Hash) (now : Nat) (pane : RawPane) (width : Nat) (text : Text)
    (b : Bridge Hash Corr) : Bridge Hash Corr :=
  { b with
    watched := some
      { paneId := pane.paneId
        lastRevision := pane.revision
        viewportRows := pane.scroll.viewportRows
        width := width
        lastFrameHash := frameHash text pane.scroll.viewportRows width }
    scheduler := some (newScheduler b.config now) }

/-- The bridge that goes on to watch a pane. -/
def switching (paneId : PaneId) (b : Bridge Hash Corr) : Bridge Hash Corr :=
  if b.watched.any (·.paneId ≠ paneId) then b.cancelPendingInputs else b

def watchPane (herdr : HerdrCalls) (frameHash : FrameHash Hash) (now : Nat) (paneId : PaneId)
    (b : Bridge Hash Corr) (m : Shared) :
    Except WatchError (WatchAck × PaneFrame) × Bridge Hash Corr × Shared :=
  match herdr.fetchSnapshot m.log with
  | (.error e, log) => (.error e, b, { m with log := log })
  | (.ok raw, log) =>
    match raw.panes.find? fun p => p.paneId == paneId with
    | none => (.error (.paneNotInSnapshot paneId), b, { m with log := log })
    | some pane =>
      match herdr.fetchWidth paneId log with
      | (.error e, log) => (.error e, b, { m with log := log })
      | (.ok width, log) =>
        match herdr.fetchVisibleText paneId log with
        | (.error e, log) => (.error e, b, { m with log := log })
        | (.ok text, log) =>
          let b := switching paneId b
          let rows := pane.scroll.viewportRows
          let ack : WatchAck :=
            { paneId := paneId
              line := m.inputLines paneId
              revision := pane.revision
              viewportRows := rows
              width := width
              scroll := ⟨pane.scroll.offsetFromBottom, pane.scroll.maxOffsetFromBottom⟩ }
          let frame : PaneFrame := ⟨paneId, pane.revision, rows, width, text⟩
          (.ok (ack, frame), attach frameHash now { pane with paneId := paneId } width text b,
            { m with log := log })

/-- What `unwatch_pane` and a `pane_closed` push do: nothing for another pane. -/
def leavePane (paneId : PaneId) (b : Bridge Hash Corr) : Bridge Hash Corr :=
  if b.watched.any (·.paneId == paneId) then
    { b.cancelPendingInputs with watched := none, scheduler := none }
  else b

def unwatchPane (paneId : PaneId) (b : Bridge Hash Corr) : Bridge Hash Corr := leavePane paneId b

/-- The pushes that touch the watched pane or a held submit. A field that is missing
or of another type is `none`. -/
inductive Push where
  | paneAgentStatusChanged (paneId : PaneId) (agentStatus : Option Text)
  | paneUpdated (paneId : PaneId) (revision viewportRows : Option Nat)
  | paneClosed (paneId : PaneId)
  deriving DecidableEq

def handlePaneUpdated (herdr : HerdrCalls) (now : Nat) (paneId : PaneId)
    (revision viewportRows : Option Nat) (b : Bridge Hash Corr) (m : Shared) :
    Bridge Hash Corr × Shared :=
  match revision, b.watched with
  | some revision, some watched =>
    let newRows := viewportRows.map (· % 2 ^ 32)
    let rowsChanged := newRows.any (· ≠ watched.viewportRows)
    if watched.paneId ≠ paneId ∨ (watched.lastRevision = revision ∧ !rowsChanged) then (b, m)
    else
      let watched :=
        { watched with
          lastRevision := revision
          viewportRows := newRows.getD watched.viewportRows }
      let (watched, m) :=
        if rowsChanged then
          match herdr.fetchWidth paneId m.log with
          | (.ok width, log) => ({ watched with width := width }, { m with log := log })
          | (.error _, log) => (watched, { m with log := log })
        else (watched, m)
      ({ b with
          watched := some watched
          scheduler := b.scheduler.map (·.onRevisionChanged now) }, m)
  | _, _ => (b, m)

def handleSubscriptionLine (joins : Graphemes) (herdr : HerdrCalls) (now : Nat) (push : Push)
    (b : Bridge Hash Corr) (m : Shared) : Bridge Hash Corr × Shared :=
  match push with
  | .paneAgentStatusChanged paneId agentStatus =>
    if agentStatus.any (· ≠ "working".toList) then releasePendingInput joins herdr now paneId b m
    else (b, m)
  | .paneUpdated paneId revision viewportRows =>
    handlePaneUpdated herdr now paneId revision viewportRows b m
  | .paneClosed paneId => (leavePane paneId b, m)

/-- The read that a due timer orders: a frame, unless the read failed or a poll read
found what was sent last. -/
def readFrame [DecidableEq Hash] (herdr : HerdrCalls) (frameHash : FrameHash Hash) (isPoll : Bool)
    (b : Bridge Hash Corr) (m : Shared) : Option PaneFrame × Bridge Hash Corr × Shared :=
  match b.watched with
  | none => (none, b, m)
  | some watched =>
    match herdr.fetchVisibleText watched.paneId m.log with
    | (.error _, log) => (none, b, { m with log := log })
    | (.ok text, log) =>
      let hash := frameHash text watched.viewportRows watched.width
      if isPoll && hash = watched.lastFrameHash then (none, b, { m with log := log })
      else
        let frame : PaneFrame :=
          ⟨watched.paneId, watched.lastRevision, watched.viewportRows, watched.width, text⟩
        (some frame, { b with watched := some { watched with lastFrameHash := hash } },
          { m with log := log })

def pollScheduler [DecidableEq Hash] (herdr : HerdrCalls) (frameHash : FrameHash Hash) (now : Nat)
    (b : Bridge Hash Corr) (m : Shared) : Option PaneFrame × Bridge Hash Corr × Shared :=
  match b.scheduler with
  | none => (none, b, m)
  | some scheduler =>
    let (outcome, scheduler) := scheduler.fire now
    let b := { b with scheduler := some scheduler }
    match outcome with
    | none | some .rateLimited => (none, b, m)
    | some .read => readFrame herdr frameHash false b m
    | some .pollRead => readFrame herdr frameHash true b m

variable {frameHash : FrameHash Hash}

/-- The calls contain no read that succeeded. -/
def NoRead (calls : Log) : Prop := ∀ p text, .read p (some text) ∉ calls

/-- A failed attach changes nothing; one that succeeds has read the pane. -/
inductive Attached (frameHash : FrameHash Hash) (now : Nat) (paneId : PaneId)
    (b b' : Bridge Hash Corr) (m m' : Shared) : Except WatchError (WatchAck × PaneFrame) → Prop
  | failed (e : WatchError) (calls : Log) : b' = b → m'.log = m.log ++ calls → NoRead calls →
      Attached frameHash now paneId b b' m m' (.error e)
  | read (ack : WatchAck) (pane : RawPane) (width : Nat) (text : Text) :
      b' = attach frameHash now { pane with paneId := paneId } width text (switching paneId b) →
      m'.log = m.log ++ [.snapshot true, .layout paneId (some width), .read paneId (some text)] →
      Attached frameHash now paneId b b' m m'
        (.ok (ack, ⟨paneId, pane.revision, pane.scroll.viewportRows, width, text⟩))

theorem watchPane_cases {result : Except WatchError (WatchAck × PaneFrame)}
    (h : watchPane herdr frameHash now paneId b m = (result, b', m')) :
    Attached frameHash now paneId b b' m m' result := by
  unfold watchPane HerdrCalls.fetchSnapshot at h
  cases hs : herdr.sessionSnapshot m.log with
  | error e =>
    simp only [hs] at h
    obtain ⟨rfl, rfl, rfl⟩ := h
    exact .failed e _ rfl rfl (by simp [NoRead])
  | ok raw =>
    simp only [hs, HerdrCalls.fetchWidth] at h
    cases hf : raw.panes.find? fun p => p.paneId == paneId with
    | none =>
      simp only [hf] at h
      obtain ⟨rfl, rfl, rfl⟩ := h
      exact .failed _ _ rfl rfl (by simp [NoRead])
    | some pane =>
      simp only [hf] at h
      cases hw : layoutWidth paneId
          (herdr.paneLayout (m.log ++ [.snapshot (Except.ok (ε := WatchError) raw).isOk]) paneId) with
      | error e =>
        simp only [hw] at h
        obtain ⟨rfl, rfl, rfl⟩ := h
        exact .failed e _ rfl (List.append_assoc ..) (by simp [NoRead, Except.toOption])
      | ok width =>
        simp only [hw, HerdrCalls.fetchVisibleText] at h
        split at h
        · rename_i hpair
          obtain ⟨hr, rfl⟩ := Prod.mk.inj hpair
          obtain ⟨rfl, rfl, rfl⟩ := h
          refine .failed _ _ rfl (by rw [hr, List.append_assoc, List.append_assoc]) ?_
          simp [NoRead, Except.toOption]
        · rename_i hpair
          obtain ⟨hr, rfl⟩ := Prod.mk.inj hpair
          obtain ⟨rfl, rfl, rfl⟩ := h
          refine .read _ pane width _ rfl ?_
          rw [hr, List.append_assoc, List.append_assoc]
          rfl

/-- A push that is of no interest, or one after which the pane has another revision or
geometry and a read is due. -/
inductive Updated (b b' : Bridge Hash Corr) (m m' : Shared) : Prop
  | ignored : b' = b → m' = m → Updated b b' m m'
  | noticed (watched watched' : WatchedPane Hash) (calls : Log) : b.watched = some watched →
      b' = { b with watched := some watched', scheduler := b'.scheduler } →
      watched'.paneId = watched.paneId → watched'.lastFrameHash = watched.lastFrameHash →
      m'.log = m.log ++ calls → (∀ e ∈ calls, ∃ p width, e = .layout p width) → Updated b b' m m'

theorem handlePaneUpdated_cases {revision viewportRows : Option Nat}
    (h : handlePaneUpdated herdr now paneId revision viewportRows b m = (b', m')) :
    Updated b b' m m' := by
  unfold handlePaneUpdated at h
  split at h
  · rename_i revision watched hw
    simp only at h
    split at h
    · obtain ⟨rfl, rfl⟩ := h
      exact .ignored rfl rfl
    · split at h
      · unfold HerdrCalls.fetchWidth at h
        cases hl : layoutWidth paneId (herdr.paneLayout m.log paneId) with
        | ok width | error e =>
          simp only [hl] at h
          obtain ⟨rfl, rfl⟩ := h
          exact .noticed _ _ _ hw rfl rfl rfl rfl (by simp)
      · obtain ⟨rfl, rfl⟩ := h
        exact .noticed _ _ [] hw rfl rfl rfl (List.append_nil _).symm (by simp)
  · obtain ⟨rfl, rfl⟩ := h
    exact .ignored rfl rfl

/-- A read of the watched pane: none, or one that fails, shows what was sent last, or
is sent. -/
inductive FrameRead (frameHash : FrameHash Hash) (isPoll : Bool) (b b' : Bridge Hash Corr)
    (m m' : Shared) : Option PaneFrame → Prop
  | unwatched : b.watched = none → b' = b → m' = m → FrameRead frameHash isPoll b b' m m' none
  | failed (w : WatchedPane Hash) : b.watched = some w → b' = b →
      m'.log = m.log ++ [.read w.paneId none] → FrameRead frameHash isPoll b b' m m' none
  | same (w : WatchedPane Hash) (text : Text) : b.watched = some w → b' = b → isPoll = true →
      frameHash text w.viewportRows w.width = w.lastFrameHash →
      m'.log = m.log ++ [.read w.paneId (some text)] → FrameRead frameHash isPoll b b' m m' none
  | sent (w : WatchedPane Hash) (text : Text) : b.watched = some w →
      b' = { b with
        watched := some { w with lastFrameHash := frameHash text w.viewportRows w.width } } →
      (isPoll = true → frameHash text w.viewportRows w.width ≠ w.lastFrameHash) →
      m'.log = m.log ++ [.read w.paneId (some text)] →
      FrameRead frameHash isPoll b b' m m'
        (some ⟨w.paneId, w.lastRevision, w.viewportRows, w.width, text⟩)

section Reads

variable [DecidableEq Hash] {frame : Option PaneFrame}

theorem readFrame_cases {isPoll : Bool}
    (h : readFrame herdr frameHash isPoll b m = (frame, b', m')) :
    FrameRead frameHash isPoll b b' m m' frame := by
  unfold readFrame HerdrCalls.fetchVisibleText at h
  cases hw : b.watched with
  | none =>
    simp only [hw] at h
    obtain ⟨rfl, rfl, rfl⟩ := h
    exact .unwatched hw rfl rfl
  | some w =>
    simp only [hw] at h
    cases hr : readText (herdr.paneReadVisible m.log w.paneId) with
    | error e =>
      simp only [hr] at h
      obtain ⟨rfl, rfl, rfl⟩ := h
      exact .failed w hw rfl rfl
    | ok text =>
      simp only [hr] at h
      split at h
      · rename_i hc
        obtain ⟨hpoll, hhash⟩ := Bool.and_eq_true_iff.mp hc
        obtain ⟨rfl, rfl, rfl⟩ := h
        exact .same w text hw rfl hpoll (of_decide_eq_true hhash) rfl
      · rename_i hc
        obtain ⟨rfl, rfl, rfl⟩ := h
        refine .sent w text hw rfl ?_ rfl
        intro hpoll hhash
        exact hc (by rw [hpoll, hhash]; simp)

/-- A wake of the scheduler: no read is ordered, or one is made. -/
theorem pollScheduler_cases (h : pollScheduler herdr frameHash now b m = (frame, b', m')) :
    ∃ scheduler, (frame = none ∧ b' = { b with scheduler := scheduler } ∧ m' = m) ∨
      ∃ isPoll, (isPoll = true → (b.scheduler.bind fun s => (s.fire now).1) = some .pollRead) ∧
        (isPoll = false → (b.scheduler.bind fun s => (s.fire now).1) = some .read) ∧
        FrameRead frameHash isPoll { b with scheduler := scheduler } b' m m' frame := by
  unfold pollScheduler at h
  cases hs : b.scheduler with
  | none =>
    simp only [hs] at h
    obtain ⟨rfl, rfl, rfl⟩ := h
    exact ⟨none, Or.inl ⟨rfl, by rw [← hs], rfl⟩⟩
  | some s =>
    simp only [hs] at h
    refine ⟨some (s.fire now).2, ?_⟩
    cases hf : (s.fire now).1 with
    | none =>
      simp only [hf] at h
      obtain ⟨rfl, rfl, rfl⟩ := h
      exact Or.inl ⟨rfl, rfl, rfl⟩
    | some outcome =>
      cases outcome with
      | rateLimited =>
        simp only [hf] at h
        obtain ⟨rfl, rfl, rfl⟩ := h
        exact Or.inl ⟨rfl, rfl, rfl⟩
      | read =>
        simp only [hf] at h
        exact Or.inr ⟨false, fun h => absurd h (by decide), fun _ => hf, readFrame_cases h⟩
      | pollRead =>
        simp only [hf] at h
        exact Or.inr ⟨true, fun _ => hf, fun h => absurd h (by decide), readFrame_cases h⟩

end Reads

end HerdrMobile.Host.Watch
