import HerdrMobile.Host.Calls
import HerdrMobile.Host.HeldSteps

/-!
# No lost screen change

The hash that the bridge keeps is that of the last frame it handed out for the
watched pane. Only a read that succeeded changes it, together with the frame.
-/
namespace HerdrMobile.Host.Frames

open HerdrMobile.Proto.Messages
open HerdrMobile.Host.Herdr HerdrMobile.Host.Scheduler HerdrMobile.Host.Input HerdrMobile.Host.Held
open HerdrMobile.Host.Calls HerdrMobile.Host.Watch HerdrMobile.Host.Session HerdrMobile.Host.HeldSteps

set_option autoImplicit false

variable {Hash Corr : Type} {joins : Graphemes} {herdr : HerdrCalls} {frameHash : FrameHash Hash}
  {now : Nat} {paneId p : PaneId} {text : Text} {b b' : Bridge Hash Corr} {m m' : Shared}
  {s s' : Thread Hash} {trace extra : List Action}

/-- The calls read no pane. -/
def Unread (before after : Log) : Prop := Grows (fun e => ∀ p text, e ≠ .read p (some text)) before after

theorem unread_refl (log : Log) : Unread log log := grows_refl log

theorem unread_calls {calls : Log} {log log' : Log} (h : log' = log ++ calls) (hc : NoRead calls) :
    Unread log log' := ⟨calls, h, fun _ he p text hr => hc p text (hr ▸ he)⟩

/-- A frame that `watch_pane` returned or that was put in the latest slot. -/
def handedOut : Action → Option PaneFrame
  | .watched _ frame => some frame
  | .put frame => some frame
  | _ => none

def inSlot : Action → Option PaneFrame
  | .put frame => some frame
  | _ => none

def lastFrame (select : Action → Option PaneFrame) (paneId : PaneId) (trace : List Action) :
    Option PaneFrame :=
  ((trace.filterMap select).filter fun frame => frame.paneId == paneId).getLast?

/-- Text, rows and width. -/
def screen (frame : PaneFrame) : Text × Nat × Nat := (frame.text, frame.viewportRows, frame.width)

/-- The frame shows a text in the geometry of a watched pane. -/
def Shows (frame : PaneFrame) (text : Text) (w : WatchedPane Hash) : Prop :=
  screen frame = (text, w.viewportRows, w.width)

def Injects (frameHash : FrameHash Hash) : Prop :=
  Function.Injective fun shown : Text × Nat × Nat => frameHash shown.1 shown.2.1 shown.2.2

theorem lastFrame_same {select : Action → Option PaneFrame} (h : extra.filterMap select = []) :
    lastFrame select paneId (trace ++ extra) = lastFrame select paneId trace := by
  unfold lastFrame
  rw [List.filterMap_append, h, List.append_nil]

theorem lastFrame_snoc {select : Action → Option PaneFrame} {a : Action} {frame : PaneFrame}
    (h : select a = some frame) : lastFrame select frame.paneId (trace ++ [a]) = some frame := by
  unfold lastFrame
  rw [List.filterMap_append, List.filter_append]
  simp [h]

theorem sentFor_handedOut (ticket : Option Ticket) (before after : Log) :
    (sentFor ticket before after).filterMap handedOut = [] := by
  unfold sentFor
  rw [List.filterMap_eq_nil_iff]
  intro a ha
  obtain ⟨⟨send, ok⟩, -, rfl⟩ := List.mem_map.mp ha
  rfl

theorem replies_handedOut (out : List (Reply Ticket)) :
    (replies out).filterMap handedOut = [] := by
  unfold replies
  rw [List.filterMap_eq_nil_iff]
  intro a ha
  obtain ⟨⟨ack, ticket⟩, -, rfl⟩ := List.mem_map.mp ha
  rfl

/-- The pane and the hash of its last frame. -/
def held (b : Bridge Hash Corr) : Option (PaneId × Hash) :=
  b.watched.map fun w => (w.paneId, w.lastFrameHash)

/-- What a step does to the screen of the Device. -/
inductive Screen (frameHash : FrameHash Hash) (polled : Prop) (s s' : Thread Hash) : Prop
  | kept (extra : List Action) : Unread s.shared.log s'.shared.log → s'.trace = s.trace ++ extra →
      extra.filterMap handedOut = [] → held s'.bridge = held s.bridge → Screen frameHash polled s s'
  | left : s'.shared.log = s.shared.log → s'.trace = s.trace → s'.bridge.watched = none →
      Screen frameHash polled s s'
  | opened (ack : WatchAck) (frame : PaneFrame) (w : WatchedPane Hash) : ¬polled →
      s'.shared.log = s.shared.log ++
        [.snapshot true, .layout frame.paneId (some frame.width), .read frame.paneId (some frame.text)] →
      s'.trace = s.trace ++ [.watched ack frame] → s'.bridge.watched = some w →
      w.paneId = frame.paneId → Shows frame frame.text w →
      w.lastFrameHash = frameHash frame.text w.viewportRows w.width → Screen frameHash polled s s'
  | same (w : WatchedPane Hash) (text : Text) :
      s'.shared.log = s.shared.log ++ [.read w.paneId (some text)] → s'.trace = s.trace →
      s.bridge.watched = some w → s'.bridge.watched = some w →
      frameHash text w.viewportRows w.width = w.lastFrameHash → Screen frameHash polled s s'
  | put (w w' : WatchedPane Hash) (frame : PaneFrame) :
      s'.shared.log = s.shared.log ++ [.read frame.paneId (some frame.text)] →
      s'.trace = s.trace ++ [.put frame] → s.bridge.watched = some w →
      s'.bridge.watched = some w' → w.paneId = frame.paneId → w'.paneId = frame.paneId →
      Shows frame frame.text w' →
      w'.lastFrameHash = frameHash frame.text w'.viewportRows w'.width →
      (polled → w'.lastFrameHash ≠ w.lastFrameHash) → Screen frameHash polled s s'

section Steps

variable [DecidableEq Hash]

/-- The step is the one of a poll read or an input read. -/
def polls (s : Thread Hash) : Event → Prop
  | .poll now => (s.bridge.scheduler.bind fun scheduler => (scheduler.fire now).1) = some .pollRead
  | _ => False

/-- The events of the session itself. -/
def own : Event → Prop
  | .others _ _ => False
  | _ => True

omit [DecidableEq Hash] in
theorem held_leavePane (paneId : PaneId) (b : Bridge Hash Corr) :
    (leavePane paneId b).watched = none ∨ leavePane paneId b = b := by
  unfold leavePane
  split
  · exact Or.inl rfl
  · exact Or.inr rfl

theorem screen_input (request : SendInput) (c : Option Text) (polled : Prop) :
    Screen frameHash polled s (step joins herdr frameHash s (.input now request c)) := by
  cases hs : serveInput joins herdr now request (some ⟨s.requests.length, c⟩) s.bridge s.shared with
  | mk out rest =>
    obtain ⟨b', m'⟩ := rest
    obtain ⟨ack, b₁, -, hkept, rfl, -⟩ := serveInput_outcome hs
    have hstep : (step joins herdr frameHash s (.input now request c)).trace
        = s.trace ++ (sentFor (some ⟨s.requests.length, c⟩) s.shared.log m'.log ++ replies out) := by
      simp [step, hs]
    refine .kept _ ?_ hstep ?_ ?_
    · have hread : Unread s.shared.log m'.log := serveInput_grows (by simp) (by simp) hs
      simpa [step, hs] using hread
    · rw [List.filterMap_append, sentFor_handedOut, replies_handedOut]
      rfl
    · simp [step, hs, held, hkept.watched]

theorem screen_watchPane : Screen frameHash (polls s (.watchPane now paneId)) s
    (step joins herdr frameHash s (.watchPane now paneId)) := by
  cases hw : Watch.watchPane herdr frameHash now paneId s.bridge s.shared with
  | mk result rest =>
    obtain ⟨b', m'⟩ := rest
    have hcases := watchPane_cases hw
    cases hcases with
    | failed e calls hb hlog hread =>
      refine .kept [] ?_ ?_ rfl ?_
      · exact unread_calls (by simp [step, hw, hlog]) hread
      · simp [step, hw]
      · simp [step, hw, hb]
    | read ack pane width text hb hlog =>
      have hwatched : (step joins herdr frameHash s (.watchPane now paneId)).bridge = b' := by
        simp [step, hw]
      refine .opened ack ⟨paneId, pane.revision, pane.scroll.viewportRows, width, text⟩
        ⟨paneId, pane.revision, pane.scroll.viewportRows, width,
          frameHash text pane.scroll.viewportRows width⟩ id ?_ ?_ ?_ rfl rfl rfl
      · simp [step, hw, hlog]
      · simp [step, hw]
      · rw [hwatched, hb]
        rfl

omit [DecidableEq Hash] in
/-- A push reads nothing, and it changes no hash unless it ends the watch. -/
theorem push_held {push : Push}
    (h : handleSubscriptionLine joins herdr now push b m = (b', m')) :
    (Unread m.log m'.log ∧ held b' = held b) ∨ (m' = m ∧ b'.watched = none) := by
  cases push with
  | paneAgentStatusChanged paneId status =>
    unfold handleSubscriptionLine at h
    simp only at h
    split at h
    · obtain ⟨-, hkept⟩ := release_cases h
      refine Or.inl ⟨release_grows (by simp) h, ?_⟩
      unfold held
      rw [hkept.watched]
    · obtain ⟨rfl, rfl⟩ := h
      exact Or.inl ⟨unread_refl _, rfl⟩
  | paneUpdated paneId revision rows =>
    have hcases := handlePaneUpdated_cases h
    cases hcases with
    | ignored hb hm =>
      rw [hb, hm]
      exact Or.inl ⟨unread_refl _, rfl⟩
    | noticed w w' calls hw hb hid hhash hlog hcalls =>
      refine Or.inl ⟨unread_calls hlog ?_, ?_⟩
      · intro p text hmem
        obtain ⟨q, width, he⟩ := hcalls _ hmem
        exact absurd he (by simp)
      · rw [hb]
        simp [held, hw, hid, hhash]
  | paneClosed paneId =>
    obtain ⟨rfl, rfl⟩ := h
    cases held_leavePane paneId b with
    | inl hn => exact Or.inr ⟨rfl, hn⟩
    | inr he =>
      rw [he]
      exact Or.inl ⟨unread_refl _, rfl⟩

theorem screen_push (push : Push) (polled : Prop) :
    Screen frameHash polled s (step joins herdr frameHash s (.push now push)) := by
  cases hs : handleSubscriptionLine joins herdr now push s.bridge s.shared with
  | mk b' m' =>
    have hbridge : (step joins herdr frameHash s (.push now push)).bridge = b' := by
      simp [step, hs]
    have hshared : (step joins herdr frameHash s (.push now push)).shared = m' := by
      simp [step, hs]
    cases push_held hs with
    | inl h =>
      refine .kept _ ?_ rfl (sentFor_handedOut _ _ _) ?_
      · rw [hshared]
        exact h.1
      · rw [hbridge]
        exact h.2
    | inr h =>
      refine .left (by rw [hshared, h.1]) ?_ (by rw [hbridge]; exact h.2)
      simp [step, hs, h.1, sentFor, newSends]

theorem screen_poll :
    Screen frameHash (polls s (.poll now)) s (step joins herdr frameHash s (.poll now)) := by
  cases hp : pollScheduler herdr frameHash now s.bridge s.shared with
  | mk frame rest =>
    obtain ⟨b', m'⟩ := rest
    have hbridge : (step joins herdr frameHash s (.poll now)).bridge = b' := by simp [step, hp]
    have hshared : (step joins herdr frameHash s (.poll now)).shared = m' := by simp [step, hp]
    have htrace : (step joins herdr frameHash s (.poll now)).trace
        = s.trace ++ frame.toList.map .put := by simp [step, hp]
    obtain ⟨scheduler, ⟨rfl, hb, hm⟩ | ⟨isPoll, hpoll, hread, hcases⟩⟩ := pollScheduler_cases hp
    · refine .kept [] ?_ htrace rfl ?_
      · rw [hshared, hm]
        exact unread_refl _
      · rw [hbridge, hb]
        rfl
    · cases hcases with
      | unwatched hw hb hm =>
        refine .kept [] ?_ htrace rfl ?_
        · rw [hshared, hm]
          exact unread_refl _
        · rw [hbridge, hb]
          rfl
      | failed w hw hb hlog =>
        refine .kept [] ?_ htrace rfl ?_
        · rw [hshared]
          exact unread_calls hlog (by simp [NoRead])
        · rw [hbridge, hb]
          rfl
      | same w text hw hb hp' hhash hlog =>
        refine .same w text (by rw [hshared, hlog]) (by rw [htrace]; simp) hw ?_ hhash
        rw [hbridge, hb]
        exact hw
      | sent w text hw hb hne hlog =>
        refine .put w { w with lastFrameHash := frameHash text w.viewportRows w.width }
          ⟨w.paneId, w.lastRevision, w.viewportRows, w.width, text⟩
          (by rw [hshared, hlog]) (by rw [htrace]; rfl) hw (by rw [hbridge, hb]) rfl rfl rfl rfl ?_
        intro hpolled
        apply hne
        cases isPoll with
        | true => rfl
        | false =>
          have hsome := (hread rfl).symm.trans hpolled
          exact absurd hsome (by simp)

theorem screen_step (e : Event) (he : own e) :
    Screen frameHash (polls s e) s (step joins herdr frameHash s e) := by
  cases e with
  | input now request c => exact screen_input request c _
  | watchPane now paneId => exact screen_watchPane
  | unwatchPane paneId =>
    cases held_leavePane paneId s.bridge with
    | inl hn => exact .left rfl rfl hn
    | inr hb =>
      refine .kept [] (unread_refl _) (List.append_nil _).symm rfl ?_
      show held (leavePane paneId s.bridge) = _
      rw [hb]
  | push now push => exact screen_push push _
  | poll now => exact screen_poll
  | drain =>
    exact .kept _ (unread_refl _) rfl (replies_handedOut _) rfl
  | cancelPending =>
    refine .kept [] (unread_refl _) (List.append_nil _).symm rfl ?_
    show held s.bridge.cancelPendingInputs = _
    unfold held
    rw [(kept_cancel s.bridge).watched]
  | inactive => exact .kept [] (unread_refl _) (List.append_nil _).symm rfl rfl
  | others lines calls => exact he.elim

end Steps

/-- The hash kept for the watched pane is that of the last frame handed out for it. -/
def Tracked (frameHash : FrameHash Hash) (s : Thread Hash) : Prop :=
  ∀ paneId hash, held s.bridge = some (paneId, hash) →
    ∃ f, lastFrame handedOut paneId s.trace = some f ∧
      hash = frameHash f.text f.viewportRows f.width

theorem held_some {w : WatchedPane Hash} (h : b.watched = some w) :
    held b = some (w.paneId, w.lastFrameHash) := by
  unfold held
  rw [h]
  rfl

theorem tracked_last {w : WatchedPane Hash} {a : Action} {frame : PaneFrame}
    (ha : handedOut a = some frame) (ht : s'.trace = s.trace ++ [a])
    (hw : s'.bridge.watched = some w) (hid : w.paneId = frame.paneId)
    (hs : Shows frame frame.text w)
    (hh : w.lastFrameHash = frameHash frame.text w.viewportRows w.width) :
    Tracked frameHash s' := by
  intro p hash hheld
  rw [held_some hw] at hheld
  obtain ⟨rfl, rfl⟩ := Prod.mk.inj (Option.some.inj hheld)
  obtain ⟨-, hrows, hwidth⟩ : frame.text = frame.text ∧ frame.viewportRows = w.viewportRows ∧
      frame.width = w.width := by simpa [Shows, screen] using hs
  refine ⟨frame, ?_, ?_⟩
  · rw [ht, hid]
    exact lastFrame_snoc ha
  · rw [hh, hrows, hwidth]

theorem tracked_screen {polled : Prop} (ht : Tracked frameHash s)
    (hs : Screen frameHash polled s s') : Tracked frameHash s' := by
  cases hs with
  | kept extra hlog htrace hnone hheld =>
    intro p hash h
    rw [htrace, lastFrame_same hnone]
    exact ht p hash (hheld ▸ h)
  | left hlog htrace hw =>
    intro p hash h
    unfold held at h
    rw [hw] at h
    exact absurd h (by simp)
  | opened ack frame w hpoll hlog htrace hw hid hshows hhash =>
    exact tracked_last (a := .watched ack frame) rfl htrace hw hid hshows hhash
  | same w text hlog htrace hw hw' hhash =>
    intro p hash h
    rw [htrace]
    exact ht p hash (by rw [held_some hw, ← held_some hw', h])
  | put w w' frame hlog htrace hw hw' hid hid' hshows hhash hne =>
    exact tracked_last (a := .put frame) rfl htrace hw' hid' hshows hhash

/-- What a call came to when it failed. -/
def failed : Entry → Bool
  | .sent _ ok => !ok
  | .snapshot ok => !ok
  | .layout _ width => width.isNone
  | .read _ text => text.isNone

def newCalls (s s' : Thread Hash) : Log := s'.shared.log.drop s.shared.log.length

def newFrames (select : Action → Option PaneFrame) (s s' : Thread Hash) : List PaneFrame :=
  (s'.trace.drop s.trace.length).filterMap select

/-- What a step owes to the Device: the frame for every read that succeeded, none that
repeats the frame before it, and after a failed call the hash as it was. -/
structure ReadsShown (select : Action → Option PaneFrame) (polled : Prop) (s s' : Thread Hash) :
    Prop where
  shown : ∀ p text, .read p (some text) ∈ newCalls s s' → ∃ w f, s'.bridge.watched = some w ∧
    w.paneId = p ∧ lastFrame select p s'.trace = some f ∧ Shows f text w
  emitted : ∀ p text w, .read p (some text) ∈ newCalls s s' → s'.bridge.watched = some w →
    (∀ g, lastFrame select p s.trace = some g → ¬Shows g text w) →
    ∃ f ∈ newFrames select s s', f.paneId = p ∧ Shows f text w
  fresh : polled → ∀ f ∈ newFrames select s s', ∀ g, lastFrame select f.paneId s.trace = some g →
    screen f ≠ screen g
  failing : (∃ call ∈ newCalls s s', failed call = true) → held s'.bridge = held s.bridge

theorem newCalls_eq {calls : Log} (h : s'.shared.log = s.shared.log ++ calls) :
    newCalls s s' = calls := by
  unfold newCalls
  rw [h, List.drop_left]

variable (extra) in
theorem newFrames_eq {select : Action → Option PaneFrame} (h : s'.trace = s.trace ++ extra) :
    newFrames select s s' = extra.filterMap select := by
  unfold newFrames
  rw [h, List.drop_left]

theorem newFrames_none {select : Action → Option PaneFrame} (h : s'.trace = s.trace) :
    newFrames select s s' = [] := by
  rw [newFrames_eq [] (by rw [h, List.append_nil])]
  rfl

/-- A frame handed out by a step that made no failed call is what its read showed. -/
theorem readsShown_new {polled : Prop} {a : Action} {frame : PaneFrame} {w : WatchedPane Hash}
    {calls : Log} (ha : handedOut a = some frame) (hlog : s'.shared.log = s.shared.log ++ calls)
    (hread : ∀ p text, .read p (some text) ∈ calls → p = frame.paneId ∧ text = frame.text)
    (hok : ∀ call ∈ calls, failed call = false) (ht : s'.trace = s.trace ++ [a])
    (hw : s'.bridge.watched = some w) (hid : w.paneId = frame.paneId)
    (hs : Shows frame frame.text w)
    (hfresh : polled → ∀ g, lastFrame handedOut frame.paneId s.trace = some g →
      screen frame ≠ screen g) : ReadsShown handedOut polled s s' := by
  have hnew : newFrames handedOut s s' = [frame] := by
    rw [newFrames_eq _ ht]
    simp [ha]
  refine ⟨?_, ?_, ?_, ?_⟩
  · intro p text hmem
    rw [newCalls_eq hlog] at hmem
    obtain ⟨rfl, rfl⟩ := hread p text hmem
    refine ⟨w, frame, hw, hid, ?_, hs⟩
    rw [ht]
    exact lastFrame_snoc ha
  · intro p text w' hmem hw' _
    rw [newCalls_eq hlog] at hmem
    obtain ⟨rfl, rfl⟩ := hread p text hmem
    obtain rfl : w = w' := Option.some.inj (hw.symm.trans hw')
    exact ⟨frame, by simp [hnew], rfl, hs⟩
  · intro hp f hf
    rw [hnew, List.mem_singleton] at hf
    subst hf
    exact hfresh hp
  · rintro ⟨call, hmem, hfail⟩
    rw [newCalls_eq hlog] at hmem
    exact absurd hfail (by simp [hok call hmem])

theorem readsShown_screen {polled : Prop} (hinj : Injects frameHash) (ht : Tracked frameHash s)
    (hs : Screen frameHash polled s s') : ReadsShown handedOut polled s s' := by
  cases hs with
  | kept extra hlog htrace hnone hheld =>
    obtain ⟨calls, hcalls, hread⟩ := hlog
    refine ⟨?_, ?_, ?_, fun _ => hheld⟩
    · intro p text hmem
      exact absurd rfl (hread _ (newCalls_eq hcalls ▸ hmem) p text)
    · intro p text w hmem
      exact absurd rfl (hread _ (newCalls_eq hcalls ▸ hmem) p text)
    · intro _ f hf
      rw [newFrames_eq _ htrace, hnone] at hf
      exact absurd hf (by simp)
  | left hlog htrace hw =>
    have hcalls : newCalls s s' = [] := newCalls_eq (by rw [hlog, List.append_nil])
    refine ⟨?_, ?_, ?_, ?_⟩
    · intro p text hmem
      exact absurd hmem (by simp [hcalls])
    · intro p text w hmem
      exact absurd hmem (by simp [hcalls])
    · intro _ f hf
      exact absurd hf (by simp [newFrames_none htrace])
    · rintro ⟨call, hmem, -⟩
      exact absurd hmem (by simp [hcalls])
  | opened ack frame w hpoll hlog htrace hw hid hshows hhash =>
    refine readsShown_new (a := .watched ack frame) rfl hlog ?_ ?_ htrace hw hid hshows
      (fun hp => absurd hp hpoll)
    · simp
    · simp [failed]
  | same w text hlog htrace hw hw' hhash =>
    obtain ⟨g, hg, hgh⟩ := ht w.paneId w.lastFrameHash (held_some hw)
    -- only here is the hash taken for what it is a hash of
    have hshows : Shows g text w := (hinj (hhash.trans hgh)).symm
    refine ⟨?_, ?_, ?_, ?_⟩
    · intro p text' hmem
      obtain ⟨rfl, rfl⟩ : p = w.paneId ∧ text' = text := by simpa [newCalls_eq hlog] using hmem
      exact ⟨w, g, hw', rfl, htrace ▸ hg, hshows⟩
    · intro p text' w₁ hmem hw₁ hnot
      obtain ⟨rfl, rfl⟩ : p = w.paneId ∧ text' = text := by simpa [newCalls_eq hlog] using hmem
      obtain rfl : w = w₁ := Option.some.inj (hw'.symm.trans hw₁)
      exact absurd hshows (hnot g hg)
    · intro _ f hf
      exact absurd hf (by simp [newFrames_none htrace])
    · intro _
      rw [held_some hw, held_some hw']
  | put w w' frame hlog htrace hw hw' hid hid' hshows hhash hne =>
    refine readsShown_new (a := .put frame) rfl hlog ?_ ?_ htrace hw' hid' hshows ?_
    · simp
    · simp [failed]
    · intro hp g hg heq
      obtain ⟨f, hf, hfh⟩ := ht w.paneId w.lastFrameHash (held_some hw)
      obtain rfl : f = g := Option.some.inj (hf.symm.trans (hid ▸ hg))
      apply hne hp
      have hsame : (frame.text, w'.viewportRows, w'.width) = (f.text, f.viewportRows, f.width) :=
        hshows.symm.trans heq
      obtain ⟨htext, hrows, hwidth⟩ : frame.text = f.text ∧ w'.viewportRows = f.viewportRows ∧
          w'.width = f.width := by simpa using hsame
      rw [hhash, hfh, htext, hrows, hwidth]

section Runs

variable [DecidableEq Hash]

theorem tracked_step (ht : Tracked frameHash s) (e : Event) :
    Tracked frameHash (step joins herdr frameHash s e) := by
  by_cases he : own e
  · exact tracked_screen ht (screen_step e he)
  · cases e with
    | others lines calls => exact ht
    | _ => exact absurd trivial he

theorem tracked_runFrom (ht : Tracked frameHash s) (es : List Event) :
    Tracked frameHash (runFrom joins herdr frameHash s es) := by
  induction es generalizing s with
  | nil => exact ht
  | cons e es ih => exact ih (tracked_step ht e)

omit [DecidableEq Hash] in
theorem tracked_start (config : RelayConfig) :
    Tracked frameHash (Thread.start config : Thread Hash) := by
  intro p hash h
  exact absurd h (by simp [held, Thread.start])

/-- In every run, with any calls failing, every step of the session shows the Device
what it has read. -/
theorem reads_shown (joins : Graphemes) (herdr : HerdrCalls) (frameHash : FrameHash Hash)
    (hinj : Injects frameHash) (config : RelayConfig) (es : List Event) (e : Event) (he : own e) :
    let s := run joins herdr frameHash config es
    ReadsShown handedOut (polls s e) s (step joins herdr frameHash s e) :=
  readsShown_screen hinj (tracked_runFrom (tracked_start config) es) (screen_step e he)

end Runs

def pane : PaneId := "w1:p1".toList

def timing : RelayConfig where
  debounceMs := 50
  pollMs := 1000
  inputReadMs := []
  maxReadsPerSecond := 10

/-- The first read shows one text, later reads another. -/
def changing : HerdrCalls where
  send := fun _ _ => true
  sessionSnapshot := fun _ => .ok ⟨[⟨pane, 1, ⟨0, 0, 24⟩⟩], []⟩
  paneLayout := fun _ _ => some [⟨some pane, some 80⟩]
  paneReadVisible := fun log _ => some (some (if log.length ≤ 2 then "$".toList else "$ ls".toList))

def plainHash : FrameHash (Text × Nat × Nat) := fun text rows width => (text, rows, width)

def alone : Graphemes := fun _ _ => false

theorem plainHash_injects : Injects plainHash := fun _ _ h => h

/-- The poll is due, reads the later text and shows it. -/
theorem reads_shown_poll :
    let s := run alone changing plainHash timing [.watchPane 0 pane]
    let s' := step alone changing plainHash s (.poll 1000000000)
    polls s (.poll 1000000000) ∧ .read pane (some "$ ls".toList) ∈ newCalls s s' ∧
      (newFrames handedOut s s').map PaneFrame.text = ["$ ls".toList] ∧
      ReadsShown handedOut (polls s (.poll 1000000000)) s s' :=
  ⟨by rfl, by decide, by decide, reads_shown alone changing plainHash plainHash_injects
    timing [.watchPane 0 pane] (.poll 1000000000) trivial⟩

/-- The frame of an attach is returned, not put in the slot. -/
theorem watch_not_in_slot : ¬∀ (es : List Event) (e : Event), own e →
    ReadsShown inSlot (polls (run alone changing plainHash timing es) e)
      (run alone changing plainHash timing es)
      (step alone changing plainHash (run alone changing plainHash timing es) e) := by
  intro h
  have hread := (h [] (.watchPane 0 pane) trivial).shown pane "$".toList (by decide)
  obtain ⟨w, f, -, -, hf, -⟩ := hread
  have hnone : lastFrame inSlot pane (step alone changing plainHash
      (run alone changing plainHash timing []) (.watchPane 0 pane)).trace = none := by decide
  rw [hnone] at hf
  exact absurd hf (by simp)

end HerdrMobile.Host.Frames
