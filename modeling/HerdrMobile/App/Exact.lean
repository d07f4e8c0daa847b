import HerdrMobile.App.Turns

/-!
# A submit sends what was submitted

What holds between the composer, the requests on their way and the line of the pane,
over every run whose steps keep a submit apart from what is typed after it.
-/
namespace HerdrMobile.App.Exact

open HerdrMobile.Lib.Run HerdrMobile.Proto.Messages HerdrMobile.Host.Keys HerdrMobile.Host.Herdr
open HerdrMobile.Host.Input HerdrMobile.Host.Held HerdrMobile.Host.Shadow HerdrMobile.Host.Coalesce
open HerdrMobile.Host.Watch
open HerdrMobile.App.Composer HerdrMobile.App.Link HerdrMobile.App.Queue HerdrMobile.App.Turns

set_option autoImplicit false

variable {Hash : Type} {joins : Graphemes} {herdr : HerdrCalls} {frameHash : FrameHash Hash}
  {config : RelayConfig} {paneId : PaneId} {line line' : Text} {held held' : Option Text}
  {frames frames' : List Frame} {toDevice toDevice' : List FromHost} {d : Device}
  {typed : Option Text} {s s' : System Hash}

/-- A watch of the pane is under way, and the Device will send its line again. -/
def Rewatching (paneId : PaneId) (frames : List Frame) (toDevice : List FromHost) : Prop :=
  .watch ∈ frames ∨ ∃ ack, ack.paneId = paneId ∧ FromHost.watchAck ack ∈ toDevice

/-- The composer and the channel, from a line of the pane and a held submit on. -/
structure Along (paneId : PaneId) (line : Text) (held : Option Text) (frames : List Frame)
    (toDevice : List FromHost) (d : Device) (typed : Option Text) : Prop where
  safe : Safe line held frames
  lined : ∀ sub ∈ d.submit, sub.entering = false → typed = none →
    Lands sub.line line held frames ∧ d.text = if sub.whenIdle then sub.line else []
  lands : ∀ text, typed = some text → text ≠ [] → d.connected = true →
    Lands text line held frames ∨
      (d.text = text ∧ d.submit = none ∧ Rewatching paneId frames toDevice)
  text : ∀ text, typed = some text → text ≠ [] → d.text = text ∨ (d.text = [] ∧ d.submit = none)
  connected : d.submit ≠ none → d.connected = true
  fresh : d.receivedWatchAck = false → typed = none ∧ d.submit = none

/-- What the Device puts on the channel keeps the rest in order. -/
def Acts (paneId : PaneId) (line : Text) (held : Option Text) (frames : List Frame)
    (toDevice : List FromHost) (acted : Device × List (BridgeRequest Tag)) (typed : Option Text) :
    Prop :=
  ∃ new, acted.2 = new.map (Frame.request paneId) ∧ .watch ∉ new ∧
    Along paneId line held (frames ++ new) toDevice acted.1 typed

theorem acts_nothing (h : Along paneId line held frames toDevice d typed) :
    Acts paneId line held frames toDevice (d, []) typed :=
  ⟨[], rfl, by simp, by rwa [List.append_nil]⟩

/-- A line on the channel is the one that lands. -/
theorem safe_line (hs : Safe line held frames) (text : Text) (tag : Tag) :
    Safe line held (frames ++ [.line text tag]) := hs.append_line (owns_none text)

theorem acts_changed (h : Along paneId line held frames toDevice d typed) (text : Text) :
    Acts paneId line held frames toDevice (d.changed paneId text)
      (if !d.enabled || d.queued then typed else some text) := by
  unfold Device.changed
  by_cases hc : (!d.enabled || d.queued) = true
  · rw [if_pos hc, if_pos hc]
    exact acts_nothing h
  · rw [if_neg hc, if_neg hc]
    have henabled : d.enabled = true := by
      cases he : d.enabled with
      | true => rfl
      | false => exact absurd (by rw [he]; rfl) hc
    have hreceived : d.receivedWatchAck = true := (Bool.and_eq_true_iff.mp henabled).2
    refine ⟨[.line text ⟨d.corrSequence, text⟩], rfl, by simp, safe_line h.safe _ _, ?_, ?_, ?_,
      h.connected, ?_⟩
    · intro sub _ _ hn
      exact absurd hn (by simp)
    · intro t ht _ _
      rw [← Option.some.inj ht]
      exact Or.inl h.safe.lands_line
    · intro t ht _
      exact Or.inl (Option.some.inj ht)
    · intro hf
      exact absurd (hreceived.symm.trans hf) (by simp)

theorem acts_pressSend (h : Along paneId line held frames toDevice d typed) (whenIdle : Bool)
    (hempty : d.canSend = true → d.text = [] → lastLine line frames = []) :
    Acts paneId line held frames toDevice (d.pressSend paneId whenIdle)
      (if d.canSend then none else typed) := by
  unfold Device.pressSend
  by_cases hc : d.canSend = true
  · rw [if_neg (by simp [hc]), if_pos hc]
    obtain ⟨henabled, -⟩ := Bool.and_eq_true_iff.mp hc
    obtain ⟨hconnected, hreceived⟩ := Bool.and_eq_true_iff.mp henabled
    set d₁ := if whenIdle = true then d else { d with text := [] } with hd₁
    have hconnected₁ : d₁.connected = true := by
      rw [hd₁]
      cases whenIdle <;> exact hconnected
    have hreceived₁ : d₁.receivedWatchAck ≠ false := by
      rw [hd₁]
      cases whenIdle <;> simp [hreceived]
    have htext₁ : d₁.text = if whenIdle then d.text else [] := by
      rw [hd₁]
      cases whenIdle <;> rfl
    by_cases ht : d.text = []
    · have hline : d.text.isEmpty = true := by rw [ht]; rfl
      simp only [hline, if_true, Device.sendEnter, Device.send]
      refine ⟨[.enter ⟨d₁.corrSequence, d.text⟩ whenIdle], rfl, by simp,
        h.safe.append_enter (hempty hc ht) ht, ?_, ?_, ?_, fun _ => hconnected₁, ?_⟩
      · intro sub hsub he
        obtain rfl := Option.some.inj hsub
        exact absurd he (by simp)
      · intro t hn
        exact absurd hn (by simp)
      · intro t hn
        exact absurd hn (by simp)
      · intro hf
        exact absurd hf hreceived₁
    · have hline : d.text.isEmpty = false := by simp [ht]
      simp only [hline, Bool.false_eq_true, if_false, Device.send]
      refine ⟨[.line d.text ⟨d₁.corrSequence, d.text⟩], rfl, by simp, safe_line h.safe _ _, ?_, ?_, ?_,
        fun _ => hconnected₁, ?_⟩
      · intro sub hsub _ _
        obtain rfl := Option.some.inj hsub
        exact ⟨h.safe.lands_line, htext₁⟩
      · intro t hn
        exact absurd hn (by simp)
      · intro t hn
        exact absurd hn (by simp)
      · intro hf
        exact absurd hf hreceived₁
  · rw [if_pos (by simp [hc]), if_neg hc]
    exact acts_nothing h

theorem Along.finish (h : Along paneId line held frames toDevice d typed) (accepted : Bool) :
    Along paneId line held frames toDevice (d.finish accepted) typed := by
  cases hsub : d.submit with
  | none =>
    have hsame : d.finish accepted = d := by
      unfold Device.finish
      rw [hsub]
    rw [hsame]
    exact h
  | some sub =>
    have hnone : (d.finish accepted).submit = none := by
      unfold Device.finish
      rw [hsub]
    have hconnected : (d.finish accepted).connected = d.connected := by
      unfold Device.finish
      rw [hsub]
    have hreceived : (d.finish accepted).receivedWatchAck = d.receivedWatchAck := by
      unfold Device.finish
      rw [hsub]
    have hold : ∀ t, typed = some t → t ≠ [] → d.text = t := by
      intro t ht hne
      cases h.text t ht hne with
      | inl he => exact he
      | inr hn => exact absurd (hsub.symm.trans hn.2) (by simp)
    refine ⟨h.safe, ?_, ?_, ?_, ?_, ?_⟩
    · intro sub' hsub'
      rw [hnone] at hsub'
      exact absurd hsub' (by simp)
    · intro t ht hne hc
      cases h.lands t ht hne (hconnected ▸ hc) with
      | inl hl => exact Or.inl hl
      | inr hr => exact absurd (hsub.symm.trans hr.2.1) (by simp)
    · intro t ht hne
      have htext := hold t ht hne
      have hfull : d.text.isEmpty = false := by simp [htext, hne]
      unfold Device.finish
      rw [hsub]
      simp only [hfull, Bool.and_false, Bool.false_eq_true, if_false]
      cases accepted with
      | false => exact Or.inl htext
      | true =>
        cases hi : sub.whenIdle with
        | true => exact Or.inr ⟨rfl, trivial⟩
        | false => exact Or.inl htext
    · intro hs
      exact absurd hnone hs
    · intro hf
      exact ⟨(h.fresh (hreceived ▸ hf)).1, hnone⟩

/-- The acknowledgement of an input request, taken off the channel. -/
theorem acts_inputAck {ack : SendInputAck} {corr : Option Tag}
    (h : Along paneId line held frames toDevice d typed)
    (hapart : d.submit.any (fun sub => !sub.entering && Device.awaits corr sub) = true →
      ack.accepted = true → typed = none) :
    Acts paneId line held frames toDevice (d.onSendInputAck paneId ack corr) typed := by
  unfold Device.onSendInputAck
  cases hsub : d.submit with
  | none => exact acts_nothing h
  | some sub =>
    simp only
    by_cases hc : (Device.awaits corr sub && ack.paneId == paneId) = true
    · rw [if_pos hc]
      obtain ⟨hawaits, -⟩ := Bool.and_eq_true_iff.mp hc
      by_cases hq : (ack.accepted && ack.queued) = true
      · rw [if_pos hq]
        apply acts_nothing
        refine ⟨h.safe, ?_, ?_, ?_, fun _ => h.connected (by simp [hsub]), ?_⟩
        · intro sub' hsub' he hn
          obtain rfl := Option.some.inj hsub'
          exact h.lined sub hsub he hn
        · intro t ht hne hcon
          cases h.lands t ht hne hcon with
          | inl hl => exact Or.inl hl
          | inr hr => exact absurd (hsub.symm.trans hr.2.1) (by simp)
        · intro t ht hne
          cases h.text t ht hne with
          | inl he => exact Or.inl he
          | inr hn => exact absurd (hsub.symm.trans hn.2) (by simp)
        · intro hf
          exact absurd (hsub.symm.trans (h.fresh hf).2) (by simp)
      · rw [if_neg hq]
        by_cases he : sub.entering = true
        · rw [if_pos he]
          exact acts_nothing (h.finish _)
        · rw [if_neg he]
          have he : sub.entering = false := by simpa using he
          by_cases ha : (ack.accepted && sub.generation == d.connectionGeneration) = true
          · rw [if_pos ha]
            obtain ⟨haccepted, -⟩ := Bool.and_eq_true_iff.mp ha
            have htyped : typed = none := hapart (by simp [hsub, he, hawaits]) haccepted
            obtain ⟨hlands, -⟩ := h.lined sub hsub he htyped
            refine ⟨[.enter ⟨d.corrSequence, sub.line⟩ sub.whenIdle], rfl, by simp,
              hlands.enter rfl, ?_, ?_, ?_, fun _ => h.connected (by simp [hsub]), ?_⟩
            · intro sub' hsub' he'
              obtain rfl := Option.some.inj hsub'
              exact absurd he' (by simp)
            · intro t ht
              rw [htyped] at ht
              exact absurd ht (by simp)
            · intro t ht
              rw [htyped] at ht
              exact absurd ht (by simp)
            · intro hf
              exact absurd (hsub.symm.trans (h.fresh hf).2) (by simp)
          · rw [if_neg ha]
            exact acts_nothing (h.finish false)
    · rw [if_neg hc]
      exact acts_nothing h

/-- Messages that tell of no watch may leave the channel. -/
theorem Along.taken (h : Along paneId line held frames toDevice d typed)
    (hkeep : Rewatching paneId frames toDevice → Rewatching paneId frames toDevice') :
    Along paneId line held frames toDevice' d typed := by
  refine ⟨h.safe, h.lined, ?_, h.text, h.connected, h.fresh⟩
  intro t ht hne hcon
  cases h.lands t ht hne hcon with
  | inl hl => exact Or.inl hl
  | inr hr => exact Or.inr ⟨hr.1, hr.2.1, hkeep hr.2.2⟩

theorem acts_watchAck {ack : WatchAck}
    (h : Along paneId line held frames (.watchAck ack :: toDevice) d typed) :
    Acts paneId line held frames toDevice (d.onWatchAck paneId ack) typed := by
  unfold Device.onWatchAck
  by_cases hp : ack.paneId ≠ paneId
  · rw [if_pos hp]
    apply acts_nothing
    refine h.taken ?_
    intro hr
    cases hr with
    | inl hw => exact Or.inl hw
    | inr ha =>
      obtain ⟨ack', hid, hmem⟩ := ha
      cases List.mem_cons.mp hmem with
      | inl he => exact absurd (FromHost.watchAck.inj he ▸ hid) hp
      | inr hmem => exact Or.inr ⟨ack', hid, hmem⟩
  · rw [if_neg hp]
    cases hr : d.receivedWatchAck with
    | false =>
      obtain ⟨htyped, hsub⟩ := h.fresh hr
      rw [if_pos (by simp)]
      have hseeded : (({ d with receivedWatchAck := true } : Device).seedLine ack.line).submit = none := by
        unfold Device.seedLine
        split
        · exact hsub
        · exact hsub
      apply acts_nothing
      refine ⟨h.safe, ?_, ?_, ?_, ?_, fun _ => ⟨htyped, hseeded⟩⟩
      · intro sub hsub'
        rw [hseeded] at hsub'
        exact absurd hsub' (by simp)
      · intro t ht
        rw [htyped] at ht
        exact absurd ht (by simp)
      · intro t ht
        rw [htyped] at ht
        exact absurd ht (by simp)
      · intro hs
        exact absurd hseeded hs
    | true =>
      rw [if_neg (by simp)]
      by_cases ht : d.text = []
      · rw [if_pos (by simp [ht])]
        apply acts_nothing
        refine ⟨h.safe, h.lined, ?_, h.text, h.connected, h.fresh⟩
        intro t htyped hne hcon
        cases h.lands t htyped hne hcon with
        | inl hl => exact Or.inl hl
        | inr hr => exact absurd (hr.1.symm.trans ht) hne
      · rw [if_neg (by simp [ht])]
        refine ⟨[.line d.text ⟨d.corrSequence, d.text⟩], rfl, by simp, safe_line h.safe _ _, ?_, ?_,
          h.text, h.connected, ?_⟩
        · intro sub hsub he hn
          obtain ⟨-, htext⟩ := h.lined sub hsub he hn
          cases hi : sub.whenIdle with
          | true =>
            rw [hi] at htext
            have htext : d.text = sub.line := htext
            refine ⟨?_, htext⟩
            rw [← htext]
            exact h.safe.lands_line
          | false =>
            rw [hi] at htext
            exact absurd htext ht
        · intro t htyped hne _
          cases h.text t htyped hne with
          | inl he =>
            rw [← he]
            exact Or.inl h.safe.lands_line
          | inr hn => exact absurd hn.1 ht
        · intro hf
          exact absurd (hr.symm.trans hf) (by simp)

theorem Along.disconnect (h : Along paneId line held frames toDevice d typed) :
    Along paneId line held frames [] d.disconnect typed := by
  have hf := h.finish false
  have hnone : (d.finish false).submit = none := by
    unfold Device.finish
    cases hsub : d.submit with
    | none => exact hsub
    | some sub => rfl
  refine ⟨h.safe, ?_, ?_, ?_, ?_, ?_⟩
  · intro sub hsub
    change sub ∈ (d.finish false).submit at hsub
    rw [hnone] at hsub
    exact absurd hsub (by simp)
  · intro t _ _ hcon
    exact absurd hcon (by simp [Device.disconnect])
  · intro t ht hne
    exact hf.text t ht hne
  · intro hs
    exact absurd hnone hs
  · intro hr
    exact ⟨(hf.fresh hr).1, hnone⟩

/-- The Device is back: the pane or the composer still has what was typed. -/
theorem Along.resume (h : Along paneId line held frames toDevice d typed)
    (hdown : d.connected = false)
    (htyped : ∀ text, typed = some text → text ≠ [] → d.text = text ∨ line = text) :
    Along paneId line none [.watch] [] (d.resume paneId).1 typed := by
  have hnone : d.submit = none := by
    cases hsub : d.submit with
    | none => rfl
    | some sub =>
      have hcon := h.connected (by simp [hsub])
      exact absurd (hcon.symm.trans hdown) (by simp)
  refine ⟨owns_none line, ?_, ?_, h.text, fun _ => rfl, h.fresh⟩
  · intro sub hsub
    change sub ∈ d.submit at hsub
    rw [hnone] at hsub
    exact absurd hsub (by simp)
  · intro t ht hne _
    cases htyped t ht hne with
    | inl he => exact Or.inr ⟨he, hnone, Or.inl (by simp)⟩
    | inr he =>
      rw [he]
      exact Or.inl ⟨owns_none t, rfl, fun hn => absurd hn (by simp), owns_none [],
        fun hw => absurd hw (by simp)⟩

/-- Every safe row of frames that starts with these goes on safely. -/
def Onward (line : Text) (held : Option Text) (frames : List Frame) (line' : Text)
    (held' : Option Text) (frames' : List Frame) : Prop :=
  ∀ tail, Safe line held (frames ++ tail) → Safe line' held' (frames' ++ tail)

theorem Along.turn (h : Along paneId line held frames toDevice d typed)
    (ho : Onward line held frames line' held' frames')
    (hkeep : Rewatching paneId frames toDevice → Rewatching paneId frames' toDevice') :
    Along paneId line' held' frames' toDevice' d typed := by
  refine ⟨?_, ?_, ?_, h.text, h.connected, h.fresh⟩
  · have hs := ho [] (by rw [List.append_nil]; exact h.safe)
    rwa [List.append_nil] at hs
  · intro sub hsub he hn
    exact ⟨ho _ (h.lined sub hsub he hn).1, (h.lined sub hsub he hn).2⟩
  · intro t ht hne hcon
    cases h.lands t ht hne hcon with
    | inl hl => exact Or.inl (ho _ hl)
    | inr hr => exact Or.inr ⟨hr.1, hr.2.1, hkeep hr.2.2⟩

/-- The session watches the pane, or it is new and the watch comes first. -/
def Watching (paneId : PaneId) (b : Bridge Hash Tag) (frames : List Frame) : Prop :=
  (b.watches paneId = true ∧ .watch ∉ frames) ∨
    (b.watched = none ∧ b.pendingInput = none ∧ ∃ rest, frames = .watch :: rest ∧ .watch ∉ rest)

theorem Watching.append {b : Bridge Hash Tag} {new : List Frame} (h : Watching paneId b frames)
    (hnew : .watch ∉ new) : Watching paneId b (frames ++ new) := by
  cases h with
  | inl h =>
    refine Or.inl ⟨h.1, ?_⟩
    intro hmem
    cases List.mem_append.mp hmem with
    | inl hm => exact h.2 hm
    | inr hm => exact hnew hm
  | inr h =>
    obtain ⟨hw, hp, rest, rfl, hrest⟩ := h
    refine Or.inr ⟨hw, hp, rest ++ new, rfl, ?_⟩
    intro hmem
    cases List.mem_append.mp hmem with
    | inl hm => exact hrest hm
    | inr hm => exact hnew hm

def heldText (b : Bridge Hash Tag) : Option Text :=
  b.pendingInput.bind fun p => p.corr.map Tag.pressed

/-- The invariant of a Device and its Host, with the frames on the channel. -/
structure Tracked (joins : Graphemes) (paneId : PaneId) (s : System Hash) (frames : List Frame) :
    Prop where
  sent : s.toHost = frames.map (Frame.request paneId)
  live : Live joins paneId s.bridge s.shared
  watching : Watching paneId s.bridge frames
  along : Along paneId (s.line joins paneId) (heldText s.bridge) frames s.toDevice s.device s.typed
  submitted : ∀ f ∈ s.forwarded, f.corr.map Tag.pressed = some f.line

theorem Tracked.acted {acted : Device × List (BridgeRequest Tag)}
    (h : Tracked joins paneId s frames)
    (ha : Acts paneId (s.line joins paneId) (heldText s.bridge) frames toDevice' acted typed) :
    ∃ frames', Tracked joins paneId { s.acted acted with toDevice := toDevice', typed := typed }
      frames' := by
  obtain ⟨new, hout, hnew, halong⟩ := ha
  refine ⟨frames ++ new, ?_, h.live, h.watching.append hnew, halong, h.submitted⟩
  show s.toHost ++ acted.2 = _
  rw [h.sent, hout, List.map_append]

theorem settled_eq (h : s.toHost = frames.map (Frame.request paneId)) :
    s.settled joins paneId = lastLine (s.line joins paneId) frames := by
  have hlines : (frames.map (Frame.request paneId)).filterMap lineOf
      = frames.filterMap Frame.text? := by
    rw [List.filterMap_map]
    congr 1
    funext frame
    exact lineOf_request paneId frame
  unfold System.settled lastLine
  rw [h, hlines]

theorem forwardedFor_none {corr : Option Tag} {before after : Log}
    (h : enters joins paneId before (after.drop before.length) = []) :
    forwardedFor joins paneId corr before after = [] := by
  unfold forwardedFor
  rw [h]
  rfl

theorem forwardedFor_one {corr : Option Tag} {before after : Log}
    (h : enters joins paneId before (after.drop before.length) = [remote joins before paneId]) :
    forwardedFor joins paneId corr before after = [⟨corr, remote joins before paneId⟩] := by
  unfold forwardedFor
  rw [h]
  rfl

/-- A turn of the Host, put together. -/
theorem Tracked.turn (h : Tracked joins paneId s frames) (hdevice : s'.device = s.device)
    (htyped : s'.typed = s.typed) (hsent : s'.toHost = frames'.map (Frame.request paneId))
    (hlive : Live joins paneId s'.bridge s'.shared) (hw : Watching paneId s'.bridge frames')
    (ho : Onward (s.line joins paneId) (heldText s.bridge) frames (s'.line joins paneId)
      (heldText s'.bridge) frames')
    (hkeep : Rewatching paneId frames s.toDevice → Rewatching paneId frames' s'.toDevice)
    (hsubmitted : ∀ f ∈ s'.forwarded, f ∈ s.forwarded ∨ f.corr.map Tag.pressed = some f.line) :
    Tracked joins paneId s' frames' := by
  refine ⟨hsent, hlive, hw, ?_, ?_⟩
  · rw [hdevice, htyped]
    exact h.along.turn ho hkeep
  · intro f hf
    cases hsubmitted f hf with
    | inl hold => exact h.submitted f hold
    | inr hnew => exact hnew

theorem rewatching_appended {out : List FromHost} (hnot : .watch ∉ frames)
    (h : Rewatching paneId frames toDevice) : Rewatching paneId frames' (toDevice ++ out) := by
  cases h with
  | inl hw => exact absurd hw hnot
  | inr ha =>
    obtain ⟨ack, hid, hmem⟩ := ha
    exact Or.inr ⟨ack, hid, List.mem_append_left _ hmem⟩

/-- The frames that have reached the Host, and the request it serves. -/
theorem arrived_frames {arrived : Nat} {request : BridgeRequest Tag}
    {queue : List (BridgeRequest Tag)} (hsent : s.toHost = frames.map (Frame.request paneId))
    (hq : s.toHost.take arrived = request :: queue) :
    ∃ first front back, frames = first :: (front ++ back) ∧ first.request paneId = request ∧
      queue = front.map (Frame.request paneId) ∧
      s.toHost.drop arrived = back.map (Frame.request paneId) := by
  rw [hsent, ← List.map_take] at hq
  obtain ⟨first, front, htake, hfirst, hfront⟩ := List.map_eq_cons_iff.mp hq
  refine ⟨first, front, frames.drop arrived, ?_, hfirst, hfront.symm, ?_⟩
  · rw [← List.cons_append, ← htake, List.take_append_drop]
  · rw [hsent, List.map_drop]

theorem Tracked.serve (hup : Up herdr paneId) (h : Tracked joins paneId s frames) {now arrived : Nat}
    (hapart : apart joins paneId s (.serve now arrived) = true)
    (hs : step joins herdr frameHash config paneId s (.serve now arrived) = some s') :
    ∃ frames', Tracked joins paneId s' frames' := by
  cases hq : s.toHost.take arrived with
  | nil =>
    simp only [step, hq] at hs
    exact absurd hs (by simp)
  | cons request queue =>
    obtain ⟨first, front, back, rfl, rfl, rfl, hback⟩ := arrived_frames h.sent hq
    simp only [step, hq] at hs
    cases first with
    | watch =>
      obtain ⟨hw, hp, hnot⟩ : s.bridge.watched = none ∧ s.bridge.pendingInput = none ∧
          .watch ∉ front ++ back := by
        cases h.watching with
        | inl hc => exact absurd List.mem_cons_self hc.2
        | inr hc =>
          obtain ⟨hw, hp, rest, he, hnot⟩ := hc
          exact ⟨hw, hp, (List.cons.inj he).2 ▸ hnot⟩
      obtain ⟨ack, frame, b', m', hserved, hack, hremote, hp', hlive, hw'⟩ :=
        serve_watch frameHash now hup h.live hw hp
      simp only [Frame.request, hserved] at hs
      obtain rfl := Option.some.inj hs
      have hheld : heldText b' = heldText s.bridge := by
        unfold heldText
        rw [hp, hp']
      have hline : remote joins m'.log paneId = s.line joins paneId := congrFun hremote paneId
      refine ⟨front ++ back, h.turn rfl rfl ?_ hlive (Or.inl ⟨hw', hnot⟩) ?_ ?_ ?_⟩
      · rw [hback, List.map_append]
      · intro tail hsafe
        show Safe (remote joins m'.log paneId) (heldText b') _
        rw [hline, hheld]
        exact hsafe
      · intro _
        exact Or.inr ⟨ack, hack, by simp⟩
      · exact fun f hf => Or.inl hf
    | line text tag =>
      obtain ⟨hw, hnot⟩ : s.bridge.watches paneId = true ∧ .watch ∉ Frame.line text tag :: (front ++ back) := by
        cases h.watching with
        | inl hc => exact hc
        | inr hc =>
          obtain ⟨-, -, rest, he, -⟩ := hc
          exact absurd (List.cons.inj he).1 (by simp)
      have hp : s.bridge.pendingInput = none := by simpa [apart, hq, Frame.request] using hapart
      obtain ⟨run, rest, replies, b', m', rfl, hrun, hserved, hline, henters, hp', hlive, hw'⟩ :=
        serve_line now hup h.live hw text tag front
      simp only [Frame.request, hserved] at hs
      obtain rfl := Option.some.inj hs
      have hnot' : .watch ∉ rest ++ back := by
        intro hm
        apply hnot
        rw [List.append_assoc]
        exact List.mem_cons_of_mem _ (List.mem_append_right _ hm)
      refine ⟨rest ++ back, h.turn rfl rfl ?_ hlive (Or.inl ⟨hw', hnot'⟩) ?_
        (rewatching_appended hnot) ?_⟩
      · rw [hback, List.map_append]
      · intro tail hsafe
        show Safe (remote joins m'.log paneId) (heldText b') _
        have hheld : heldText b' = none := by
          unfold heldText
          rw [hp', hp]
          rfl
        have hsafe : Safe text none (run ++ (rest ++ back ++ tail)) := by
          have hrest := hsafe.2
          simpa [List.append_assoc] using hrest
        rw [hline, hheld]
        exact hsafe.lines hrun
      · intro f hf
        rw [forwardedFor_none henters, List.append_nil] at hf
        exact Or.inl hf
    | enter tag whenIdle =>
      obtain ⟨hw, hnot⟩ : s.bridge.watches paneId = true ∧
          .watch ∉ Frame.enter tag whenIdle :: (front ++ back) := by
        cases h.watching with
        | inl hc => exact hc
        | inr hc =>
          obtain ⟨-, -, rest, he, -⟩ := hc
          exact absurd (List.cons.inj he).1 (by simp)
      have hnot' : .watch ∉ front ++ back := fun hm => hnot (List.mem_cons_of_mem _ hm)
      have hpressed : tag.pressed = s.line joins paneId := h.along.safe.2.1
      have hout : ∀ {replies : List (Reply Tag)} {b' : Bridge Hash Tag} {m' : Shared},
          Entered joins paneId b' s.shared m' → Live joins paneId b' m' →
          b'.watches paneId = true →
          Tracked joins paneId
            { s with
              bridge := b'
              shared := m'
              toHost := front.map (Frame.request paneId) ++ s.toHost.drop arrived
              toDevice := s.toDevice ++ inputAcks replies
              forwarded := s.forwarded
                ++ forwardedFor joins paneId (some tag) s.shared.log m'.log } (front ++ back) := by
        intro replies b' m' hentered hlive hw'
        refine h.turn rfl rfl ?_ hlive (Or.inl ⟨hw', hnot'⟩) ?_ (rewatching_appended hnot) ?_
        · show front.map (Frame.request paneId) ++ s.toHost.drop arrived = _
          rw [hback, List.map_append]
        · intro tail hsafe
          show Safe (remote joins m'.log paneId) (heldText b') _
          have hheld : heldText b' = none := by
            unfold heldText
            rw [hentered.pending]
            rfl
          rw [hentered.line, hheld]
          exact hsafe.2.2.2.1
        · intro f hf
          rw [forwardedFor_one hentered.enters] at hf
          cases List.mem_append.mp hf with
          | inl hold => exact Or.inl hold
          | inr hnew =>
            rw [List.mem_singleton.mp hnew]
            exact Or.inr (congrArg some hpressed)
      cases whenIdle with
      | false =>
        obtain ⟨replies, b', m', hserved, hentered, hlive, hw'⟩ := serve_enter now hup
          h.live hw tag (front.map (Frame.request paneId))
        simp only [Frame.request, hserved] at hs
        obtain rfl := Option.some.inj hs
        exact ⟨front ++ back, hout hentered hlive hw'⟩
      | true =>
        obtain ⟨replies, b', m', hserved, hcases, hlive, hw'⟩ := serve_deferred now hup
          h.live hw tag (front.map (Frame.request paneId))
        simp only [Frame.request, hserved] at hs
        obtain rfl := Option.some.inj hs
        cases hcases with
        | inr hentered => exact ⟨front ++ back, hout hentered hlive hw'⟩
        | inl hheld =>
          obtain ⟨hremote, henters, hp⟩ := hheld
          refine ⟨front ++ back, h.turn rfl rfl ?_ hlive (Or.inl ⟨hw', hnot'⟩) ?_
            (rewatching_appended hnot) ?_⟩
          · show front.map (Frame.request paneId) ++ s.toHost.drop arrived = _
            rw [hback, List.map_append]
          · intro tail hsafe
            show Safe (remote joins m'.log paneId) (heldText b') _
            have hheld : heldText b' = some tag.pressed := by
              unfold heldText
              rw [hp]
              rfl
            rw [hremote, hheld]
            exact hsafe.2.2.2.2 rfl
          · intro f hf
            rw [forwardedFor_none henters, List.append_nil] at hf
            exact Or.inl hf

theorem Tracked.agentStatus (hup : Up herdr paneId) (h : Tracked joins paneId s frames) {now : Nat}
    {status : Option Text}
    (hs : step joins herdr frameHash config paneId s (.agentStatus now status) = some s') :
    Tracked joins paneId s' frames := by
  have hwatched : s.bridge.pendingInput ≠ none → s.bridge.watches paneId = true ∧ .watch ∉ frames := by
    intro hp
    cases h.watching with
    | inl hc => exact hc
    | inr hc => exact absurd hc.2.1 hp
  obtain ⟨replies, b', m', hserved, htaken, hcases, hw, hlive⟩ := serve_status now hup h.live
    (fun hp => (hwatched hp).1) status
  simp only [step, hserved, htaken] at hs
  obtain rfl := Option.some.inj hs
  cases hcases with
  | inl hsame =>
    obtain ⟨rfl, rfl⟩ := hsame
    have hnone : enters joins paneId s.shared.log (s.shared.log.drop s.shared.log.length) = [] := by
      rw [List.drop_length]
      rfl
    refine h.turn rfl rfl h.sent hlive h.watching (fun tail hsafe => hsafe) ?_ ?_
    · intro hr
      cases hr with
      | inl hw => exact Or.inl hw
      | inr ha =>
        obtain ⟨ack, hid, hmem⟩ := ha
        exact Or.inr ⟨ack, hid, List.mem_append_left _ hmem⟩
    · intro f hf
      rw [forwardedFor_none hnone, List.append_nil] at hf
      exact Or.inl hf
  | inr hreleased =>
    obtain ⟨hp, hentered⟩ := hreleased
    obtain ⟨hw', hnot⟩ := hwatched hp
    obtain ⟨p, hp⟩ := Option.ne_none_iff_exists'.mp hp
    obtain ⟨tag, rfl⟩ := h.live.pending p hp
    have hheld : heldText s.bridge = some tag.pressed := by
      unfold heldText
      rw [hp]
      rfl
    have hpressed : tag.pressed = s.line joins paneId := h.along.safe.owns _ hheld
    have hwatches : Bridge.watches { b' with inputReplies := [] } paneId = true :=
      watches_of_watched hw hw'
    refine h.turn rfl rfl h.sent hlive
      (Or.inl ⟨hwatches, hnot⟩) ?_
      (rewatching_appended hnot) ?_
    · intro tail hsafe
      show Safe (remote joins m'.log paneId) (heldText b') _
      have hnone : heldText b' = none := by
        unfold heldText
        rw [hentered.pending]
        rfl
      rw [hentered.line, hnone]
      rw [hheld] at hsafe
      exact hsafe.release
    · intro f hf
      rw [forwardedFor_one hentered.enters] at hf
      cases List.mem_append.mp hf with
      | inl hold => exact Or.inl hold
      | inr hnew =>
        rw [List.mem_singleton.mp hnew, hp]
        exact Or.inr (congrArg some hpressed)

theorem tracked_step (hup : Up herdr paneId) (h : Tracked joins paneId s frames) {e : Event}
    (hapart : apart joins paneId s e = true)
    (hs : step joins herdr frameHash config paneId s e = some s') :
    ∃ frames', Tracked joins paneId s' frames' := by
  cases e with
  | changed text =>
    obtain rfl := Option.some.inj hs
    have hacts := h.acted (acts_changed h.along text)
    by_cases hc : (!s.device.enabled || s.device.queued) = true
    · rw [if_pos hc] at hacts ⊢
      exact hacts
    · rw [if_neg hc] at hacts ⊢
      exact hacts
  | pressSend whenIdle =>
    obtain rfl := Option.some.inj hs
    have hempty : s.device.canSend = true → s.device.text = [] →
        lastLine (s.line joins paneId) frames = [] := by
      intro hcan htext
      rw [← settled_eq h.sent]
      simpa [apart, hcan, htext] using hapart
    have hacts := h.acted (acts_pressSend h.along whenIdle hempty)
    by_cases hc : s.device.canSend = true
    · rw [if_pos hc] at hacts ⊢
      exact hacts
    · rw [if_neg hc] at hacts ⊢
      exact hacts
  | answer =>
    cases hcon : s.device.connected with
    | false => simp [step, hcon] at hs
    | true =>
      cases hto : s.toDevice with
      | nil => simp [step, hcon, hto] at hs
      | cons message rest =>
        have halong := h.along
        rw [hto] at halong
        cases message with
        | watchAck ack =>
          simp only [step, hcon, hto, Bool.not_true, Bool.false_eq_true, if_false] at hs
          obtain rfl := Option.some.inj hs
          exact h.acted (acts_watchAck halong)
        | inputAck ack corr =>
          simp only [step, hcon, hto, Bool.not_true, Bool.false_eq_true, if_false] at hs
          obtain rfl := Option.some.inj hs
          have hkept : Along paneId (s.line joins paneId) (heldText s.bridge) frames rest s.device
              s.typed := by
            refine halong.taken ?_
            intro hr
            cases hr with
            | inl hw => exact Or.inl hw
            | inr ha =>
              obtain ⟨ack', hid, hmem⟩ := ha
              exact Or.inr ⟨ack', hid, by simpa using hmem⟩
          refine h.acted (acts_inputAck hkept ?_)
          intro hany haccepted
          show s.typed = none
          simpa [apart, hto, hany, haccepted] using hapart
  | replyTimeout =>
    obtain rfl := Option.some.inj hs
    refine ⟨frames, h.sent, h.live, h.watching, ?_, h.submitted⟩
    show Along _ _ _ _ _ s.device.replyTimeout _
    unfold Device.replyTimeout
    split
    · exact h.along
    · exact h.along.finish false
  | disconnect =>
    cases hcon : s.device.connected with
    | false => simp [step, hcon] at hs
    | true =>
      simp only [step, hcon, Bool.not_true, Bool.false_eq_true, if_false] at hs
      obtain rfl := Option.some.inj hs
      exact ⟨frames, h.sent, h.live, h.watching, h.along.disconnect, h.submitted⟩
  | reconnect =>
    cases hcon : s.device.connected with
    | true => simp [step, hcon] at hs
    | false =>
      simp only [step, hcon, Bool.false_eq_true, if_false] at hs
      obtain rfl := Option.some.inj hs
      have htyped : ∀ text, s.typed = some text → text ≠ [] →
          s.device.text = text ∨ s.line joins paneId = text := by
        intro text ht hne
        simpa [apart, ht, hne] using hapart
      refine ⟨[.watch], rfl, ⟨rfl, rfl, h.live.synced, ?_⟩, ?_, h.along.resume hcon htyped,
        h.submitted⟩
      · exact fun p hp => absurd hp (by simp [newBridge])
      · exact Or.inr ⟨rfl, rfl, [], rfl, by simp⟩
  | serve now arrived => exact h.serve hup hapart hs
  | agentStatus now status => exact ⟨frames, h.agentStatus hup hs⟩

theorem tracked_start (joins : Graphemes) (config : RelayConfig) (paneId : PaneId) :
    Tracked joins paneId (System.start config paneId : System Hash) [.watch] := by
  refine ⟨rfl, ⟨rfl, rfl, synced_start, ?_⟩, Or.inr ⟨rfl, rfl, [], rfl, by simp⟩, ?_, ?_⟩
  · exact fun p hp => absurd hp (by simp [System.start, newBridge])
  · refine ⟨owns_none _, ?_, ?_, ?_, fun _ => rfl, fun _ => ⟨rfl, rfl⟩⟩
    · exact fun sub hsub => absurd hsub (by simp [System.start, Device.start])
    · exact fun text ht => absurd ht (by simp [System.start])
    · exact fun text ht => absurd ht (by simp [System.start])
  · exact fun f hf => absurd hf (by simp [System.start])

theorem Tracked.exactly (h : Tracked joins paneId s frames) : SubmitsExactly joins paneId s := by
  refine ⟨h.submitted, ?_⟩
  intro text htyped hne hcon hhost hdevice
  have hframes : frames = [] := List.map_eq_nil_iff.mp (h.sent.symm.trans hhost)
  cases h.along.lands text htyped hne hcon with
  | inl hl =>
    rw [hframes] at hl
    exact hl.arrived.symm
  | inr hr =>
    cases hr.2.2 with
    | inl hw => exact absurd hw (by simp [hframes])
    | inr ha =>
      obtain ⟨ack, -, hmem⟩ := ha
      exact absurd hmem (by simp [hdevice])

/-- In every run of a Device and its Host whose steps keep each submit apart from what
is typed after it, with every call to Herdr succeeding, each Enter meets the line that
was submitted, and what was typed since is kept. -/
theorem submits_exactly (joins : Graphemes) (herdr : HerdrCalls) (frameHash : FrameHash Hash)
    (config : RelayConfig) (paneId : PaneId) (hup : Up herdr paneId) (es : List Event)
    (hapart : ∀ s e t, Occurs (step joins herdr frameHash config paneId)
      (System.start config paneId) es s e t → apart joins paneId s e = true) (s : System Hash)
    (hv : Visits (step joins herdr frameHash config paneId) (System.start config paneId) es s) :
    SubmitsExactly joins paneId s := by
  obtain ⟨frames, h⟩ := visits_invariant (fun s => ∃ frames, Tracked joins paneId s frames)
    ⟨_, tracked_start joins config paneId⟩
    (fun ⟨_, h⟩ ho => tracked_step hup h (hapart _ _ _ ho) ho.step_eq) hv
  exact h.exactly

/-- A pane without an agent, whose calls all succeed. -/
def shell : HerdrCalls where
  send _ _ := true
  sessionSnapshot _ := .ok ⟨[⟨['p'], 1, ⟨0, 0, 24⟩⟩], []⟩
  paneLayout _ _ := some [⟨some ['p'], some 80⟩]
  paneReadVisible _ _ := some (some ['$'])

def shellConfig : RelayConfig := ⟨120, 125, [60, 130, 250], 16⟩

def shellStep : System Unit → Event → Option (System Unit) :=
  step plain shell (fun _ _ _ => ()) shellConfig ['p']

def shellStart : System Unit := System.start shellConfig ['p']

theorem up_shell : Up shell ['p'] where
  sends _ _ := rfl
  snapshots _ := ⟨_, rfl, _, List.mem_singleton_self _, rfl⟩
  layouts _ := ⟨80, rfl⟩
  reads _ := ⟨['$'], rfl⟩

/-- A line is submitted, and the next one is typed after its Enter is on the way. -/
def typingAhead : List Event :=
  [.serve 0 1, .answer, .changed ['l'], .changed ['l', 's'], .pressSend false, .serve 1 9, .answer,
    .answer, .answer, .changed ['x'], .serve 2 1, .serve 3 1, .answer]

theorem submits_exactly_ahead : ∃ s, run shellStep shellStart typingAhead = some s ∧
    s.forwarded = [⟨some ⟨3, ['l', 's']⟩, ['l', 's']⟩] ∧ SubmitsExactly plain ['p'] s := by
  have hchecked : everyStep shellStep (apart plain ['p']) shellStart typingAhead = true := by decide
  have hforwarded : (run shellStep shellStart typingAhead).map System.forwarded
      = some [⟨some ⟨3, ['l', 's']⟩, ['l', 's']⟩] := by decide
  obtain ⟨s, hr, hf⟩ := Option.map_eq_some_iff.mp hforwarded
  refine ⟨s, hr, hf, ?_⟩
  exact submits_exactly plain shell (fun _ _ _ => ()) shellConfig ['p'] up_shell typingAhead
    (fun _ _ _ ho => occurs_good hchecked ho) s (visits_end hr)

/-- The composer is edited while the line waits for its acknowledgement: the Enter
submits the edit. -/
def lateEdit : List Event :=
  [.serve 0 1, .answer, .changed ['l', 's'], .pressSend false, .changed ['x'], .serve 1 9, .answer,
    .answer, .answer, .serve 2 9]

theorem late_edit_submitted : ∃ s, run shellStep shellStart lateEdit = some s ∧
    ¬SubmitsExactly plain ['p'] s := by
  have hforwarded : (run shellStep shellStart lateEdit).map System.forwarded
      = some [⟨some ⟨3, ['l', 's']⟩, ['x']⟩] := by decide
  obtain ⟨s, hr, hf⟩ := Option.map_eq_some_iff.mp hforwarded
  refine ⟨s, hr, ?_⟩
  intro h
  have hline := h.submitted ⟨some ⟨3, ['l', 's']⟩, ['x']⟩ (by simp [hf])
  exact absurd hline (by decide)

end HerdrMobile.App.Exact
