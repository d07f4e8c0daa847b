import HerdrMobile.App.Isolation

/-!
# What the operations of a connection are made of

The operations are put together from a few small changes. A relation between the state before
and the state after that holds of those changes holds of every operation made of them, and each
operation is taken apart here once.
-/
namespace HerdrMobile.App.Frames

open HerdrMobile.App.Connection HerdrMobile.Proto.Messages
open HerdrMobile.App.Isolation (finished)

set_option autoImplicit false

/-- The result that an attempt tells of or is about to. -/
def told : Phase → Option Result
  | .failing result | .closing result | .returned result | .over result => some result
  | _ => none

/-- A phase that an attempt reaches without a session of its own. -/
def plain : Phase → Bool
  | .deviceInfo | .over _ => false
  | _ => true

/-- What `checkAttempt` throws is no success. -/
theorem checkAttempt_ne_ok (s : RelayConnection) (id : Nat) : s.checkAttempt id ≠ some .ok := by
  unfold RelayConnection.checkAttempt
  dsimp only
  split
  · nofun
  · split
    · nofun
    · nofun

/-- What leaves the course of every attempt alone: the session and the pending channel are kept
or dropped, and an attempt is cancelled or has its socket closed. -/
structure Aside (R : RelayConnection → RelayConnection → Prop) : Prop where
  trans : ∀ {s t u}, R s t → R t u → R s u
  same : ∀ {s t : RelayConnection}, t.attempt = s.attempt → t.made = s.made →
    t.connected = s.connected → (t.channel = s.channel ∨ t.channel = none) →
    (t.pendingChannel = s.pendingChannel ∨ t.pendingChannel = none) → R s t
  mark : ∀ (s : RelayConnection) (id : Nat) (cancelled leaving closeAsked : Bool),
    R s (s.set id { s.attempt id with cancelled, leaving, closeAsked })

namespace Aside

variable {R : RelayConnection → RelayConnection → Prop} {s t : RelayConnection} {id : Nat}

theorem kept (h : Aside R) (hattempt : t.attempt = s.attempt) (hmade : t.made = s.made)
    (hconnected : t.connected = s.connected) (hchannel : t.channel = s.channel)
    (hpending : t.pendingChannel = s.pendingChannel) : R s t :=
  h.same hattempt hmade hconnected (.inl hchannel) (.inl hpending)

theorem refl (h : Aside R) (s : RelayConnection) : R s s := h.kept rfl rfl rfl rfl rfl

theorem askClose (h : Aside R) (s : RelayConnection) (id : Nat) : R s (s.askClose id) :=
  h.mark s id (s.attempt id).cancelled (s.attempt id).leaving true

theorem interrupt (h : Aside R) (s : RelayConnection) : R s s.interruptPendingConnection := by
  unfold RelayConnection.interruptPendingConnection
  split
  · exact h.same rfl rfl rfl (.inl rfl) (.inr rfl)
  · exact h.trans (h.askClose s _) (h.same rfl rfl rfl (.inl rfl) (.inr rfl))

theorem close (h : Aside R) (s : RelayConnection) (frame : Bool) :
    R s (s.closeCurrentSocket frame) := by
  have hnone : R s { s with channel := none } := h.same rfl rfl rfl (.inr rfl) (.inl rfl)
  unfold RelayConnection.closeCurrentSocket
  split
  · exact h.refl s
  · next id hcurrent =>
    dsimp only
    split
    · exact h.trans hnone (h.mark _ id (s.attempt id).cancelled true (s.attempt id).closeAsked)
    · exact h.trans hnone (h.askClose _ id)

theorem schedule (h : Aside R) (s : RelayConnection) : R s s.scheduleReconnect := by
  unfold RelayConnection.scheduleReconnect
  split
  · exact h.refl s
  · split
    · exact h.refl s
    · exact h.kept rfl rfl rfl rfl rfl

theorem onNetworkStable (h : Aside R) (s : RelayConnection) : R s s.onNetworkStable := by
  unfold RelayConnection.onNetworkStable
  split
  · exact h.schedule s
  · exact h.refl s

theorem paused (h : Aside R) (s : RelayConnection) : R s s.paused := by
  have hback : R s { s with backgrounded := true } := h.kept rfl rfl rfl rfl rfl
  unfold RelayConnection.paused
  generalize { s with backgrounded := true } = t at hback
  have hinterrupt := h.trans hback (h.interrupt t)
  dsimp only
  split
  · refine h.trans (h.trans hinterrupt ?_) (h.close _ true)
    exact h.kept rfl rfl rfl rfl rfl
  · exact hinterrupt

theorem disconnect (h : Aside R) (s : RelayConnection) : R s s.disconnect := by
  have hended : R s { s.remember false with ended := true, stopped := true } :=
    h.kept rfl rfl rfl rfl rfl
  exact h.trans (h.trans hended (h.interrupt _)) (h.close _ true)

theorem dispose (h : Aside R) (s : RelayConnection) :
    R s { s with disposed := true }.interruptPendingConnection := by
  have hdisposed : R s { s with disposed := true } := h.kept rfl rfl rfl rfl rfl
  exact h.trans hdisposed (h.interrupt _)

theorem cancel (h : Aside R) (s : RelayConnection) (id : Nat) : R s (s.cancel id) := by
  have hset : R s (s.set id { s.attempt id with cancelled := true }) :=
    h.mark s id true (s.attempt id).leaving (s.attempt id).closeAsked
  unfold RelayConnection.cancel
  generalize s.set id { s.attempt id with cancelled := true } = t at hset
  dsimp only
  split
  · refine h.trans (h.trans hset ?_) (h.close _ false)
    exact h.kept rfl rfl rfl rfl rfl
  · split
    · exact h.trans hset (h.askClose t id)
    · exact hset

/-- On the return the saved computer is connected to again, or nothing happens. -/
theorem resumed (h : Aside R)
    (hconnect : ∀ (timer : Timer) (params : Params),
      R { s with
          backgrounded := false, wasConnectedBeforeBackground := false, reconnectTimer := timer }
        (RelayConnection.connectAgain .resume params { s with
          backgrounded := false, wasConnectedBeforeBackground := false, reconnectTimer := timer })) :
    R s s.resumed := by
  unfold RelayConnection.resumed
  dsimp only
  split
  · exact h.kept rfl rfl rfl rfl rfl
  · split
    · refine h.trans ?_ (hconnect _ _)
      exact h.kept rfl rfl rfl rfl rfl
    · exact h.kept rfl rfl rfl rfl rfl

/-- A locked gate closes, and an open one may resume. -/
theorem notify (h : Aside R) (hresumed : s.gate.isLocked = false → R s s.resumed) :
    R s s.notify := by
  unfold RelayConnection.notify
  by_cases hlocked : s.gate.isLocked = true
  · rw [if_pos hlocked]
    have hcounted : R s { s with lockings := s.lockings + 1 } := h.kept rfl rfl rfl rfl rfl
    dsimp only
    split
    · unfold RelayConnection.onGateChanged
      rw [if_pos hlocked]
      refine h.trans hcounted (h.trans (h.trans ?_ (h.interrupt _)) (h.close _ false))
      exact h.kept rfl rfl rfl rfl rfl
    · exact hcounted
  · rw [if_neg hlocked]
    dsimp only
    split
    · unfold RelayConnection.onGateChanged
      rw [if_neg hlocked]
      split
      · exact hresumed (Bool.eq_false_iff.mpr hlocked)
      · exact h.refl s
    · exact h.refl s

theorem deliver (h : Aside R) (s : RelayConnection) (m : Broadcast) : R s (s.deliver m) := by
  unfold RelayConnection.deliver
  split
  · exact h.kept rfl rfl rfl rfl rfl
  · exact h.refl s

theorem returns {result : Result} (h : Aside R) (staleSlot : Bool)
    (hover : R s (s.goto id (.over result))) : R s (s.returns id result staleSlot) := by
  unfold RelayConnection.returns
  generalize s.goto id (.over result) = t at hover
  dsimp only
  split
  · split
    · exact h.trans hover (h.schedule t)
    · exact h.trans hover (h.kept rfl rfl rfl rfl rfl)
  · exact hover

end Aside

/-- The pumps may go on as well. -/
structure Freely (R : RelayConnection → RelayConnection → Prop) : Prop extends Aside R where
  turn : ∀ (s : RelayConnection) (id : Nat) (pump : Pump), R s (s.turn id pump)

namespace Freely

variable {R : RelayConnection → RelayConnection → Prop}

theorem pumpEnds (h : Freely R) (s : RelayConnection) (id : Nat) (revoked : Bool) :
    R s (s.pumpEnds id revoked) := by
  unfold RelayConnection.pumpEnds
  split
  · have hturn := h.trans (h.close s false)
      (h.turn _ id (.closing (if revoked then .revoked else .reschedule)))
    exact h.trans hturn (h.kept rfl rfl rfl rfl rfl)
  · exact h.turn s id .done

theorem received (h : Freely R) (s : RelayConnection) (id : Nat) : R s (s.received id) := by
  unfold RelayConnection.received
  split
  · exact h.turn s id .decoding
  · exact h.pumpEnds s id false

theorem decoded (h : Freely R) (s : RelayConnection) (id : Nat)
    (outcome : RelayConnection.Decoded) : R s (s.decoded id outcome) := by
  have hbroadcast : R s (s.broadcast id) := h.kept rfl rfl rfl rfl rfl
  unfold RelayConnection.decoded
  split
  · cases outcome with
    | nothing => exact h.turn s id .reading
    | message => exact h.trans hbroadcast (h.turn _ id .reading)
    | violation => exact h.pumpEnds s id false
    | fatal revoked => exact h.trans hbroadcast (h.pumpEnds _ id revoked)
  · exact h.pumpEnds s id false

theorem pumpClosed (h : Freely R) (s : RelayConnection) (id : Nat) (after : After) :
    R s (s.pumpClosed id after) := by
  have hdone : R s (s.turn id .done) := h.turn s id .done
  cases after with
  | reschedule => exact h.trans hdone (h.schedule _)
  | revoked => exact h.trans hdone (h.kept rfl rfl rfl rfl rfl)

end Freely

/-- The course of an attempt up to its session: it goes from phase to phase, tells of no success
that it has not told of before, and its channel is the pending one or is dropped. -/
structure Course (R : RelayConnection → RelayConnection → Prop) : Prop where
  trans : ∀ {s t u}, R s t → R t u → R s u
  askClose : ∀ (s : RelayConnection) (id : Nat), R s (s.askClose id)
  drop : ∀ (s : RelayConnection) (id : Nat), R s { s with
    pendingChannel := if s.pendingChannel = some id then none else s.pendingChannel }
  move : ∀ {s : RelayConnection} {id : Nat} {phase : Phase} (opened : Bool),
    finished (s.attempt id).phase = false → plain phase = true →
    (told phase = some .ok → told (s.attempt id).phase = some .ok) →
    R s (s.set id { s.attempt id with opened, phase })
  pend : ∀ {s : RelayConnection} {id : Nat}, finished (s.attempt id).phase = false →
    R s ({ s with pendingChannel := some id }.set id
      { s.attempt id with opened := true, phase := .registering })

namespace Course

variable {R : RelayConnection → RelayConnection → Prop} {s : RelayConnection} {id : Nat}

theorem goto {phase : Phase} (h : Course R) (hopen : finished (s.attempt id).phase = false)
    (hplain : plain phase = true) (htold : told phase ≠ some .ok) : R s (s.goto id phase) :=
  h.move (s.attempt id).opened hopen hplain fun hok => absurd hok htold

theorem guarded {next : RelayConnection} (h : Course R)
    (hopen : finished (s.attempt id).phase = false) (hnext : R s next) :
    R s (s.guarded id next) := by
  unfold RelayConnection.guarded
  split
  · next result hcheck =>
    exact h.goto hopen rfl fun hok => checkAttempt_ne_ok s id (hcheck.trans hok)
  · exact hnext

theorem oldClosed (h : Course R) (hphase : (s.attempt id).phase = .closingOld) :
    R s (s.oldClosed id) := by
  have hopen : finished (s.attempt id).phase = false := by rw [hphase]; rfl
  unfold RelayConnection.oldClosed
  split
  · next result hcheck =>
    exact h.goto hopen rfl fun hok => checkAttempt_ne_ok s id (hcheck.trans hok)
  · exact h.goto hopen rfl nofun

theorem opened (h : Course R) (hphase : (s.attempt id).phase = .opening) (success : Bool) :
    R s (s.opened id success) := by
  have hopen : finished (s.attempt id).phase = false := by rw [hphase]; rfl
  unfold RelayConnection.opened
  dsimp only
  split
  · split
    · next result hcheck =>
      exact h.move true hopen rfl fun hok =>
        absurd (hcheck.trans hok) (checkAttempt_ne_ok s id)
    · exact h.pend hopen
  · refine h.goto hopen rfl ?_
    split
    · nofun
    · split
      · nofun
      · nofun

theorem registered (h : Course R) (hphase : (s.attempt id).phase = .registering)
    (answer : RelayConnection.Registration) : R s (s.registered id answer) := by
  have hopen : finished (s.attempt id).phase = false := by rw [hphase]; rfl
  cases answer with
  | unusable => exact h.goto hopen rfl nofun
  | joined => exact h.guarded hopen (h.goto hopen rfl nofun)
  | refused code => exact h.guarded hopen (h.goto hopen rfl nofun)
  | unknown => exact h.guarded hopen (h.goto hopen rfl nofun)

theorem handshook (h : Course R) (hphase : (s.attempt id).phase = .handshake) (success : Bool) :
    R s (s.handshook id success) := by
  have hopen : finished (s.attempt id).phase = false := by rw [hphase]; rfl
  cases success with
  | false => exact h.goto hopen rfl nofun
  | true => exact h.guarded hopen (h.goto hopen rfl nofun)

/-- Only a good frame makes a session. -/
theorem firstFrame {frame : RelayConnection.FirstFrame} {key : Text} (h : Course R)
    (hphase : (s.attempt id).phase = .hostInfo)
    (hgood : frame = .good → R s (s.guarded id (s.install id key))) :
    R s (s.firstFrame id frame key) := by
  have hopen : finished (s.attempt id).phase = false := by rw [hphase]; rfl
  cases frame with
  | closed => exact h.goto hopen rfl nofun
  | unusable => exact h.goto hopen rfl nofun
  | other => exact h.guarded hopen (h.goto hopen rfl nofun)
  | newer => exact h.guarded hopen (h.goto hopen rfl nofun)
  | older => exact h.guarded hopen (h.goto hopen rfl nofun)
  | good => exact hgood rfl

theorem mismatchSent (h : Course R) (hphase : (s.attempt id).phase = .mismatch) :
    R s (s.mismatchSent id) := by
  have hopen : finished (s.attempt id).phase = false := by rw [hphase]; rfl
  refine h.goto hopen rfl ?_
  split
  · nofun
  · nofun

/-- `device_info` is sent by the session, or the attempt fails. -/
theorem deviceInfoSent (h : Course R) (hphase : (s.attempt id).phase = .deviceInfo)
    (hsucceeds : R s ({ s with connected := id :: s.connected }.set id
      { s.attempt id with phase := .returned .ok, pump := .reading })) :
    R s (s.deviceInfoSent id) := by
  have hopen : finished (s.attempt id).phase = false := by rw [hphase]; rfl
  unfold RelayConnection.deviceInfoSent
  split
  · exact h.guarded hopen hsucceeds
  · exact h.goto hopen rfl nofun

theorem endAttempt {result : Result} (h : Course R)
    (hopen : finished (s.attempt id).phase = false)
    (htold : result = .ok → told (s.attempt id).phase = some .ok) :
    R s (s.endAttempt id result) := by
  refine h.trans (h.drop s id) (h.move (s.attempt id).opened hopen rfl fun hok => ?_)
  exact htold (Option.some.inj hok)

theorem threw (h : Course R) (hphase : (s.attempt id).phase ∈ [.registering, .handshake, .hostInfo]) :
    R s (s.endAttempt id .thrown) := by
  have hopen : ∀ phase ∈ [Phase.registering, .handshake, .hostInfo], finished phase = false := by
    decide
  exact h.endAttempt (hopen _ hphase) nofun

theorem iteratorCancelled {result : Result} (h : Course R)
    (hphase : (s.attempt id).phase = .failing result) :
    R s ((s.askClose id).goto id (.closing result)) := by
  have hsame : ((s.askClose id).attempt id).phase = .failing result := by
    rw [RelayConnection.askClose, s.attempt_set]
    exact hphase
  refine h.trans (h.askClose s id) (h.move ((s.askClose id).attempt id).opened ?_ rfl ?_)
  · rw [hsame]
    rfl
  · rw [hsame]
    exact fun hok => hok

theorem closed {result : Result} (h : Course R) (hphase : (s.attempt id).phase = .closing result) :
    R s (s.closed id result) := by
  refine h.endAttempt ?_ ?_
  · rw [hphase]
    rfl
  · split
    · nofun
    · rintro rfl
      rw [hphase]
      rfl

end Course

end HerdrMobile.App.Frames
