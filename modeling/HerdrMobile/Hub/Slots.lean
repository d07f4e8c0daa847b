import HerdrMobile.Hub.Rooms
import HerdrMobile.Lib.Table

/-!
# The slots of the handle map

Calls of `register` and `disconnect` and drops of receivers, in any order and by
any connection. A registration that is refused may still discard a room: the one
of its own handle, when a connection of that room is gone.
-/
namespace HerdrMobile.Hub.Slots

open Lib.Channel Lib.Run Lib.Table Hub.Limits Hub.Session Hub.Rooms

set_option autoImplicit false

inductive Call where
  | register (handle : Handle) (role : Role) (ip : IpAddr) (pairing : Bool) (now : Nat)
  | disconnect (handle : Handle) (role : Role) (mine : OutboundTx) (peerClose : Option CloseFrame)
  | dropReceiver (tx : OutboundTx)

structure State where
  sessions : SessionMap
  handleLimiter : IpRateLimiter

def State.start (limiter : IpRateLimiter) : State := ⟨SessionMap.new, limiter⟩

/-- What a call of `register` answers in this state. -/
def answer (maxHandles : Nat) (s : State) : Call → Option (Except RegisterError (OutboundTx × Bool))
  | .register handle role ip pairing now =>
    some (s.sessions.register handle role ip s.handleLimiter maxHandles pairing now).1
  | _ => none

def step (maxHandles : Nat) (s : State) : Call → Option State
  | .register handle role ip pairing now =>
    let (_, m, l) := s.sessions.register handle role ip s.handleLimiter maxHandles pairing now
    some ⟨m, l⟩
  | .disconnect handle role mine peerClose =>
    some { s with sessions := s.sessions.disconnect handle role mine peerClose }
  | .dropReceiver tx => some { s with sessions := s.sessions.setChan tx (s.sessions.chan tx).close }

variable {maxHandles : Nat} {s s' : State} {c : Call} {calls : List Call} {limiter : IpRateLimiter}
  {m m' : SessionMap} {handle h : Handle} {role r : Role} {room : Room} {x y tx : OutboundTx}
  {l l' : IpRateLimiter} {ip : IpAddr} {pairing : Bool} {now : Nat} {peerClose : Option CloseFrame}
  {result : Except RegisterError (OutboundTx × Bool)}

theorem finishTeardown_rooms (m : SessionMap) (handle : Handle) :
    ((m.finishTeardown handle).rooms = m.rooms ∧ ∀ room, m.rooms.lookup handle = some room →
      m.closedRole room = none) ∨ (m.finishTeardown handle).rooms = m.rooms.erase handle := by
  unfold SessionMap.finishTeardown
  cases hr : m.rooms.lookup handle with
  | none => exact Or.inl ⟨rfl, fun room h => nomatch h⟩
  | some room =>
    dsimp only
    cases hc : m.closedRole room with
    | none =>
      refine Or.inl ⟨rfl, fun room' h => ?_⟩
      cases h
      exact hc
    | some gone =>
      dsimp only
      cases room.slot gone.other with
      | none => exact Or.inr rfl
      | some peer => exact Or.inr rfl

theorem disconnect_rooms (m : SessionMap) (handle : Handle) (role : Role) (mine : OutboundTx)
    (peerClose : Option CloseFrame) :
    (m.disconnect handle role mine peerClose).rooms = m.rooms ∨
      (m.disconnect handle role mine peerClose).rooms = m.rooms.erase handle := by
  rcases disconnect_cases m handle role mine peerClose with ⟨he, -⟩ | ⟨frame, -, he⟩
  · exact Or.inl (congrArg SessionMap.rooms he)
  · exact Or.inr ((congrArg SessionMap.rooms he).trans (discard_rooms ..))

/-- A placed Host makes its room, a placed Device joins one. -/
theorem place_rooms {isNew : Bool}
    (hp : m.place tx handle role ip l maxHandles pairing now = (.ok isNew, m', l')) :
    ∃ room', m'.rooms = m.rooms.insert handle room' ∧
      ((handle ∉ m.rooms ∧ size m.rooms < maxHandles ∧ room'.host = some tx) ∨
        ∃ room, m.rooms.lookup handle = some room ∧ room'.host = room.host) := by
  rcases place_inv hp with ⟨-, hr, hfull, rfl⟩ | ⟨-, room, hr, -, rfl⟩
  · exact ⟨_, rfl, Or.inl ⟨AList.lookup_eq_none.mp hr, hfull, rfl⟩⟩
  · exact ⟨_, rfl, Or.inr ⟨room, hr, rfl⟩⟩

/-- A registration that succeeds puts one room over what the teardown left. -/
theorem register_rooms (hr : m.register handle role ip l maxHandles pairing now = (result, m', l')) :
    m'.rooms = ((withQueue m).finishTeardown handle).rooms ∨
      ∃ isNew room', result = .ok (m.made, isNew) ∧
        m'.rooms = ((withQueue m).finishTeardown handle).rooms.insert handle room' ∧
        ((handle ∉ ((withQueue m).finishTeardown handle).rooms ∧
            size ((withQueue m).finishTeardown handle).rooms < maxHandles ∧
            room'.host = some m.made) ∨
          ∃ room, ((withQueue m).finishTeardown handle).rooms.lookup handle = some room ∧
            room'.host = room.host) := by
  rcases register_inv hr with ⟨isNew, hresult, hp⟩ | ⟨err, m₁, -, rfl, rfl⟩
  · obtain ⟨room', hrooms, hcase⟩ := place_rooms hp
    exact Or.inr ⟨isNew, room', hresult, hrooms, hcase⟩
  · exact Or.inl rfl

/-- Every room has a Host, no connection sits twice and the rooms are bounded. -/
structure Sound (maxHandles : Nat) (m : SessionMap) : Prop where
  hosted : ∀ handle room, m.rooms.lookup handle = some room → room.host.isSome
  seats : Seats m
  bounded : size m.rooms ≤ maxHandles

theorem sound_new (maxHandles : Nat) : Sound maxHandles SessionMap.new where
  hosted := fun _ _ h => nomatch h
  seats := by
    constructor
    · rintro h r x ⟨room, hl, -⟩
      cases hl
    · rintro h r h' r' x ⟨room, hl, -⟩
      cases hl
  bounded := Nat.zero_le _

theorem seats_congr (hs : Seats m) (hrooms : m'.rooms = m.rooms) (hmade : m.made ≤ m'.made) :
    Seats m' where
  bound := fun h r x hx => Nat.lt_of_lt_of_le (hs.bound h r x ((Seated.congr hrooms).mp hx)) hmade
  unique := fun h r h' r' x hx hx' =>
    hs.unique h r h' r' x ((Seated.congr hrooms).mp hx) ((Seated.congr hrooms).mp hx')

theorem Sound.still (hs : Sound maxHandles m) (hrooms : m'.rooms = m.rooms)
    (hmade : m.made ≤ m'.made) : Sound maxHandles m' where
  hosted := by
    rw [hrooms]
    exact hs.hosted
  seats := seats_congr hs.seats hrooms hmade
  bounded := by
    rw [hrooms]
    exact hs.bounded

theorem Sound.erase (hs : Sound maxHandles m) (hrooms : m'.rooms = m.rooms.erase handle)
    (hmade : m.made ≤ m'.made) : Sound maxHandles m' := by
  have hback : ∀ {h r x}, Seated m' h r x → Seated m h r x := by
    rintro h r x ⟨room, hl, hslot⟩
    rw [hrooms] at hl
    exact ⟨room, (lookup_erase_some hl).2, hslot⟩
  constructor
  · intro h room hl
    rw [hrooms] at hl
    exact hs.hosted h room (lookup_erase_some hl).2
  · constructor
    · intro h r x hx
      exact Nat.lt_of_lt_of_le (hs.seats.bound h r x (hback hx)) hmade
    · intro h r h' r' x hx hx'
      exact hs.seats.unique h r h' r' x (hback hx) (hback hx')
  · rw [hrooms]
    exact Nat.le_trans (size_erase_le _ _) hs.bounded

theorem withQueue_sound (hs : Sound maxHandles m) : Sound maxHandles (withQueue m) :=
  hs.still rfl (Nat.le_succ _)

theorem finishTeardown_sound (hs : Sound maxHandles m) (handle : Handle) :
    Sound maxHandles (m.finishTeardown handle) := by
  have hmade : m.made ≤ (m.finishTeardown handle).made := by
    rcases finishTeardown_cases m handle with ⟨he, -⟩ | ⟨gone, y, frame, -, -, he, -⟩
    · rw [he]
    · rw [he, discard_made]
  rcases finishTeardown_rooms m handle with ⟨hrooms, -⟩ | hrooms
  · exact hs.still hrooms hmade
  · exact hs.erase hrooms hmade

theorem register_seats (hs : Seats m)
    (hr : m.register handle role ip l maxHandles pairing now = (result, m', l')) : Seats m' := by
  have hmade := register_made hr
  constructor
  · intro h r x hx
    rw [hmade]
    rcases register_seated hr hx with ⟨rfl, -⟩ | hx
    · exact Nat.lt_succ_self _
    · exact Nat.lt_succ_of_lt (hs.bound h r x hx)
  · intro h r h' r' x hx hx'
    rcases register_seated hr hx with ⟨rfl, rfl, rfl, -⟩ | hold
    · rcases register_seated hr hx' with ⟨-, rfl, rfl, -⟩ | hold'
      · exact ⟨rfl, rfl⟩
      · exact absurd (hs.bound h' r' _ hold') (Nat.lt_irrefl _)
    · rcases register_seated hr hx' with ⟨rfl, -⟩ | hold'
      · exact absurd (hs.bound h r _ hold) (Nat.lt_irrefl _)
      · exact hs.unique h r h' r' x hold hold'

theorem register_sound (hs : Sound maxHandles m)
    (hr : m.register handle role ip l maxHandles pairing now = (result, m', l')) :
    Sound maxHandles m' := by
  have hm := finishTeardown_sound (withQueue_sound hs) handle
  refine ⟨?_, register_seats hs.seats hr, ?_⟩
  · rcases register_rooms hr with hrooms | ⟨isNew, room', -, hrooms, hcase⟩
    · rw [hrooms]
      exact hm.hosted
    · intro h room hl
      rw [hrooms] at hl
      by_cases hh : h = handle
      · subst hh
        rw [AList.lookup_insert] at hl
        cases hl
        rcases hcase with ⟨-, -, hhost⟩ | ⟨old, hold, hhost⟩
        · rw [hhost]
          rfl
        · rw [hhost]
          exact hm.hosted h old hold
      · rw [AList.lookup_insert_ne hh] at hl
        exact hm.hosted h room hl
  · rcases register_rooms hr with hrooms | ⟨isNew, room', -, hrooms, hcase⟩
    · rw [hrooms]
      exact hm.bounded
    · rw [hrooms]
      rcases hcase with ⟨hnew, hroom, -⟩ | ⟨old, hold, -⟩
      · rw [size_insert_of_notMem hnew]
        exact hroom
      · rw [size_insert_of_mem (mem_of_lookup hold)]
        exact hm.bounded

theorem disconnect_sound (hs : Sound maxHandles m) (handle : Handle) (role : Role)
    (mine : OutboundTx) (peerClose : Option CloseFrame) :
    Sound maxHandles (m.disconnect handle role mine peerClose) := by
  have hmade : m.made ≤ (m.disconnect handle role mine peerClose).made := by
    rcases disconnect_cases m handle role mine peerClose with ⟨he, -⟩ | ⟨frame, -, he⟩
    · rw [he]
    · rw [he, discard_made]
  rcases disconnect_rooms m handle role mine peerClose with hrooms | hrooms
  · exact hs.still hrooms hmade
  · exact hs.erase hrooms hmade

theorem sound_step (hs : Sound maxHandles s.sessions) (h : step maxHandles s c = some s') :
    Sound maxHandles s'.sessions := by
  cases c with
  | register handle role ip pairing now =>
    cases hr : s.sessions.register handle role ip s.handleLimiter maxHandles pairing now with
    | mk result rest =>
      obtain ⟨m', l'⟩ := rest
      simp only [step, hr] at h
      obtain rfl := Option.some.inj h
      exact register_sound hs hr
  | disconnect handle role mine peerClose =>
    obtain rfl := Option.some.inj h
    exact disconnect_sound hs handle role mine peerClose
  | dropReceiver tx =>
    obtain rfl := Option.some.inj h
    exact hs.still rfl (Nat.le_refl _)

theorem sound_visits (hv : Visits (step maxHandles) (.start limiter) calls s) :
    Sound maxHandles s.sessions :=
  visits_of_step (fun s => Sound maxHandles s.sessions) (sound_new maxHandles) sound_step hv

/-- The registration is for this handle, and the Device in its room is gone. -/
def Discards (m : SessionMap) (handle : Handle) (room : Room) : Call → Prop
  | .register handle' _ _ _ _ => handle' = handle ∧ room.device.any m.isClosed
  | _ => False

/-- A room stays: its slots, and the queues of the connections in them. -/
def Untouched (m m' : SessionMap) (handle : Handle) (room : Room) : Prop :=
  m'.rooms.lookup handle = some room ∧ ∀ role x, room.slot role = some x → m'.chan x = m.chan x

theorem finishTeardown_open (hs : Seats m) (hl : m.rooms.lookup handle = some room)
    (hhost : room.host.any m.isClosed = false) (hd : ¬room.device.any m.isClosed) :
    (withQueue m).finishTeardown handle = withQueue m := by
  have hrole : (withQueue m).closedRole room = none := by
    rw [closedRole_withQueue hs hl]
    unfold SessionMap.closedRole
    rw [hhost, if_neg Bool.false_ne_true, if_neg hd]
  have hl' : (withQueue m).rooms.lookup handle = some room := hl
  unfold SessionMap.finishTeardown
  simp only [hl', hrole]

theorem refused_untouched {err : RegisterError} (hs : Seats m)
    (hr : m.register handle role ip l maxHandles pairing now = (.error err, m', l'))
    (hl : m.rooms.lookup h = some room) (hhost : room.host.any m.isClosed = false)
    (hd : ¬(handle = h ∧ room.device.any m.isClosed)) : Untouched m m' h room := by
  have hlookup : m'.rooms.lookup h = some room := by
    obtain ⟨m₁, rfl, rfl⟩ := register_error hr
    show ((withQueue m).finishTeardown handle).rooms.lookup h = some room
    rcases finishTeardown_rooms (withQueue m) handle with ⟨hrooms, -⟩ | hrooms
    · rw [hrooms]
      exact hl
    · by_cases hh : h = handle
      · subst hh
        rw [finishTeardown_open hs hl hhost fun hdev => hd ⟨rfl, hdev⟩]
        exact hl
      · rw [hrooms, AList.lookup_erase_ne hh]
        exact hl
  refine ⟨hlookup, fun role x hslot => ?_⟩
  have hstep := register_step hs hr
  refine hstep.chan x (hs.bound h role x ⟨room, hl, hslot⟩) fun hsurvivor => ?_
  exact (hstep.told x hsurvivor).2.1 h role ⟨room, hlookup, hslot⟩

/-- The map keeps its shape, what is refused touches no room with a live Host but the one
whose Device is gone, and a stale disconnect does nothing. -/
theorem slots_kept (maxHandles : Nat) (limiter : IpRateLimiter) (calls : List Call) :
    (∀ s, Visits (step maxHandles) (.start limiter) calls s →
      (∀ handle room, s.sessions.rooms.lookup handle = some room → room.host.isSome) ∧
      (∀ h r h' r' x, Seated s.sessions h r x → Seated s.sessions h' r' x → h' = h ∧ r' = r) ∧
      (∀ h r x y, Seated s.sessions h r x → Seated s.sessions h r y → x = y) ∧
      s.sessions.activeHandles ≤ maxHandles) ∧
    (∀ s c s' err, Occurs (step maxHandles) (.start limiter) calls s c s' →
      answer maxHandles s c = some (.error err) →
      ∀ handle room, s.sessions.rooms.lookup handle = some room →
        room.host.any s.sessions.isClosed = false → ¬Discards s.sessions handle room c →
        Untouched s.sessions s'.sessions handle room) ∧
    (∀ s handle role mine peerClose s',
      Occurs (step maxHandles) (.start limiter) calls s (.disconnect handle role mine peerClose) s' →
      ¬Seated s.sessions handle role mine → s' = s) := by
  refine ⟨?_, ?_, ?_⟩
  · intro s hv
    have hs := sound_visits hv
    exact ⟨hs.hosted, hs.seats.unique, fun h r x y hx hy => hx.eq hy, hs.bounded⟩
  · intro s c s' err ho herr handle room hl hhost hd
    have hs := sound_visits ho.before
    have hstep := ho.step_eq
    cases c with
    | register handle' role ip pairing now =>
      cases hr : s.sessions.register handle' role ip s.handleLimiter maxHandles pairing now with
      | mk result rest =>
        obtain ⟨m', l'⟩ := rest
        simp only [answer, hr, Option.some.injEq] at herr
        subst herr
        simp only [step, hr, Option.some.injEq] at hstep
        obtain rfl := hstep
        exact refused_untouched hs.seats hr hl hhost hd
    | disconnect handle' role mine peerClose => cases herr
    | dropReceiver tx => cases herr
  · intro s handle role mine peerClose s' ho hn
    obtain rfl := Option.some.inj ho.step_eq
    rcases disconnect_cases s.sessions handle role mine peerClose with ⟨he, -⟩ | ⟨frame, hseat, -⟩
    · rw [he]
    · exact absurd hseat hn

/-- A Device joins a live Host and goes; the next Device is refused, and the room of the
Host is gone. -/
theorem refused_device_discards :
    ∃ s s' room,
      run (step 8) (.start (.new 8))
        [.register 5 .host (.v4 1) false 0, .register 5 .device (.v4 2) false 0,
          .dropReceiver 1] = some s ∧
      step 8 s (.register 5 .device (.v4 3) false 0) = some s' ∧
      answer 8 s (.register 5 .device (.v4 3) false 0) = some (.error .handleUnknown) ∧
      s.sessions.rooms.lookup 5 = some room ∧ room.host.any s.sessions.isClosed = false ∧
      s'.sessions.rooms.lookup 5 = none :=
  ⟨_, _, ⟨some 0, some 1, 0, false⟩, rfl, rfl, rfl, rfl, rfl, rfl⟩

end HerdrMobile.Hub.Slots
