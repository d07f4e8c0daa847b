import HerdrMobile.Hub.Steps

/-!
# Rooms and the tasks in them

A room is discarded in two places, `disconnect` and the doomed-room path of
`register`, and both discard it the same way and for the same reason: one of its
two connections is gone. `Linked` ties the handle map to the tasks.
-/
namespace HerdrMobile.Hub.Rooms

open Lib.Channel Lib.Run Proto.Codes Hub.Limits Hub.Session Hub.Relay Hub.Steps

set_option autoImplicit false

variable {cfg : Config} {s s' : HubState} {e : Event} {c d p x y : OutboundTx} {t t' : Task}
  {m m' : SessionMap} {handle h : Handle} {role r : Role} {room : Room} {frame : CloseFrame}

theorem eq_other (hr : r ≠ role) : r = role.other := by
  cases r with
  | host =>
    cases role with
    | host => exact absurd rfl hr
    | device => rfl
  | device =>
    cases role with
    | host => rfl
    | device => exact absurd rfl hr

/-- The connection `x` is in the slot of `role` in the room of `handle`. -/
def Seated (m : SessionMap) (handle : Handle) (role : Role) (x : OutboundTx) : Prop :=
  ∃ room, m.rooms.lookup handle = some room ∧ room.slot role = some x

theorem ownsSlot_iff : m.ownsSlot handle role x = true ↔ Seated m handle role x := by
  unfold SessionMap.ownsSlot Seated
  cases h : m.rooms.lookup handle with
  | none => simp
  | some room => simp

theorem peerOf_iff : m.peerOf handle role = some x ↔ Seated m handle role.other x := by
  unfold SessionMap.peerOf Seated
  cases h : m.rooms.lookup handle with
  | none => simp
  | some room => simp

theorem Seated.eq (hx : Seated m handle role x) (hy : Seated m handle role y) : x = y := by
  obtain ⟨room, hr, hs⟩ := hx
  obtain ⟨room', hr', hs'⟩ := hy
  rw [hr] at hr'
  cases hr'
  exact Option.some.inj (hs.symm.trans hs')

theorem Seated.congr (hr : m'.rooms = m.rooms) : Seated m' handle role x ↔ Seated m handle role x := by
  unfold Seated
  rw [hr]

/-- A room goes and the survivor, if there is one, is told to close. -/
def discard (m : SessionMap) (handle : Handle) (survivor : Option OutboundTx)
    (frame : CloseFrame) : SessionMap :=
  match survivor with
  | none => m.removeRoom handle
  | some peer => (m.removeRoom handle).trySend peer (.close (some frame))

theorem closePeer_eq (m : SessionMap) (handle : Handle) (peer : OutboundTx) (gone : Role) :
    ∃ frame, (m.removeRoom handle).closePeer peer gone = discard m handle (some peer) frame :=
  ⟨⟨_, _⟩, rfl⟩

theorem discard_rooms (m : SessionMap) (handle : Handle) (o : Option OutboundTx)
    (frame : CloseFrame) : (discard m handle o frame).rooms = m.rooms.erase handle := by
  cases o <;> rfl

theorem discard_made (m : SessionMap) (handle : Handle) (o : Option OutboundTx)
    (frame : CloseFrame) : (discard m handle o frame).made = m.made := by
  cases o <;> rfl

theorem discard_chan_survivor (m : SessionMap) (handle : Handle) (x : OutboundTx)
    (frame : CloseFrame) :
    (discard m handle (some x) frame).chan x = (m.chan x).attempt (.close (some frame)) := by
  unfold discard SessionMap.trySend
  rw [setChan_self]
  rfl

theorem discard_chan_ne {o : Option OutboundTx} (ho : o ≠ some x) :
    (discard m handle o frame).chan x = m.chan x := by
  cases o with
  | none => rfl
  | some y =>
    have hne : x ≠ y := fun hxy => ho (congrArg some hxy.symm)
    unfold discard SessionMap.trySend
    rw [setChan_ne hne]
    rfl

theorem seated_discard {o : Option OutboundTx} :
    Seated (discard m handle o frame) h role x ↔ h ≠ handle ∧ Seated m h role x := by
  unfold Seated
  rw [discard_rooms]
  by_cases hh : h = handle
  · subst hh
    rw [AList.lookup_erase]
    simp
  · rw [AList.lookup_erase_ne hh]
    simp [hh]

theorem closedRole_some (hc : m.closedRole room = some role) :
    ∃ x, room.slot role = some x ∧ m.isClosed x = true := by
  unfold SessionMap.closedRole at hc
  split at hc
  · rename_i hhost
    cases hc
    exact (Option.any_eq_true ..).mp hhost
  · split at hc
    · rename_i hdevice
      cases hc
      exact (Option.any_eq_true ..).mp hdevice
    · cases hc

theorem peerOf_eq (hr : m.rooms.lookup handle = some room) :
    m.peerOf handle role = room.slot role.other := by
  unfold SessionMap.peerOf
  rw [hr]

/-- The survivor of the room under `handle`, when that room is doomed. -/
def doomedSurvivor (m : SessionMap) (handle : Handle) : Option OutboundTx :=
  (m.rooms.lookup handle).bind fun room => (m.closedRole room).bind fun gone => room.slot gone.other

/-- The first half of `register` either finds no doomed room or discards it. -/
theorem finishTeardown_cases (m : SessionMap) (handle : Handle) :
    (m.finishTeardown handle = m ∧ doomedSurvivor m handle = none) ∨
    (∃ gone y frame, Seated m handle gone y ∧ m.isClosed y = true ∧
      m.finishTeardown handle = discard m handle (m.peerOf handle gone) frame ∧
      doomedSurvivor m handle = m.peerOf handle gone) := by
  unfold SessionMap.finishTeardown doomedSurvivor
  cases hr : m.rooms.lookup handle with
  | none => exact Or.inl ⟨rfl, rfl⟩
  | some room =>
    dsimp only
    cases hc : m.closedRole room with
    | none => exact Or.inl ⟨rfl, by simp [hc]⟩
    | some gone =>
      obtain ⟨y, hy, hclosed⟩ := closedRole_some hc
      have hpeer : m.peerOf handle gone = room.slot gone.other := peerOf_eq hr
      cases hs : room.slot gone.other with
      | none =>
        refine Or.inr ⟨gone, y, ⟨0, ""⟩, ⟨room, hr, hy⟩, hclosed, ?_, ?_⟩
        · dsimp only
          rw [hpeer, hs]
          rfl
        · simp [hc, hpeer]
      | some peer =>
        obtain ⟨frame, hframe⟩ := closePeer_eq m handle peer gone
        refine Or.inr ⟨gone, y, frame, ⟨room, hr, hy⟩, hclosed, ?_, ?_⟩
        · dsimp only
          rw [hpeer, hs]
          exact hframe
        · simp [hc, hpeer]

theorem disconnect_cases (m : SessionMap) (handle : Handle) (role : Role) (mine : OutboundTx)
    (peerClose : Option CloseFrame) :
    (m.disconnect handle role mine peerClose = m ∧ ¬Seated m handle role mine) ∨
    (∃ frame, Seated m handle role mine ∧
      m.disconnect handle role mine peerClose = discard m handle (m.peerOf handle role) frame) := by
  unfold SessionMap.disconnect
  by_cases ho : m.ownsSlot handle role mine = true
  · right
    rw [if_pos ho]
    have hseat := (ownsSlot_iff).mp ho
    cases hp : m.peerOf handle role with
    | none => exact ⟨⟨0, ""⟩, hseat, rfl⟩
    | some peer =>
      cases hf : peerClose.filter SessionMap.isApplicationCode with
      | none =>
        obtain ⟨frame, hframe⟩ := closePeer_eq m handle peer role
        exact ⟨frame, hseat, hframe⟩
      | some frame => exact ⟨frame, hseat, rfl⟩
  · left
    rw [if_neg ho]
    exact ⟨rfl, fun hseat => ho ((ownsSlot_iff).mpr hseat)⟩

/-- The map with the queue that `register` makes first. -/
def withQueue (m : SessionMap) : SessionMap :=
  { m.setChan m.made (Chan.bounded _ _ _) with made := m.made + 1 }

theorem withQueue_seated : Seated (withQueue m) handle role x ↔ Seated m handle role x :=
  Seated.congr rfl

theorem withQueue_chan_ne (hx : x ≠ m.made) : (withQueue m).chan x = m.chan x := setChan_ne hx

theorem withQueue_chan_self (m : SessionMap) : (withQueue m).chan m.made = Chan.bounded _ _ _ :=
  setChan_self ..

/-- A placed connection takes a free slot and leaves the opposite one as it was. -/
structure Placed (m : SessionMap) (tx : OutboundTx) (handle : Handle) (role : Role)
    (m' : SessionMap) : Prop where
  chan : m'.chan = m.chan
  made : m'.made = m.made
  free : ∀ x, ¬Seated m handle role x
  mine : ∀ x, Seated m' handle role x ↔ x = tx
  peer : ∀ x, Seated m' handle role.other x ↔ Seated m handle role.other x
  others : ∀ h, h ≠ handle → ∀ role x, Seated m' h role x ↔ Seated m h role x

theorem seated_putRoom : Seated (m.putRoom handle room) handle role x ↔ room.slot role = some x := by
  unfold Seated SessionMap.putRoom
  simp [AList.lookup_insert]

theorem seated_putRoom_ne (hh : h ≠ handle) :
    Seated (m.putRoom handle room) h role x ↔ Seated m h role x := by
  unfold Seated SessionMap.putRoom
  rw [AList.lookup_insert_ne hh]

theorem seated_none (hr : m.rooms.lookup handle = none) : ¬Seated m handle role x := by
  rintro ⟨room, hl, _⟩
  rw [hr] at hl
  cases hl

theorem seated_some (hr : m.rooms.lookup handle = some room) :
    Seated m handle role x ↔ room.slot role = some x := by
  unfold Seated
  simp [hr]

/-- A placed Host finds no room, a placed Device one whose slot is free. -/
theorem place_inv {tx : OutboundTx} {ip : IpAddr} {l l' : IpRateLimiter} {maxHandles now : Nat}
    {pairing isNew : Bool}
    (hp : m.place tx handle role ip l maxHandles pairing now = (.ok isNew, m', l')) :
    (role = .host ∧ m.rooms.lookup handle = none ∧ m.activeHandles < maxHandles ∧
      m' = m.putRoom handle (Room.new tx pairing now)) ∨
    (role = .device ∧ ∃ room, m.rooms.lookup handle = some room ∧ room.device = none ∧
      m' = m.putRoom handle { room with device := some tx }) := by
  unfold SessionMap.place at hp
  cases role with
  | host =>
    cases hr : m.rooms.lookup handle with
    | some room => simp [hr] at hp
    | none =>
      simp only [hr] at hp
      split at hp
      · simp at hp
      · split at hp
        · simp at hp
        · next hfull =>
          cases hp
          exact Or.inl ⟨rfl, rfl, Nat.lt_of_not_le hfull, rfl⟩
  | device =>
    cases hr : m.rooms.lookup handle with
    | none => simp [hr] at hp
    | some room =>
      simp only [hr] at hp
      split at hp
      · simp at hp
      · split at hp
        · simp at hp
        · next hfree =>
          cases hp
          exact Or.inr ⟨rfl, room, rfl, by simpa using hfree, rfl⟩

theorem place_ok {tx : OutboundTx} {ip : IpAddr} {l l' : IpRateLimiter} {maxHandles now : Nat}
    {pairing isNew : Bool}
    (hp : m.place tx handle role ip l maxHandles pairing now = (.ok isNew, m', l')) :
    Placed m tx handle role m' := by
  rcases place_inv hp with ⟨rfl, hr, -, rfl⟩ | ⟨rfl, room, hr, hfree, rfl⟩
  · refine ⟨rfl, rfl, fun x => seated_none hr, fun x => ?_, fun x => ?_, fun h hh role x =>
      seated_putRoom_ne hh⟩
    · rw [seated_putRoom]
      exact ⟨fun h => (Option.some.inj h).symm, fun h => congrArg some h.symm⟩
    · rw [seated_putRoom]
      exact ⟨fun h => (nomatch h), fun h => absurd h (seated_none hr)⟩
  · refine ⟨rfl, rfl, fun x => ?_, fun x => ?_, fun x => ?_, fun h hh role x =>
      seated_putRoom_ne hh⟩
    · rw [seated_some hr]
      change room.device ≠ some x
      rw [hfree]
      simp
    · rw [seated_putRoom]
      exact ⟨fun h => (Option.some.inj h).symm, fun h => congrArg some h.symm⟩
    · rw [seated_putRoom, seated_some hr]
      rfl

theorem place_error {tx : OutboundTx} {ip : IpAddr} {l l' : IpRateLimiter} {maxHandles now : Nat}
    {pairing : Bool} {err : RegisterError}
    (hp : m.place tx handle role ip l maxHandles pairing now = (.error err, m', l')) : m' = m := by
  unfold SessionMap.place at hp
  repeat' split at hp
  all_goals cases hp
  all_goals rfl

/-- A registration places its connection after the teardown, or fails and closes the queue. -/
theorem register_inv {ip : IpAddr} {l l' : IpRateLimiter} {maxHandles now : Nat} {pairing : Bool}
    {result : Except RegisterError (OutboundTx × Bool)}
    (hr : m.register handle role ip l maxHandles pairing now = (result, m', l')) :
    (∃ isNew, result = .ok (m.made, isNew) ∧
      ((withQueue m).finishTeardown handle).place m.made handle role ip l maxHandles pairing now =
        (.ok isNew, m', l')) ∨
    ∃ err m₁, result = .error err ∧ m₁ = (withQueue m).finishTeardown handle ∧
      m' = m₁.setChan m.made (m₁.chan m.made).close := by
  simp only [SessionMap.register] at hr
  rw [← withQueue] at hr
  cases hp : ((withQueue m).finishTeardown handle).place m.made handle role ip l maxHandles
    pairing now with
  | mk res rest =>
    obtain ⟨m₁, l₁⟩ := rest
    rw [hp] at hr
    cases res with
    | ok isNew =>
      simp only [Prod.mk.injEq] at hr
      obtain ⟨rfl, rfl, rfl⟩ := hr
      exact Or.inl ⟨isNew, rfl, rfl⟩
    | error err =>
      simp only [Prod.mk.injEq] at hr
      obtain ⟨rfl, rfl, rfl⟩ := hr
      obtain rfl := place_error hp
      exact Or.inr ⟨err, _, rfl, rfl, rfl⟩

/-- A registration seats its connection, or fails and closes the queue it made. -/
theorem register_cases {ip : IpAddr} {l l' : IpRateLimiter} {maxHandles now : Nat} {pairing : Bool}
    {result : Except RegisterError (OutboundTx × Bool)}
    (hr : m.register handle role ip l maxHandles pairing now = (result, m', l')) :
    (∃ isNew, result = .ok (m.made, isNew) ∧
      Placed ((withQueue m).finishTeardown handle) m.made handle role m') ∨
    ∃ err m₁, result = .error err ∧ m₁ = (withQueue m).finishTeardown handle ∧
      m' = m₁.setChan m.made (m₁.chan m.made).close := by
  rcases register_inv hr with ⟨isNew, hresult, hp⟩ | hfail
  · exact Or.inl ⟨isNew, hresult, place_ok hp⟩
  · exact Or.inr hfail

theorem register_ok {ip : IpAddr} {l l' : IpRateLimiter} {maxHandles now : Nat}
    {pairing isNew : Bool} {tx : OutboundTx}
    (hr : m.register handle role ip l maxHandles pairing now = (.ok (tx, isNew), m', l')) :
    tx = m.made ∧ Placed ((withQueue m).finishTeardown handle) tx handle role m' := by
  rcases register_cases hr with ⟨isNew', hresult, hplaced⟩ | ⟨err, m₁, hresult, -, -⟩
  · cases hresult
    exact ⟨rfl, hplaced⟩
  · cases hresult

theorem register_error {ip : IpAddr} {l l' : IpRateLimiter} {maxHandles now : Nat}
    {pairing : Bool} {err : RegisterError}
    (hr : m.register handle role ip l maxHandles pairing now = (.error err, m', l')) :
    ∃ m₁, m₁ = (withQueue m).finishTeardown handle ∧
      m' = m₁.setChan m.made (m₁.chan m.made).close := by
  rcases register_cases hr with ⟨isNew, hresult, -⟩ | ⟨err', m₁, -, hm, hclosed⟩
  · cases hresult
  · exact ⟨m₁, hm, hclosed⟩

/-- A connection sits in at most one slot, and its queue was made. -/
structure Seats (m : SessionMap) : Prop where
  bound : ∀ h r x, Seated m h r x → x < m.made
  unique : ∀ h r h' r' x, Seated m h r x → Seated m h' r' x → h' = h ∧ r' = r

/-- What `register` and `disconnect` do to the connections that exist before the
call: a seat is never regained, a room with both connections alive keeps them, and
of the seats that are lost alive only the one of `survivor` is told to close. -/
structure RoomStep (survivor : Option OutboundTx) (m m' : SessionMap) : Prop where
  made : m.made ≤ m'.made
  back : ∀ h r x, x < m.made → Seated m' h r x → Seated m h r x
  kept : ∀ h r x, Seated m h r x → (∀ r y, Seated m h r y → m.isClosed y = false) →
    Seated m' h r x
  lost : ∀ h r x, Seated m h r x → Seated m' h r x ∨ m.isClosed x = true ∨ survivor = some x
  chan : ∀ x, x < m.made → survivor ≠ some x → m'.chan x = m.chan x
  told : ∀ x, survivor = some x → (∃ h r, Seated m h r x) ∧ (∀ h r, ¬Seated m' h r x) ∧
    ∃ frame, m'.chan x = (m.chan x).attempt (.close (some frame))

theorem RoomStep.refl (m : SessionMap) : RoomStep none m m where
  made := Nat.le_refl _
  back := fun _ _ _ _ hs => hs
  kept := fun _ _ _ hs _ => hs
  lost := fun _ _ _ hs => Or.inl hs
  chan := fun _ _ _ => rfl
  told := fun _ h => nomatch h

theorem RoomStep.isClosed {o : Option OutboundTx} (hm : RoomStep o m m') (hx : x < m.made) :
    m'.isClosed x = m.isClosed x := by
  unfold SessionMap.isClosed
  by_cases ho : o = some x
  · obtain ⟨_, _, frame, h⟩ := hm.told x ho
    rw [h, Chan.attempt_closed]
  · rw [hm.chan x hx ho]

theorem RoomStep.waiting {o : Option OutboundTx} (hm : RoomStep o m m') (hx : x < m.made) :
    (m'.chan x).waiting = (m.chan x).waiting := by
  by_cases ho : o = some x
  · obtain ⟨_, _, frame, h⟩ := hm.told x ho
    rw [h, Chan.attempt_waiting]
  · rw [hm.chan x hx ho]

theorem RoomStep.granted {o : Option OutboundTx} (hm : RoomStep o m m') (hx : x < m.made) :
    (m'.chan x).granted = (m.chan x).granted := by
  by_cases ho : o = some x
  · obtain ⟨_, _, frame, h⟩ := hm.told x ho
    rw [h, Chan.attempt_granted]
  · rw [hm.chan x hx ho]

theorem discard_step (hs : Seats m) (hy : Seated m handle r y) (hc : m.isClosed y = true)
    (frame : CloseFrame) :
    RoomStep (m.peerOf handle r) m (discard m handle (m.peerOf handle r) frame) where
  made := Nat.le_of_eq (discard_made ..).symm
  back := fun h role x _ hx => ((seated_discard).mp hx).2
  kept := by
    intro h role x hx halive
    refine (seated_discard).mpr ⟨?_, hx⟩
    rintro rfl
    rw [halive r y hy] at hc
    cases hc
  lost := by
    intro h role x hx
    by_cases hh : h = handle
    · subst hh
      right
      by_cases hr : role = r
      · subst hr
        rw [hx.eq hy]
        exact Or.inl hc
      · rw [eq_other hr] at hx
        exact Or.inr ((peerOf_iff).mpr hx)
    · exact Or.inl ((seated_discard).mpr ⟨hh, hx⟩)
  chan := fun x _ hp => discard_chan_ne hp
  told := by
    intro x hp
    refine ⟨⟨_, _, (peerOf_iff).mp hp⟩, ?_, frame, by rw [hp]; exact discard_chan_survivor ..⟩
    intro h role hx
    obtain ⟨hne, hx⟩ := (seated_discard).mp hx
    exact hne (hs.unique _ _ _ _ x ((peerOf_iff).mp hp) hx).1

theorem withQueue_seats (hs : Seats m) : Seats (withQueue m) where
  bound := fun h r x hx => Nat.lt_succ_of_lt (hs.bound h r x ((withQueue_seated).mp hx))
  unique := fun h r h' r' x hx hx' =>
    hs.unique h r h' r' x ((withQueue_seated).mp hx) ((withQueue_seated).mp hx')

theorem withQueue_isClosed (hx : x < m.made) : (withQueue m).isClosed x = m.isClosed x := by
  unfold SessionMap.isClosed
  rw [withQueue_chan_ne (Nat.ne_of_lt hx)]

theorem withQueue_step {o : Option OutboundTx} (hs : Seats m) (hm : RoomStep o (withQueue m) m') :
    RoomStep o m m' := by
  have hchan : ∀ x, x < m.made → (withQueue m).chan x = m.chan x :=
    fun x hx => withQueue_chan_ne (Nat.ne_of_lt hx)
  refine ⟨Nat.le_of_succ_le hm.made, ?_, ?_, ?_, ?_, ?_⟩
  · intro h r x hx hseat
    exact (withQueue_seated).mp (hm.back h r x (Nat.lt_succ_of_lt hx) hseat)
  · intro h r x hx halive
    refine hm.kept h r x ((withQueue_seated).mpr hx) fun r y hy => ?_
    have hy := (withQueue_seated).mp hy
    rw [withQueue_isClosed (hs.bound h r y hy)]
    exact halive r y hy
  · intro h r x hx
    have hl := hm.lost h r x ((withQueue_seated).mpr hx)
    rwa [withQueue_isClosed (hs.bound h r x hx)] at hl
  · intro x hx ho
    rw [hm.chan x (Nat.lt_succ_of_lt hx) ho, hchan x hx]
  · intro x ho
    obtain ⟨⟨h, r, hx⟩, hn, frame, hc⟩ := hm.told x ho
    have hx := (withQueue_seated).mp hx
    rw [hchan x (hs.bound h r x hx)] at hc
    exact ⟨⟨h, r, hx⟩, hn, frame, hc⟩

theorem closedRole_withQueue (hs : Seats m) (hr : m.rooms.lookup handle = some room) :
    (withQueue m).closedRole room = m.closedRole room := by
  have hany : ∀ role,
      (room.slot role).any (withQueue m).isClosed = (room.slot role).any m.isClosed := by
    intro role
    cases hx : room.slot role with
    | none => rfl
    | some x => exact withQueue_isClosed (hs.bound handle role x ⟨room, hr, hx⟩)
  unfold SessionMap.closedRole
  have hhost := hany .host
  have hdevice := hany .device
  change room.host.any _ = room.host.any _ at hhost
  change room.device.any _ = room.device.any _ at hdevice
  rw [hhost, hdevice]

theorem doomedSurvivor_withQueue (hs : Seats m) (handle : Handle) :
    doomedSurvivor (withQueue m) handle = doomedSurvivor m handle := by
  unfold doomedSurvivor
  change (m.rooms.lookup handle).bind _ = _
  cases hr : m.rooms.lookup handle with
  | none => rfl
  | some room => simp only [Option.bind_some, closedRole_withQueue hs hr]

theorem finishTeardown_step (hs : Seats m) (handle : Handle) :
    RoomStep (doomedSurvivor m handle) m ((withQueue m).finishTeardown handle) := by
  apply withQueue_step hs
  rw [← doomedSurvivor_withQueue hs]
  rcases finishTeardown_cases (withQueue m) handle with ⟨h, hd⟩ | ⟨gone, y, frame, hy, hc, h, hd⟩
  · rw [h, hd]
    exact RoomStep.refl _
  · rw [h, hd]
    exact discard_step (withQueue_seats hs) hy hc frame

theorem Placed.seated {tx : OutboundTx} (hp : Placed m tx handle role m') (hx : Seated m' h r x) :
    (x = tx ∧ h = handle ∧ r = role) ∨ Seated m h r x := by
  by_cases hh : h = handle
  · subst hh
    by_cases hr : r = role
    · subst hr
      exact Or.inl ⟨(hp.mine x).mp hx, rfl, rfl⟩
    · obtain rfl := eq_other hr
      exact Or.inr ((hp.peer x).mp hx)
  · exact Or.inr ((hp.others h hh r x).mp hx)

theorem Placed.seated_of {tx : OutboundTx} (hp : Placed m tx handle role m')
    (hx : Seated m h r x) : Seated m' h r x := by
  by_cases hh : h = handle
  · subst hh
    by_cases hr : r = role
    · subst hr
      exact absurd hx (hp.free x)
    · obtain rfl := eq_other hr
      exact (hp.peer x).mpr hx
  · exact (hp.others h hh r x).mpr hx

theorem Placed.step {m₁ : SessionMap} {tx : OutboundTx} {o : Option OutboundTx} (hs : Seats m)
    (hm : RoomStep o m m₁) (htx : m.made ≤ tx) (hp : Placed m₁ tx handle role m') :
    RoomStep o m m' where
  made := by
    rw [hp.made]
    exact hm.made
  back := by
    intro h r x hx hseat
    rcases hp.seated hseat with ⟨rfl, _, _⟩ | hseat
    · exact absurd hx (Nat.not_lt.mpr htx)
    · exact hm.back h r x hx hseat
  kept := fun h r x hx halive => hp.seated_of (hm.kept h r x hx halive)
  lost := by
    intro h r x hx
    rcases hm.lost h r x hx with hl | hl
    · exact Or.inl (hp.seated_of hl)
    · exact Or.inr hl
  chan := by
    intro x hx ho
    rw [hp.chan]
    exact hm.chan x hx ho
  told := by
    intro x ho
    rw [hp.chan]
    obtain ⟨⟨h, r, hx⟩, hn, hc⟩ := hm.told x ho
    refine ⟨⟨h, r, hx⟩, fun h' r' hseat => ?_, hc⟩
    rcases hp.seated hseat with ⟨rfl, _, _⟩ | hseat
    · exact absurd (hs.bound h r x hx) (Nat.not_lt.mpr htx)
    · exact hn h' r' hseat

theorem register_step {ip : IpAddr} {l l' : IpRateLimiter} {maxHandles now : Nat} {pairing : Bool}
    {res : Except RegisterError (OutboundTx × Bool)} (hs : Seats m)
    (hr : m.register handle role ip l maxHandles pairing now = (res, m', l')) :
    RoomStep (doomedSurvivor m handle) m m' := by
  have hm := finishTeardown_step hs handle
  cases res with
  | ok res =>
    obtain ⟨tx, isNew⟩ := res
    obtain ⟨rfl, hp⟩ := register_ok hr
    exact hp.step hs hm (Nat.le_refl _)
  | error err =>
    obtain ⟨m₁, rfl, rfl⟩ := register_error hr
    refine ⟨hm.made, hm.back, hm.kept, hm.lost, ?_, ?_⟩
    · intro x hx ho
      rw [setChan_ne (Nat.ne_of_lt hx)]
      exact hm.chan x hx ho
    · intro x ho
      obtain ⟨⟨h, r, hx⟩, hn, hc⟩ := hm.told x ho
      rw [setChan_ne (Nat.ne_of_lt (hs.bound h r x hx))]
      exact ⟨⟨h, r, hx⟩, hn, hc⟩

/-- The connection that `disconnect` tells to close, if it still owns its slot. -/
def leftBehind (m : SessionMap) (handle : Handle) (role : Role) (mine : OutboundTx) :
    Option OutboundTx :=
  if m.ownsSlot handle role mine then m.peerOf handle role else none

theorem disconnect_step (hs : Seats m) (hc : m.isClosed x = true) (handle : Handle) (role : Role)
    (peerClose : Option CloseFrame) :
    RoomStep (leftBehind m handle role x) m (m.disconnect handle role x peerClose) := by
  unfold leftBehind
  rcases disconnect_cases m handle role x peerClose with ⟨h, hn⟩ | ⟨frame, hx, h⟩
  · rw [h, if_neg fun ho => hn ((ownsSlot_iff).mp ho)]
    exact RoomStep.refl m
  · rw [h, if_pos ((ownsSlot_iff).mpr hx)]
    exact discard_step hs hx hc frame

theorem finishTeardown_seated (hx : Seated (m.finishTeardown handle) h r x) : Seated m h r x := by
  rcases finishTeardown_cases m handle with ⟨he, _⟩ | ⟨_, _, _, _, _, he, _⟩
  · rwa [he] at hx
  · rw [he] at hx
    exact ((seated_discard).mp hx).2

theorem register_seated {ip : IpAddr} {l l' : IpRateLimiter} {maxHandles now : Nat}
    {pairing : Bool} {res : Except RegisterError (OutboundTx × Bool)}
    (hr : m.register handle role ip l maxHandles pairing now = (res, m', l'))
    (hx : Seated m' h r x) : (x = m.made ∧ h = handle ∧ r = role ∧ ∃ isNew, res = .ok (x, isNew)) ∨
      Seated m h r x := by
  cases res with
  | ok res =>
    obtain ⟨tx, isNew⟩ := res
    obtain ⟨rfl, hp⟩ := register_ok hr
    rcases hp.seated hx with ⟨rfl, rfl, rfl⟩ | hx
    · exact Or.inl ⟨rfl, rfl, rfl, isNew, rfl⟩
    · exact Or.inr ((withQueue_seated).mp (finishTeardown_seated hx))
  | error err =>
    obtain ⟨m₁, rfl, rfl⟩ := register_error hr
    exact Or.inr ((withQueue_seated).mp (finishTeardown_seated hx))

theorem register_made {ip : IpAddr} {l l' : IpRateLimiter} {maxHandles now : Nat} {pairing : Bool}
    {res : Except RegisterError (OutboundTx × Bool)}
    (hr : m.register handle role ip l maxHandles pairing now = (res, m', l')) :
    m'.made = m.made + 1 := by
  have hmade : ((withQueue m).finishTeardown handle).made = m.made + 1 := by
    rcases finishTeardown_cases (withQueue m) handle with ⟨he, _⟩ | ⟨_, _, _, _, _, he, _⟩
    · rw [he]
      rfl
    · rw [he, discard_made]
      rfl
  cases res with
  | ok res =>
    obtain ⟨tx, isNew⟩ := res
    exact (register_ok hr).2.made.trans hmade
  | error err =>
    obtain ⟨m₁, rfl, rfl⟩ := register_error hr
    exact hmade

/-- A connection that registered has an empty open queue of its own and its slot. -/
theorem register_fresh {ip : IpAddr} {l l' : IpRateLimiter} {maxHandles now : Nat}
    {pairing isNew : Bool} {tx : OutboundTx} (hs : Seats m)
    (hr : m.register handle role ip l maxHandles pairing now = (.ok (tx, isNew), m', l')) :
    tx = m.made ∧ m'.chan tx = Chan.bounded _ _ _ ∧ Seated m' handle role tx := by
  obtain ⟨rfl, hp⟩ := register_ok hr
  refine ⟨rfl, ?_, (hp.mine _).mpr rfl⟩
  rw [hp.chan]
  rcases finishTeardown_cases (withQueue m) handle with ⟨he, _⟩ | ⟨gone, y, frame, _, _, he, _⟩
  · rw [he]
    exact withQueue_chan_self m
  · rw [he, discard_chan_ne]
    · exact withQueue_chan_self m
    · intro hp
      have hb := hs.bound _ _ _ ((withQueue_seated).mp ((peerOf_iff).mp hp))
      exact Nat.lt_irrefl _ hb

theorem disconnect_seated {peerClose : Option CloseFrame} (hs : Seats m)
    (hx : Seated (m.disconnect handle role c peerClose) h r x)
    (hc : ∀ h r, Seated m h r c → h = handle ∧ r = role) : Seated m h r x ∧ x ≠ c := by
  rcases disconnect_cases m handle role c peerClose with ⟨he, hn⟩ | ⟨_, hseat, he⟩
  · rw [he] at hx
    refine ⟨hx, ?_⟩
    rintro rfl
    obtain ⟨rfl, rfl⟩ := hc h r hx
    exact hn hx
  · rw [he] at hx
    obtain ⟨hne, hx⟩ := (seated_discard).mp hx
    refine ⟨hx, ?_⟩
    rintro rfl
    exact hne (hs.unique _ _ _ _ x hseat hx).1

end HerdrMobile.Hub.Rooms
