import HerdrMobile.Hub.Rooms

/-!
# The handle map and the tasks agree

`Linked` holds in every state the hub visits. With it a step that changes the
map, `register` or `disconnect`, is a `RoomStep`.
-/
namespace HerdrMobile.Hub.Links

open Lib.Channel Lib.Run Proto.Codes Hub.Limits Hub.Session Hub.Relay Hub.Steps Hub.Rooms

set_option autoImplicit false

variable {cfg : Config} {s s' : HubState} {e : Event} {c d p x y : OutboundTx} {t t' : Task}
  {handle h : Handle} {role r : Role} {es : List Event}

/-- `inbound` is dropped. -/
def Gone (phase : Phase) : Prop := phase = .dropped ∨ phase = .finished

structure Linked (s : HubState) : Prop where
  made : ∀ c t, s.task c = some t → c < s.sessions.made
  seat : ∀ h r x, Seated s.sessions h r x →
    ∃ t, s.task x = some t ∧ t.handle = h ∧ t.role = r ∧ t.phase ≠ .finished
  closed : ∀ c t, s.task c = some t → (s.sessions.isClosed c = true ↔ Gone t.phase)
  target : ∀ c t p, s.task c = some t → t.phase.target = some p →
    ∃ u, s.task p = some u ∧ u.handle = t.handle ∧ u.role = t.role.other

theorem Linked.seats (hl : Linked s) : Seats s.sessions where
  bound := by
    intro h r x hx
    obtain ⟨t, ht, _⟩ := hl.seat h r x hx
    exact hl.made x t ht
  unique := by
    intro h r h' r' x hx hx'
    obtain ⟨t, ht, rfl, rfl, _⟩ := hl.seat h r x hx
    obtain ⟨t', ht', rfl, rfl, _⟩ := hl.seat h' r' x hx'
    rw [ht] at ht'
    cases ht'
    exact ⟨rfl, rfl⟩

theorem Linked.alive (hl : Linked s) (ht : s.task c = some t) (hg : ¬Gone t.phase) :
    s.sessions.isClosed c = false := by
  by_contra hc
  exact hg ((hl.closed c t ht).mp (by simpa using hc))

theorem not_gone_of_target (h : t.phase.target = some p) : ¬Gone t.phase := by
  rintro (hp | hp)
  · rw [hp] at h
    cases h
  · rw [hp] at h
    cases h

theorem not_gone_of_inLoop (h : t.phase.inLoop = true) : ¬Gone t.phase := by
  rintro (hp | hp)
  · rw [hp] at h
    cases h
  · rw [hp] at h
    cases h

theorem setTask_cases {u : Task} (h : (s.setTask c t).task d = some u) :
    (d = c ∧ u = t) ∨ (d ≠ c ∧ s.task d = some u) := by
  by_cases hd : d = c
  · subst hd
    rw [setTask_self] at h
    exact Or.inl ⟨rfl, (Option.some.inj h).symm⟩
  · rw [setTask_ne hd] at h
    exact Or.inr ⟨hd, h⟩

/-- The task of a fresh connection takes nobody's place. -/
theorem setTask_fresh {S : HubState} {u : Task} (hl : Linked s) (hS : S.task = s.task)
    (hu : s.task d = some u) : (S.setTask s.sessions.made t).task d = some u := by
  rw [setTask_ne (Nat.ne_of_lt (hl.made d u hu)), hS]
  exact hu

theorem linked_start (n : Nat) : Linked (HubState.start n) where
  made := fun c t h => nomatch h
  seat := by
    rintro h r x ⟨room, hl, _⟩
    cases hl
  closed := fun c t h => nomatch h
  target := fun c t p h _ => nomatch h

/-- A step that only moves the task of `c` and pushes on or takes from a queue. -/
theorem linked_setTask {m : SessionMap} (hl : Linked s) (ht : s.task c = some t)
    (hh : t'.handle = t.handle) (hr : t'.role = t.role) (hrooms : m.rooms = s.sessions.rooms)
    (hmade : m.made = s.sessions.made)
    (hphase : t'.phase = .finished → ∀ h r, ¬Seated s.sessions h r c)
    (hclosed : ∀ d, d ≠ c → m.isClosed d = s.sessions.isClosed d)
    (hmine : m.isClosed c = true ↔ Gone t'.phase)
    (htarget : ∀ p, t'.phase.target = some p →
      ∃ u, s.task p = some u ∧ u.handle = t.handle ∧ u.role = t.role.other) :
    Linked ({ s with sessions := m }.setTask c t') := by
  have keep : ∀ p u, s.task p = some u → ∃ u', ({ s with sessions := m }.setTask c t').task p =
      some u' ∧ u'.handle = u.handle ∧ u'.role = u.role := by
    intro p u hu
    by_cases hp : p = c
    · subst hp
      rw [ht] at hu
      cases hu
      exact ⟨t', setTask_self .., hh, hr⟩
    · refine ⟨u, ?_, rfl, rfl⟩
      rw [setTask_ne hp]
      exact hu
  refine ⟨?_, ?_, ?_, ?_⟩
  · intro d u hu
    rw [setTask_sessions]
    change d < m.made
    rw [hmade]
    rcases setTask_cases hu with ⟨rfl, _⟩ | ⟨_, hu⟩
    · exact hl.made d t ht
    · exact hl.made d u hu
  · intro h r x hx
    obtain ⟨u, hu, rfl, rfl, hf⟩ := hl.seat h r x ((Seated.congr hrooms).mp hx)
    by_cases hxc : x = c
    · subst hxc
      rw [ht] at hu
      cases hu
      exact ⟨t', setTask_self .., hh, hr, fun hf => hphase hf _ _ ((Seated.congr hrooms).mp hx)⟩
    · refine ⟨u, ?_, rfl, rfl, hf⟩
      rw [setTask_ne hxc]
      exact hu
  · intro d u hu
    rw [setTask_sessions]
    change m.isClosed d = true ↔ _
    rcases setTask_cases hu with ⟨rfl, rfl⟩ | ⟨hd, hu⟩
    · exact hmine
    · rw [hclosed d hd]
      exact hl.closed d u hu
  · intro d u p hu hp
    rcases setTask_cases hu with ⟨rfl, rfl⟩ | ⟨hd, hu⟩
    · obtain ⟨v, hv, hvh, hvr⟩ := htarget p hp
      obtain ⟨v', hv', hh', hr'⟩ := keep p v hv
      exact ⟨v', hv', by rw [hh', hvh, hh], by rw [hr', hvr, hr]⟩
    · obtain ⟨v, hv, hvh, hvr⟩ := hl.target d u p hu hp
      obtain ⟨v', hv', hh', hr'⟩ := keep p v hv
      exact ⟨v', hv', by rw [hh', hvh], by rw [hr', hvr]⟩

theorem setChan_isClosed_ne {m : SessionMap} {q : Outbound} (h : d ≠ c) :
    (m.setChan c q).isClosed d = m.isClosed d := by
  unfold SessionMap.isClosed
  rw [setChan_ne h]

/-- Replacing a queue by one that is as open or as closed changes no `isClosed`. -/
theorem setChan_isClosed {m : SessionMap} {q : Outbound} (hq : q.closed = (m.chan c).closed)
    (d : OutboundTx) : (m.setChan c q).isClosed d = m.isClosed d := by
  by_cases hd : d = c
  · subst hd
    unfold SessionMap.isClosed
    rw [setChan_self, hq]
  · exact setChan_isClosed_ne hd

theorem sent_closed {bytes : Bytes} {q q' : Outbound} {rp : Polled}
    (h : q.send c (.binary bytes) = (rp, q') ∨ q.resume c (.binary bytes) = (rp, q')) :
    q'.closed = q.closed := by
  rcases h with h | h
  · obtain ⟨_, _, rfl⟩ | ⟨_, _, _, rfl⟩ | ⟨_, hc, _, _, _, _, _, hc'⟩ := Chan.send_cases h
    · rfl
    · rfl
    · rw [hc, hc']
  · obtain ⟨_, _, rfl⟩ | ⟨_, hc, _, _, _, _, _, hc'⟩ | ⟨_, _, _, rfl⟩ := Chan.resume_cases h
    · rfl
    · rw [hc, hc']
    · rfl

/-- The tasks of the connections that were there stay as they are when the map alone moves. -/
theorem linked_roomStep {m : SessionMap} {l : IpRateLimiter} {o : Option OutboundTx}
    (hl : Linked s) (hm : RoomStep o s.sessions m)
    (hseat : ∀ h r x, Seated m h r x → Seated s.sessions h r x) :
    Linked { s with sessions := m, handleLimiter := l } where
  made := fun c t ht => Nat.lt_of_lt_of_le (hl.made c t ht) hm.made
  seat := fun h r x hx => hl.seat h r x (hseat h r x hx)
  closed := by
    intro c t ht
    change m.isClosed c = true ↔ _
    rw [hm.isClosed (hl.made c t ht)]
    exact hl.closed c t ht
  target := hl.target

theorem linked_registered {ip : IpAddr} {pairing isNew : Bool} {now : Nat} {tx : OutboundTx}
    {m : SessionMap} {l : IpRateLimiter} {frame : FrameRateLimiter} (hl : Linked s)
    (hr : s.sessions.register handle role ip s.handleLimiter cfg.maxHandles pairing now =
      (.ok (tx, isNew), m, l)) :
    Linked ({ s with sessions := m, handleLimiter := l }.setTask tx
      ⟨handle, role, .announcing, frame, none, none, []⟩) := by
  have hm := register_step hl.seats hr
  have hmade := register_made hr
  obtain ⟨rfl, hchan, hmine⟩ := register_fresh hl.seats hr
  refine ⟨?_, ?_, ?_, ?_⟩
  · intro d u hu
    rw [setTask_sessions]
    change d < m.made
    rw [hmade]
    rcases setTask_cases hu with ⟨rfl, _⟩ | ⟨_, hu⟩
    · exact Nat.lt_succ_self _
    · exact Nat.lt_succ_of_lt (hl.made d u hu)
  · intro h r x hx
    rcases register_seated hr hx with ⟨rfl, rfl, rfl, _⟩ | hx
    · exact ⟨_, setTask_self .., rfl, rfl, nofun⟩
    · obtain ⟨u, hu, hh, hr, hf⟩ := hl.seat h r x hx
      exact ⟨u, setTask_fresh hl rfl hu, hh, hr, hf⟩
  · intro d u hu
    rw [setTask_sessions]
    change m.isClosed d = true ↔ _
    rcases setTask_cases hu with ⟨rfl, rfl⟩ | ⟨_, hu⟩
    · unfold SessionMap.isClosed Gone
      rw [hchan]
      simp
    · rw [hm.isClosed (hl.made d u hu)]
      exact hl.closed d u hu
  · intro d u p hu hp
    rcases setTask_cases hu with ⟨rfl, rfl⟩ | ⟨_, hu⟩
    · cases hp
    · obtain ⟨v, hv, hh, hr⟩ := hl.target d u p hu hp
      exact ⟨v, setTask_fresh hl rfl hv, hh, hr⟩

theorem linked_disconnected (hl : Linked s) (ht : s.task c = some t) (hp : t.phase = .dropped) :
    Linked ({ s with sessions := s.sessions.disconnect t.handle t.role c t.peerClose }.setTask c
      (t.goto .finished)) := by
  have hclosed : s.sessions.isClosed c = true := (hl.closed c t ht).mpr (Or.inl hp)
  have hm := disconnect_step hl.seats hclosed t.handle t.role t.peerClose
  have hmine : ∀ h r, Seated s.sessions h r c → h = t.handle ∧ r = t.role := by
    intro h r hx
    obtain ⟨u, hu, rfl, rfl, _⟩ := hl.seat h r c hx
    rw [ht] at hu
    cases hu
    exact ⟨rfl, rfl⟩
  have hl' := linked_roomStep (l := s.handleLimiter) hl hm
    fun h r x hx => (disconnect_seated hl.seats hx hmine).1
  generalize hs' : ({ s with
    sessions := s.sessions.disconnect t.handle t.role c t.peerClose } : HubState) = s' at hl' ⊢
  have hsessions : s'.sessions = s.sessions.disconnect t.handle t.role c t.peerClose := by rw [← hs']
  have ht' : s'.task c = some t := by rw [← hs']; exact ht
  refine linked_setTask hl' ht' rfl rfl rfl rfl ?_ (fun _ _ => rfl) ?_ ?_
  · intro _ h r hx
    rw [hsessions] at hx
    exact (disconnect_seated hl.seats hx hmine).2 rfl
  · rw [hsessions, hm.isClosed (hl.made c t ht), hclosed]
    simp [Gone]
  · intro p hp
    cases hp

theorem linked_step (hl : Linked s) (h : step cfg s e = some s') : Linked s' := by
  cases move_of_step h with
  | refused hr =>
    refine linked_roomStep hl (register_step hl.seats hr) fun h r x hx => ?_
    rcases register_seated hr hx with ⟨_, _, _, _, hok⟩ | hx
    · cases hok
    · exact hx
  | registered hr => exact linked_registered hl hr
  | stay _ ht hloop _ hs htarget hphase =>
    have hne : ∀ t' : Task, t'.phase.inLoop = true ∨ t'.phase = .exited → ¬Gone t'.phase := by
      rintro t' (hp | hp)
      · exact not_gone_of_inLoop hp
      · rw [hp]
        rintro (h | h) <;> cases h
    have hgone := hne _ hphase
    refine linked_setTask hl ht hs.handle hs.role rfl rfl (fun h => absurd (Or.inr h) hgone)
      (fun _ _ => rfl) ?_ ?_
    · rw [hl.alive ht (not_gone_of_inLoop hloop)]
      simpa using hgone
    · intro p hp
      rw [htarget] at hp
      cases hp
  | lookup ht hp hs hpeer hp' =>
    have hloop : Phase.inLoop _ = true := (congrArg Phase.inLoop hp).trans rfl
    refine linked_setTask hl ht hs.handle hs.role rfl rfl (by rw [hp']; nofun) (fun _ _ => rfl)
      ?_ ?_
    · rw [hl.alive ht (not_gone_of_inLoop hloop), hp']
      simp [Gone]
    · intro p htarget
      rw [hp'] at htarget
      cases htarget
      obtain ⟨u, hu, hh, hr, _⟩ := hl.seat _ _ _ (peerOf_iff.mp hpeer)
      exact ⟨u, hu, hh, hr⟩
  | wait ht hp hq =>
    have htarget := (congrArg Phase.target hp).trans rfl
    have hclosed := setChan_isClosed (sent_closed (Or.inl hq))
    refine linked_setTask hl ht rfl rfl rfl rfl nofun (fun d _ => hclosed d) ?_ ?_
    · rw [hclosed, hl.alive ht (not_gone_of_target htarget)]
      simp [Gone]
    · intro p hp'
      cases hp'
      exact hl.target _ _ _ ht htarget
  | @sent c t peer bytes rp q ht hr hq =>
    have htarget : t.phase.target = some peer := by
      rcases hq with ⟨hp, _⟩ | ⟨hp, _⟩ <;> rw [hp] <;> rfl
    have hclosed := setChan_isClosed (sent_closed (hq.imp And.right And.right))
    refine linked_setTask hl ht rfl rfl rfl rfl nofun (fun d _ => hclosed d) ?_ nofun
    rw [hclosed, hl.alive ht (not_gone_of_target htarget)]
    simp [Gone]
  | @took c t msg q ht hp hq =>
    have hloop : t.phase.inLoop = true := by rw [hp]; rfl
    have hclosed := setChan_isClosed (Chan.recv_cases hq).2.1
    refine linked_setTask hl ht rfl rfl rfl rfl nofun (fun d _ => hclosed d) ?_ nofun
    rw [hclosed, hl.alive ht (not_gone_of_inLoop hloop)]
    simp [Gone]
  | dropped ht hp =>
    refine linked_setTask hl ht rfl rfl rfl rfl nofun (fun d hd => setChan_isClosed_ne hd) ?_ nofun
    unfold SessionMap.isClosed
    rw [setChan_self]
    simp [Gone]
  | disconnected ht hp => exact linked_disconnected hl ht hp

theorem linked_visits {n : Nat} (hv : Visits (step cfg) (HubState.start n) es s) : Linked s :=
  visits_of_step Linked (linked_start n) linked_step hv

/-- The rooms stay as they are, no queue opens again and nobody is told to close. -/
structure QueueStep (survivor : Option OutboundTx) (m m' : SessionMap) : Prop where
  silent : survivor = none
  rooms : m'.rooms = m.rooms
  opened : ∀ d, m'.isClosed d = false → m.isClosed d = false

theorem queueStep_setChan {m : SessionMap} {q : Outbound} (hq : q.closed = (m.chan c).closed) :
    QueueStep none m (m.setChan c q) :=
  ⟨rfl, rfl, fun d h => (setChan_isClosed hq d) ▸ h⟩

/-- The connection a step tells to close because its peer is gone. -/
def survivor (s : HubState) : Event → Option OutboundTx
  | .register handle _ _ _ _ => doomedSurvivor s.sessions handle
  | .disconnect c => (s.task c).bind fun t => leftBehind s.sessions t.handle t.role c
  | _ => none

theorem survivor_none (he : movesRooms e = false) : survivor s e = none := by
  cases e with
  | register => cases he
  | disconnect => cases he
  | _ => rfl

/-- A step changes the rooms by `register` and `disconnect` alone. -/
theorem sessions_step (hl : Linked s) (h : step cfg s e = some s') :
    RoomStep (survivor s e) s.sessions s'.sessions ∨
      QueueStep (survivor s e) s.sessions s'.sessions := by
  cases move_of_step h with
  | refused hr => exact Or.inl (register_step hl.seats hr)
  | registered hr => exact Or.inl (register_step hl.seats hr)
  | stay he => exact Or.inr ⟨survivor_none he, rfl, fun _ h => h⟩
  | lookup => exact Or.inr ⟨rfl, rfl, fun _ h => h⟩
  | wait _ _ hq => exact Or.inr (queueStep_setChan (sent_closed (Or.inl hq)))
  | sent _ _ hq => exact Or.inr (queueStep_setChan (sent_closed (hq.imp And.right And.right)))
  | took _ _ hq => exact Or.inr (queueStep_setChan (Chan.recv_cases hq).2.1)
  | @dropped c t ht hp =>
    refine Or.inr ⟨rfl, rfl, fun d hd => ?_⟩
    by_cases hdc : d = c
    · subst hdc
      refine hl.alive ht ?_
      rw [hp]
      simp [Gone]
    · exact (setChan_isClosed_ne hdc).symm.trans hd
  | @disconnected c t ht hp =>
    have hclosed := (hl.closed c t ht).mpr (Or.inl hp)
    have hm := disconnect_step hl.seats hclosed t.handle t.role t.peerClose
    refine Or.inl ?_
    simp only [survivor, ht, Option.bind_some]
    exact hm

/-- A task that sends to a queue did so before the step, or the step is the read
that looked the queue up. -/
theorem target_step (h : step cfg s e = some s') (ht' : s'.task c = some t')
    (hp : t'.phase.target = some p) : ∃ t, s.task c = some t ∧ t'.handle = t.handle ∧
      t'.role = t.role ∧ (t.phase.target = some p ∨ ∃ bytes now, e = .read c (.binary bytes) now ∧
        t.phase = .select ∧ admits t bytes now = true ∧
        Seated s.sessions t.handle t.role.other p ∧ s'.sessions = s.sessions) := by
  cases move_of_step h with
  | refused => exact ⟨t', ht', rfl, rfl, Or.inl hp⟩
  | registered | sent | took | dropped | disconnected =>
    rcases setTask_cases ht' with ⟨rfl, rfl⟩ | ⟨_, ht⟩
    · cases hp
    · exact ⟨t', ht, rfl, rfl, Or.inl hp⟩
  | stay _ _ _ _ _ htarget =>
    rcases setTask_cases ht' with ⟨rfl, rfl⟩ | ⟨_, ht⟩
    · rw [htarget] at hp
      cases hp
    · exact ⟨t', ht, rfl, rfl, Or.inl hp⟩
  | lookup ht hselect hs hpeer hphase hadmits =>
    rcases setTask_cases ht' with ⟨rfl, rfl⟩ | ⟨_, ht⟩
    · rw [hphase] at hp
      cases hp
      exact ⟨_, ht, hs.handle, hs.role,
        Or.inr ⟨_, _, rfl, hselect, hadmits, peerOf_iff.mp hpeer, rfl⟩⟩
    · exact ⟨t', ht, rfl, rfl, Or.inl hp⟩
  | wait ht hphase =>
    rcases setTask_cases ht' with ⟨rfl, rfl⟩ | ⟨_, ht⟩
    · refine ⟨_, ht, rfl, rfl, Or.inl ?_⟩
      rw [hphase]
      exact hp
    · exact ⟨t', ht, rfl, rfl, Or.inl hp⟩

/-- A sender alive in its seat keeps the room it shares with an open queue. -/
theorem seats_kept (hl : Linked s) (h : step cfg s e = some s') (ht : s.task c = some t)
    (hg : ¬Gone t.phase) (hopen : s.sessions.isClosed p = false)
    (hc : Seated s.sessions t.handle t.role c) (hp : Seated s.sessions t.handle t.role.other p) :
    Seated s'.sessions t.handle t.role c ∧ Seated s'.sessions t.handle t.role.other p := by
  rcases sessions_step hl h with hm | hm
  · have halive : ∀ r y, Seated s.sessions t.handle r y → s.sessions.isClosed y = false := by
      intro r y hy
      by_cases hr : r = t.role
      · subst hr
        rw [hy.eq hc]
        exact hl.alive ht hg
      · obtain rfl := eq_other hr
        rw [hy.eq hp]
        exact hopen
    exact ⟨hm.kept _ _ _ hc halive, hm.kept _ _ _ hp halive⟩
  · exact ⟨(Seated.congr hm.rooms).mpr hc, (Seated.congr hm.rooms).mpr hp⟩

/-- Nobody regains a seat, and no queue that was made opens again. -/
theorem seated_back (hl : Linked s) (h : step cfg s e = some s') (hx : x < s.sessions.made)
    (hs : Seated s'.sessions handle role x) : Seated s.sessions handle role x := by
  rcases sessions_step hl h with hm | hm
  · exact hm.back _ _ _ hx hs
  · exact (Seated.congr hm.rooms).mp hs

theorem open_back (hl : Linked s) (h : step cfg s e = some s') (hx : x < s.sessions.made)
    (ho : s'.sessions.isClosed x = false) : s.sessions.isClosed x = false := by
  rcases sessions_step hl h with hm | hm
  · rwa [hm.isClosed hx] at ho
  · exact hm.opened x ho

end HerdrMobile.Hub.Links
