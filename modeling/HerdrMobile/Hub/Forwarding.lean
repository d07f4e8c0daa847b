import HerdrMobile.Hub.Links

/-!
# Forwarding and rooms

`forward` finds the peer by handle and role alone. A connection that lost its
room and did not hear of it yet finds the room that took the handle over.
`disconnect` has the identity check that `forward` lacks, and the frames that are
read under that check stay in their room.
-/
namespace HerdrMobile.Hub.Forwarding

open Lib.Channel Lib.Run Proto.Codes Hub.Limits Hub.Session Hub.Relay Hub.Steps Hub.Rooms Hub.Links

set_option autoImplicit false

variable {cfg : Config} {n : Nat} {s s' : HubState} {e : Event} {c d p : OutboundTx}
  {t t' : Task} {es : List Event} {bytes : Bytes}

/-- A sender that still has its seat sends to the opposite seat. -/
def Aligned (s : HubState) : Prop :=
  ∀ c t p, s.task c = some t → t.phase.target = some p → s.sessions.isClosed p = false →
    Seated s.sessions t.handle t.role c → Seated s.sessions t.handle t.role.other p

theorem aligned_step (hl : Linked s) (ha : Aligned s) (h : step cfg s e = some s') :
    Aligned s' := by
  intro c t' p ht' hp hopen hc
  obtain ⟨t, ht, hh, hr, hcase⟩ := target_step h ht' hp
  rw [hh, hr] at hc ⊢
  have hc := seated_back hl h (hl.made c t ht) hc
  rcases hcase with htarget | ⟨_, _, _, _, _, hpeer, hm⟩
  · obtain ⟨u, hu, _, _⟩ := hl.target c t p ht htarget
    have hopen := open_back hl h (hl.made p u hu) hopen
    have hpeer := ha c t p ht htarget hopen hc
    exact (seats_kept hl h ht (not_gone_of_target htarget) hopen hc hpeer).2
  · rw [hm]
    exact hpeer

/-- Both hold in every state of every run. -/
structure Routed (s : HubState) : Prop where
  linked : Linked s
  aligned : Aligned s

theorem routed_start (n : Nat) : Routed (HubState.start n) :=
  ⟨linked_start n, fun _ _ _ h => nomatch h⟩

theorem routed_step (hr : Routed s) (h : step cfg s e = some s') : Routed s' :=
  ⟨linked_step hr.linked h, aligned_step hr.linked hr.aligned h⟩

theorem routed_visits (hv : Visits (step cfg) (HubState.start n) es s) : Routed s :=
  visits_of_step Routed (routed_start n) routed_step hv

/-- A step admits no binary frame, or the reader passes the check of `disconnect`,
or its lookup finds nobody. -/
def ownerReads (s : HubState) : Event → Bool
  | .read c (.binary bytes) now => (s.task c).all fun t =>
      !admits t bytes now || s.sessions.ownsSlot t.handle t.role c ||
        (s.sessions.peerOf t.handle t.role).isNone
  | _ => true

/-- A sender to an open queue has its seat. -/
def Owned (s : HubState) : Prop :=
  ∀ c t p, s.task c = some t → t.phase.target = some p → s.sessions.isClosed p = false →
    Seated s.sessions t.handle t.role c

theorem owned_step (hr : Routed s) (ho : Owned s) (hg : ownerReads s e = true)
    (h : step cfg s e = some s') : Owned s' := by
  intro c t' p ht' hp hopen
  obtain ⟨t, ht, hh, hrole, hcase⟩ := target_step h ht' hp
  rw [hh, hrole]
  rcases hcase with htarget | ⟨bytes, now, rfl, -, hadmits, hpeer, hm⟩
  · obtain ⟨u, hu, _, _⟩ := hr.linked.target c t p ht htarget
    have hopen := open_back hr.linked h (hr.linked.made p u hu) hopen
    have hc := ho c t p ht htarget hopen
    have hpeer := hr.aligned c t p ht htarget hopen hc
    exact (seats_kept hr.linked h ht (not_gone_of_target htarget) hopen hc hpeer).1
  · rw [hm]
    simp only [ownerReads, ht, Option.all_some, hadmits, Bool.not_true, Bool.false_or,
      Bool.or_eq_true] at hg
    rcases hg with hown | hnone
    · exact ownsSlot_iff.mp hown
    · rw [peerOf_iff.mpr hpeer] at hnone
      cases hnone

theorem owned_visits
    (hgood : ∀ s e s', Occurs (step cfg) (HubState.start n) es s e s' → ownerReads s e = true)
    (hv : Visits (step cfg) (HubState.start n) es s) : Owned s := by
  have hinv : Routed s ∧ Owned s :=
    visits_invariant (fun s => Routed s ∧ Owned s) ⟨routed_start n, fun _ _ _ h => nomatch h⟩
      (fun hi ho => ⟨routed_step hi.1 ho.step_eq,
        owned_step hi.1 hi.2 (hgood _ _ _ ho) ho.step_eq⟩) hv
  exact hinv.2

/-- The frame of a pending send is one its task read. -/
def FromRead (cfg : Config) (n : Nat) (es : List Event) (s : HubState) : Prop :=
  ∀ c t p bytes, s.task c = some t →
    t.phase = .forward p bytes ∨ t.phase = .awaitSpace p bytes →
    ∃ r now r', Occurs (step cfg) (HubState.start n) es r (.read c (.binary bytes) now) r'

theorem pending_step {p : OutboundTx} (h : step cfg s e = some s') (ht' : s'.task c = some t')
    (hp : t'.phase = .forward p bytes ∨ t'.phase = .awaitSpace p bytes) :
    (∃ t, s.task c = some t ∧ (t.phase = .forward p bytes ∨ t.phase = .awaitSpace p bytes)) ∨
      ∃ now, e = .read c (.binary bytes) now := by
  have hkeep : ∀ {S : HubState} {d : OutboundTx} {u : Task}, S.task = s.task →
      (S.setTask d u).task c = some t' →
      (c = d ∧ t' = u) ∨
        ∃ t, s.task c = some t ∧ (t.phase = .forward p bytes ∨ t.phase = .awaitSpace p bytes) := by
    intro S d u hS ht
    rcases setTask_cases ht with ht | ⟨_, ht⟩
    · exact Or.inl ht
    · rw [hS] at ht
      exact Or.inr ⟨t', ht, hp⟩
  cases move_of_step h with
  | refused => exact Or.inl ⟨t', ht', hp⟩
  | registered | sent | took | dropped | disconnected =>
    rcases hkeep rfl ht' with ⟨rfl, rfl⟩ | hkept
    · rcases hp with hp | hp <;> cases hp
    · exact Or.inl hkept
  | stay _ _ _ _ _ htarget =>
    rcases hkeep rfl ht' with ⟨rfl, rfl⟩ | hkept
    · rcases hp with hp | hp <;> rw [hp] at htarget <;> cases htarget
    · exact Or.inl hkept
  | lookup ht _ hs hpeer hphase =>
    rcases hkeep rfl ht' with ⟨rfl, rfl⟩ | hkept
    · rw [hphase] at hp
      rcases hp with hp | hp <;> cases hp
      exact Or.inr ⟨_, rfl⟩
    · exact Or.inl hkept
  | wait ht hphase =>
    rcases hkeep rfl ht' with ⟨rfl, rfl⟩ | hkept
    · rcases hp with hp | hp <;> cases hp
      exact Or.inl ⟨_, ht, Or.inl hphase⟩
    · exact Or.inl hkept

theorem fromRead_visits (hv : Visits (step cfg) (HubState.start n) es s) :
    FromRead cfg n es s := by
  refine visits_invariant (FromRead cfg n es) ?_ ?_ hv
  · intro c t p bytes ht
    cases ht
  · intro s e s' hi ho c t' p bytes ht' hp
    rcases pending_step ho.step_eq ht' hp with ⟨t, ht, hp⟩ | ⟨now, rfl⟩
    · exact hi c t p bytes ht hp
    · exact ⟨s, now, s', ho⟩

/-- What a delivering poll says about its sender. -/
theorem delivery_cases (hd : s.delivery e = some (c, p, bytes)) : ∃ t, s.task c = some t ∧
    (t.phase = .forward p bytes ∨ t.phase = .awaitSpace p bytes) ∧
    s.sessions.isClosed p = false := by
  cases e with
  | pollForward c' =>
    obtain ⟨t, ht, hd⟩ := Option.bind_eq_some_iff.mp hd
    split at hd
    · rename_i peer bytes' hp
      split at hd
      · rename_i hq
        cases hd
        refine ⟨t, ht, Or.inl hp, ?_⟩
        rcases Chan.send_cases (Prod.ext hq rfl) with ⟨hr, _⟩ | ⟨_, hc, _⟩ | ⟨hr, _⟩
        · cases hr
        · exact hc
        · cases hr
      · cases hd
    · rename_i peer bytes' hp
      split at hd
      · rename_i hq
        cases hd
        refine ⟨t, ht, Or.inr hp, ?_⟩
        rcases Chan.resume_cases (Prod.ext hq rfl) with ⟨hr, _⟩ | ⟨_, hc, _⟩ | ⟨hr, _⟩
        · cases hr
        · exact hc
        · cases hr
      · cases hd
    · cases hd
  | register => cases hd
  | joined => cases hd
  | read => cases hd
  | recv => cases hd
  | heartbeat => cases hd
  | sinkDone => cases hd
  | dropInbound => cases hd
  | disconnect => cases hd

/-- `c` read these bytes in the run, and it and `p` face each other in one room. -/
def InRoom (cfg : Config) (n : Nat) (es : List Event) (s : HubState) (c p : OutboundTx)
    (bytes : Bytes) : Prop :=
  (∃ r now r', Occurs (step cfg) (HubState.start n) es r (.read c (.binary bytes) now) r') ∧
  ∃ t room, s.task c = some t ∧ s.sessions.rooms.lookup t.handle = some room ∧
    room.slot t.role = some c ∧ room.slot t.role.other = some p

/-- With the check of `disconnect` at every read that finds a peer, a frame only
reaches the queue of the connection opposite its reader, at the moment it is queued. -/
theorem delivery_in_room (cfg : Config) (n : Nat) (es : List Event)
    (hgood : ∀ s e s', Occurs (step cfg) (HubState.start n) es s e s' → ownerReads s e = true) :
    ∀ s e s' c p bytes, Occurs (step cfg) (HubState.start n) es s e s' →
      s.delivery e = some (c, p, bytes) → InRoom cfg n es s c p bytes := by
  intro s e s' c p bytes ho hd
  obtain ⟨t, ht, hp, hopen⟩ := delivery_cases hd
  have htarget : t.phase.target = some p := by
    rcases hp with hp | hp <;> rw [hp] <;> rfl
  have hr := routed_visits ho.before
  have hc := owned_visits hgood ho.before c t p ht htarget hopen
  have hpeer := hr.aligned c t p ht htarget hopen hc
  refine ⟨fromRead_visits ho.before c t p bytes ht hp, ?_⟩
  obtain ⟨room, hroom, hslot⟩ := hc
  obtain ⟨room', hroom', hslot'⟩ := hpeer
  rw [hroom] at hroom'
  cases hroom'
  exact ⟨t, room, ht, hroom, hslot, hslot'⟩

def limits : Config := ⟨10, 100⟩

/-- A Host (0) and a Device (1) meet in a room. -/
def joinedRoom : List Event :=
  [.register 5 .host (.v4 1) false 0, .register 5 .device (.v4 2) false 0, .joined 0 0, .joined 1 0]

def paired : List Event := joinedRoom ++ [.read 1 (.binary [7]) 0]

theorem delivery_in_room_paired :
    ∃ s s', Occurs (step limits) (HubState.start 5) (paired ++ [.pollForward 1]) s (.pollForward 1) s' ∧
      s.delivery (.pollForward 1) = some (1, 0, [7]) ∧
      InRoom limits 5 (paired ++ [.pollForward 1]) s 1 0 [7] := by
  have hrun : ((run (step limits) (HubState.start 5) paired).any fun s =>
      (step limits s (.pollForward 1)).isSome &&
        decide (s.delivery (.pollForward 1) = some (1, 0, [7]))) = true := by decide
  obtain ⟨s, hs, hp⟩ := (Option.any_eq_true ..).mp hrun
  rw [Bool.and_eq_true, Option.isSome_iff_exists, decide_eq_true_eq] at hp
  obtain ⟨⟨s', hs'⟩, hd⟩ := hp
  have ho := occurs_last hs hs'
  refine ⟨s, s', ho, hd, ?_⟩
  exact delivery_in_room limits 5 _ (fun _ _ _ h => occurs_good (by decide) h) s _ s' 1 0 [7] ho hd

/-- The Host is gone and a new one (2) has the handle before the Device (1) took
the close from its queue. The Device reads one more frame. -/
def takenOver : List Event :=
  joinedRoom ++ [.read 0 .ended 0, .dropInbound 0, .register 5 .host (.v4 1) false 0,
    .joined 2 0, .read 1 (.binary [7]) 0]

theorem takenOver_delivery : ((run (step limits) (HubState.start 5) takenOver).any fun s =>
    (step limits s (.pollForward 1)).isSome &&
      (decide (s.delivery (.pollForward 1) = some (1, 2, [7])) &&
        (s.task 1).all fun t => !s.sessions.ownsSlot t.handle t.role 1)) = true := by decide

theorem delivery_leaves_room :
    ¬∀ (cfg : Config) (n : Nat) (es : List Event) (s : HubState) (e : Event) (s' : HubState)
      (c p : OutboundTx) (bytes : Bytes), Occurs (step cfg) (HubState.start n) es s e s' →
      s.delivery e = some (c, p, bytes) → InRoom cfg n es s c p bytes := by
  intro h
  obtain ⟨s, hs, hp⟩ := (Option.any_eq_true ..).mp takenOver_delivery
  simp only [Bool.and_eq_true, Option.isSome_iff_exists, decide_eq_true_eq] at hp
  obtain ⟨⟨s', hs'⟩, hd, hnot⟩ := hp
  obtain ⟨_, t, room, ht, hroom, hslot, _⟩ := h limits 5 _ s _ s' 1 2 [7] (occurs_last hs hs') hd
  have hown := ownsSlot_iff.mpr ⟨room, hroom, hslot⟩
  simp [ht, hown] at hnot

end HerdrMobile.Hub.Forwarding
