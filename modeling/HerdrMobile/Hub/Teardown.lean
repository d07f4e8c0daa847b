import HerdrMobile.Hub.Forwarding

/-!
# Who is told that a room is gone

The teardown of a room is one try-send of a close into the queue of the survivor.
A queue with no free permit loses it, and nothing sends it again: from then on the
survivor has no room and nothing that ends its loop.
-/
namespace HerdrMobile.Hub.Teardown

open Lib.Channel Lib.Run Proto.Codes Hub.Limits Hub.Session Hub.Relay Hub.Steps Hub.Rooms Hub.Links
open Hub.Forwarding

set_option autoImplicit false

variable {cfg : Config} {n : Nat} {s s' : HubState} {e : Event} {c d p : OutboundTx}
  {t t' : Task} {es : List Event} {bytes : Bytes} {frame : CloseFrame} {msgs : List Message}

/-- Every message that was queued for a connection and not lost, oldest first. -/
def messages (s : HubState) (c : OutboundTx) (t : Task) : List Message :=
  t.taken ++ (s.sessions.chan c).queue

def HasClose (msgs : List Message) : Prop := ∃ frame, .close frame ∈ msgs

theorem hasClose_binary : HasClose (msgs ++ [.binary bytes]) ↔ HasClose msgs := by
  unfold HasClose
  simp

theorem hasClose_close : HasClose (msgs ++ [.close (some frame)]) :=
  ⟨some frame, by simp⟩

/-- A connection in its loop sits in its slot or was sent a close. -/
def NoOrphan (s : HubState) : Prop :=
  ∀ c t, s.task c = some t → t.phase.inLoop = true →
    Seated s.sessions t.handle t.role c ∨ HasClose (messages s c t)

/-- A connection that sits in its slot was sent no close. -/
def Unclosed (s : HubState) : Prop :=
  ∀ c t, s.task c = some t → t.phase.inLoop = true →
    Seated s.sessions t.handle t.role c → ¬HasClose (messages s c t)

/-- A teardown finds a free permit in the queue of a survivor that is in its loop. -/
def teardownHeard (s : HubState) (e : Event) : Bool :=
  (survivor s e).all fun p => (s.task p).all fun t =>
    !t.phase.inLoop || decide (0 < (s.sessions.chan p).free)

theorem sent_queue {q q' : Outbound} {rp : Polled}
    (h : q.send c (.binary bytes) = (rp, q') ∨ q.resume c (.binary bytes) = (rp, q')) :
    q'.queue = q.queue ∨ q'.queue = q.queue ++ [.binary bytes] := by
  rcases h with h | h
  · obtain ⟨_, _, rfl⟩ | ⟨_, _, _, rfl⟩ | ⟨_, _, _, hq, _⟩ := Chan.send_cases h
    · exact Or.inl rfl
    · exact Or.inr rfl
    · exact Or.inl hq
  · obtain ⟨_, _, rfl⟩ | ⟨_, _, _, hq, _⟩ | ⟨_, _, _, rfl⟩ := Chan.resume_cases h
    · exact Or.inl rfl
    · exact Or.inr hq
    · exact Or.inl rfl

/-- What a step does to the messages of a connection that was there: it queues one
frame, or it is the teardown that leaves the connection behind, or it does nothing. -/
inductive Queued (s : HubState) (e : Event) (c : OutboundTx) (before after : List Message) : Prop
  | same : after = before → Queued s e c before after
  | frame (bytes : Bytes) : after = before ++ [.binary bytes] → Queued s e c before after
  | closed (frame : CloseFrame) (taken : List Message) : survivor s e = some c →
      before = taken ++ (s.sessions.chan c).queue →
      after = taken ++ ((s.sessions.chan c).attempt (.close (some frame))).queue →
      Queued s e c before after

theorem queued_roomStep {S : HubState} {o : Option OutboundTx} (hs : survivor s e = o)
    (hm : RoomStep o s.sessions S.sessions) (hc : c < s.sessions.made) (t : Task) :
    Queued s e c (messages s c t) (messages S c t) := by
  subst hs
  by_cases ho : survivor s e = some c
  · obtain ⟨_, _, frame, hchan⟩ := hm.told c ho
    refine .closed frame t.taken ho rfl ?_
    unfold messages
    rw [hchan]
  · refine .same ?_
    unfold messages
    rw [hm.chan c hc ho]

theorem queued_setChan {S : HubState} {q : Outbound}
    (hq : q.queue = (s.sessions.chan p).queue ∨
      q.queue = (s.sessions.chan p).queue ++ [.binary bytes])
    (hS : S.sessions = s.sessions.setChan p q) (htaken : t'.taken = t.taken) :
    Queued s e c (messages s c t) (messages S c t') := by
  unfold messages
  rw [hS, htaken]
  by_cases hc : c = p
  · subst hc
    rw [setChan_self]
    rcases hq with hq | hq
    · refine .same ?_
      rw [hq]
    · refine .frame bytes ?_
      rw [hq, List.append_assoc]
  · refine .same ?_
    rw [setChan_ne hc]

/-- A connection in its loop after a step was in its loop before it, or registered in it. -/
theorem loop_step (hl : Linked s) (h : step cfg s e = some s') (ht' : s'.task c = some t')
    (hin : t'.phase.inLoop = true) :
    (Seated s'.sessions t'.handle t'.role c ∧ messages s' c t' = []) ∨
    (∃ t, s.task c = some t ∧ t.phase.inLoop = true ∧ t'.handle = t.handle ∧ t'.role = t.role ∧
      Queued s e c (messages s c t) (messages s' c t')) := by
  cases move_of_step h with
  | refused hr =>
    have hm := register_step hl.seats hr
    exact Or.inr ⟨t', ht', hin, rfl, rfl, queued_roomStep (by rfl) hm (hl.made c t' ht') t'⟩
  | registered hr =>
    have hm := register_step hl.seats hr
    rcases setTask_cases ht' with ⟨rfl, rfl⟩ | ⟨_, ht⟩
    · obtain ⟨_, hchan, hseat⟩ := register_fresh hl.seats hr
      refine Or.inl ⟨hseat, ?_⟩
      unfold messages
      rw [setTask_sessions]
      change [] ++ (Chan.queue _) = []
      rw [hchan]
      rfl
    · exact Or.inr ⟨t', ht, hin, rfl, rfl, queued_roomStep (by rfl) hm (hl.made c t' ht) t'⟩
  | stay _ ht hloop _ hs =>
    rcases setTask_cases ht' with ⟨rfl, rfl⟩ | ⟨_, ht⟩
    · refine Or.inr ⟨_, ht, hloop, hs.handle, hs.role, .same ?_⟩
      unfold messages
      rw [hs.taken]
      rfl
    · exact Or.inr ⟨t', ht, hin, rfl, rfl, .same rfl⟩
  | lookup ht hp hs =>
    rcases setTask_cases ht' with ⟨rfl, rfl⟩ | ⟨_, ht⟩
    · refine Or.inr ⟨_, ht, by rw [hp]; rfl, hs.handle, hs.role, .same ?_⟩
      unfold messages
      rw [hs.taken]
      rfl
    · exact Or.inr ⟨t', ht, hin, rfl, rfl, .same rfl⟩
  | wait ht hp hq =>
    have hqueue := sent_queue (Or.inl hq)
    rcases setTask_cases ht' with ⟨rfl, rfl⟩ | ⟨_, ht⟩
    · exact Or.inr ⟨_, ht, by rw [hp]; rfl, rfl, rfl, queued_setChan hqueue rfl rfl⟩
    · exact Or.inr ⟨t', ht, hin, rfl, rfl, queued_setChan hqueue rfl rfl⟩
  | @sent c' t peer bytes rp q ht hr hq =>
    have hqueue := sent_queue (hq.imp And.right And.right)
    rcases setTask_cases ht' with ⟨rfl, rfl⟩ | ⟨_, ht⟩
    · have hloop : t.phase.inLoop = true := by
        rcases hq with ⟨hp, _⟩ | ⟨hp, _⟩ <;> rw [hp] <;> rfl
      exact Or.inr ⟨_, ht, hloop, rfl, rfl, queued_setChan hqueue rfl rfl⟩
    · exact Or.inr ⟨t', ht, hin, rfl, rfl, queued_setChan hqueue rfl rfl⟩
  | @took c' t msg q ht hp hq =>
    -- The message moves from the queue to the end of what was taken.
    rcases setTask_cases ht' with ⟨rfl, rfl⟩ | ⟨hne, ht⟩
    · refine Or.inr ⟨_, ht, by rw [hp]; rfl, rfl, rfl, .same ?_⟩
      unfold messages
      rw [(Chan.recv_cases hq).1, setTask_sessions, setChan_self]
      change (t.taken ++ [msg]) ++ q.queue = _
      rw [List.append_assoc]
      rfl
    · refine Or.inr ⟨t', ht, hin, rfl, rfl, .same ?_⟩
      unfold messages
      rw [setTask_sessions, setChan_ne hne]
  | dropped ht hp =>
    rcases setTask_cases ht' with ⟨rfl, rfl⟩ | ⟨hne, ht⟩
    · cases hin
    · refine Or.inr ⟨t', ht, hin, rfl, rfl, .same ?_⟩
      unfold messages
      rw [setTask_sessions, setChan_ne hne]
  | @disconnected c' t ht hp =>
    have hclosed := (hl.closed c' t ht).mpr (Or.inl hp)
    have hm := disconnect_step hl.seats hclosed t.handle t.role t.peerClose
    have hs : survivor s (.disconnect c') = leftBehind s.sessions t.handle t.role c' := by
      simp only [survivor, ht, Option.bind_some]
    rcases setTask_cases ht' with ⟨rfl, rfl⟩ | ⟨_, ht⟩
    · cases hin
    · exact Or.inr ⟨t', ht, hin, rfl, rfl,
        queued_roomStep hs hm (hl.made c t' ht) t'⟩

theorem Queued.hasClose {before after : List Message} (hq : Queued s e c before after)
    (hb : HasClose before) : HasClose after := by
  cases hq with
  | same h => exact h ▸ hb
  | frame bytes h => exact h ▸ (hasClose_binary).mpr hb
  | closed frame taken _ h h' =>
    rw [h] at hb
    obtain ⟨f, hf⟩ := hb
    rw [h']
    refine ⟨f, ?_⟩
    rcases Chan.attempt_queue (s.sessions.chan c) (.close (some frame)) with hq | hq
    · rw [hq]
      exact hf
    · rw [hq, ← List.append_assoc]
      exact List.mem_append_left _ hf

theorem Queued.hasClose_back {before after : List Message} (hq : Queued s e c before after)
    (ha : HasClose after) : HasClose before ∨ survivor s e = some c := by
  cases hq with
  | same h => exact Or.inl (h ▸ ha)
  | frame bytes h => exact Or.inl ((hasClose_binary).mp (h ▸ ha))
  | closed _ _ hs => exact Or.inr hs

theorem unclosed_step (hl : Linked s) (hu : Unclosed s) (h : step cfg s e = some s') :
    Unclosed s' := by
  intro c t' ht' hin hseat hclose
  rcases loop_step hl h ht' hin with ⟨_, hm⟩ | ⟨t, ht, hloop, hh, hr, hq⟩
  · rw [hm] at hclose
    obtain ⟨f, hf⟩ := hclose
    cases hf
  · rw [hh, hr] at hseat
    have hback := seated_back hl h (hl.made c t ht) hseat
    rcases hq.hasClose_back hclose with hclose | hs
    · exact hu c t ht hloop hback hclose
    · rcases sessions_step hl h with hm | hm
      · exact (hm.told c hs).2.1 _ _ hseat
      · rw [hm.silent] at hs
        cases hs

theorem attempt_hasClose {q : Outbound} (hc : q.closed = false) (hf : 0 < q.free)
    (taken : List Message) (frame : CloseFrame) :
    HasClose (taken ++ (q.attempt (.close (some frame))).queue) := by
  rcases Chan.attempt_cases q (.close (some frame)) with ⟨_, h | h⟩ | ⟨_, _, h⟩
  · rw [hc] at h
    cases h
  · omega
  · rw [h, Chan.push_queue, ← List.append_assoc]
    exact hasClose_close

theorem attempt_full {q : Outbound} (hf : q.free = 0) (msg : Message) : q.attempt msg = q := by
  rcases Chan.attempt_cases q msg with ⟨h, _⟩ | ⟨_, h, _⟩
  · exact h
  · omega

theorem noOrphan_step (hl : Linked s) (ho : NoOrphan s) (hg : teardownHeard s e = true)
    (h : step cfg s e = some s') : NoOrphan s' := by
  intro c t' ht' hin
  rcases loop_step hl h ht' hin with ⟨hseat, _⟩ | ⟨t, ht, hloop, hh, hr, hq⟩
  · exact Or.inl hseat
  · rw [hh, hr]
    rcases ho c t ht hloop with hseat | hclose
    · rcases sessions_step hl h with hm | hm
      · have halive := hl.alive ht (not_gone_of_inLoop hloop)
        rcases hm.lost _ _ c hseat with hseat | hclosed | hs
        · exact Or.inl hseat
        · rw [halive] at hclosed
          cases hclosed
        · obtain ⟨_, _, frame, hchan⟩ := hm.told c hs
          have hfree : 0 < (s.sessions.chan c).free := by
            simpa [teardownHeard, hs, ht, hloop] using hg
          refine Or.inr ?_
          unfold messages
          rw [hchan]
          exact attempt_hasClose halive hfree t'.taken frame
      · exact Or.inl ((Seated.congr hm.rooms).mpr hseat)
    · exact Or.inr (hq.hasClose hclose)

/-- The survivor does not run in the step that leaves it behind. -/
theorem survivor_task (hl : Linked s) (h : step cfg s e = some s') (hs : survivor s e = some c)
    (ht : s.task c = some t) (hloop : t.phase.inLoop = true) : s'.task c = some t := by
  cases move_of_step h with
  | refused => exact ht
  | registered hr =>
    obtain ⟨rfl, _⟩ := register_fresh hl.seats hr
    exact setTask_fresh hl rfl ht
  | stay he =>
    rw [survivor_none he] at hs
    cases hs
  | disconnected hd hp =>
    rw [setTask_ne]
    · exact ht
    · rintro rfl
      rw [hd] at ht
      cases ht
      rw [hp] at hloop
      cases hloop
  | _ => cases hs

/-- A teardown that finds the queue full leaves an orphan. -/
theorem orphan_of_full (hl : Linked s) (hu : Unclosed s) (h : step cfg s e = some s')
    (ho : NoOrphan s') : teardownHeard s e = true := by
  unfold teardownHeard
  cases hs : survivor s e with
  | none => rfl
  | some c =>
    rw [Option.all_some]
    cases ht : s.task c with
    | none => rfl
    | some t =>
      rw [Option.all_some, Bool.or_eq_true, Bool.not_eq_true', decide_eq_true_eq]
      by_contra hcon
      rw [not_or, Bool.not_eq_false] at hcon
      obtain ⟨hloop, hfull⟩ := hcon
      have ht' := survivor_task hl h hs ht hloop
      rcases sessions_step hl h with hm | hm
      · obtain ⟨⟨handle, role, hseat⟩, hlost, frame, hchan⟩ := hm.told c hs
        obtain ⟨u, hu', rfl, rfl, _⟩ := hl.seat _ _ _ hseat
        rw [ht] at hu'
        cases hu'
        rcases ho c t ht' hloop with hseat' | hclose
        · exact hlost _ _ hseat'
        · unfold messages at hclose
          rw [hchan, attempt_full (by omega)] at hclose
          exact hu c t ht hloop hseat hclose
      · rw [hm.silent] at hs
        cases hs

theorem noOrphan_start (n : Nat) : NoOrphan (HubState.start n) := fun _ _ h => nomatch h

theorem unclosed_start (n : Nat) : Unclosed (HubState.start n) := fun _ _ h => nomatch h

structure Watched (s : HubState) : Prop where
  linked : Linked s
  unclosed : Unclosed s

theorem watched_visits (hv : Visits (step cfg) (HubState.start n) es s) : Watched s := by
  refine visits_of_step Watched ⟨linked_start n, unclosed_start n⟩ ?_ hv
  intro s e s' hw h
  exact ⟨linked_step hw.linked h, unclosed_step hw.linked hw.unclosed h⟩

/-- No survivor is orphaned in a run exactly when every teardown of the run finds a
free permit in the queue of a survivor that is still in its loop. -/
theorem noOrphan_iff (cfg : Config) (n : Nat) (es : List Event) :
    (∀ s, Visits (step cfg) (HubState.start n) es s → NoOrphan s) ↔
      ∀ s e s', Occurs (step cfg) (HubState.start n) es s e s' → teardownHeard s e = true := by
  constructor
  · intro h s e s' ho
    have hw := watched_visits ho.before
    exact orphan_of_full hw.linked hw.unclosed ho.step_eq (h s' ho.after)
  · intro h s hv
    refine visits_invariant NoOrphan (noOrphan_start n) ?_ hv
    intro s e s' hi ho
    exact noOrphan_step (linked_visits ho.before) hi (h s e s' ho) ho.step_eq

/-- The connection reads a frame and queues it, `k` times. -/
def forwards (c : OutboundTx) (k : Nat) : List Event :=
  (List.replicate k [.read c (.binary [7]) 0, .pollForward c]).flatten

/-- The Host fills the queue of the Device, whose task runs no more, and is gone. -/
def fullQueue : List Event :=
  joinedRoom ++ forwards 0 32 ++ [.read 0 .ended 0, .dropInbound 0, .disconnect 0]

def isClose : Message → Bool
  | .close _ => true
  | _ => false

theorem fullQueue_orphan : ((run (step limits) (HubState.start 5) fullQueue).any fun s =>
    (s.task 1).any fun t => t.phase.inLoop && (!s.sessions.ownsSlot t.handle t.role 1 &&
      !(messages s 1 t).any isClose)) = true := by decide

theorem orphan_reached :
    ¬∀ (cfg : Config) (n : Nat) (es : List Event) (s : HubState),
      Visits (step cfg) (HubState.start n) es s → NoOrphan s := by
  intro h
  obtain ⟨s, hs, hp⟩ := (Option.any_eq_true ..).mp fullQueue_orphan
  obtain ⟨t, ht, hp⟩ := (Option.any_eq_true ..).mp hp
  simp only [Bool.and_eq_true, Bool.not_eq_true'] at hp
  obtain ⟨hloop, hseat, hclose⟩ := hp
  rcases h limits 5 fullQueue s (visits_end hs) 1 t ht hloop with hown | ⟨frame, hf⟩
  · rw [ownsSlot_iff.mpr hown] at hseat
    cases hseat
  · rw [List.any_eq_false] at hclose
    exact hclose _ hf rfl

end HerdrMobile.Hub.Teardown
