import HerdrMobile.Hub.Teardown

/-!
# Two tasks that wait for each other

A task that waits in `forward` takes nothing from its own queue. Two tasks of a
room that wait for each other keep both queues full, and no event of either is
left: the block lasts.
-/
namespace HerdrMobile.Hub.Blocking

open Lib.Channel Lib.Run Proto.Codes Hub.Limits Hub.Session Hub.Relay Hub.Steps Hub.Rooms Hub.Links
open Hub.Forwarding Hub.Teardown

set_option autoImplicit false

variable {cfg : Config} {n : Nat} {s s' : HubState} {e : Event} {c d p : OutboundTx}
  {t t' u : Task} {es : List Event} {bytes : Bytes} {handle : Handle} {role : Role}

/-- The task of `c` waits in `forward` for a permit of the open queue of `p`. -/
def waitsFor (s : HubState) (c p : OutboundTx) : Bool :=
  (s.task c).any fun t =>
    match t.phase with
    | .awaitSpace q _ => decide (q = p ∧ c ∈ (s.sessions.chan p).waiting) && !s.sessions.isClosed p
    | _ => false

theorem waitsFor_iff : waitsFor s c p = true ↔ ∃ t bytes, s.task c = some t ∧
    t.phase = .awaitSpace p bytes ∧ c ∈ (s.sessions.chan p).waiting ∧
    s.sessions.isClosed p = false := by
  unfold waitsFor
  rw [Option.any_eq_true]
  constructor
  · rintro ⟨t, ht, h⟩
    split at h
    · rename_i q bytes hp
      simp only [Bool.and_eq_true, decide_eq_true_eq, Bool.not_eq_true'] at h
      obtain ⟨⟨rfl, hw⟩, hc⟩ := h
      exact ⟨t, bytes, ht, hp, hw, hc⟩
    · cases h
  · rintro ⟨t, bytes, ht, hp, hw, hc⟩
    refine ⟨t, ht, ?_⟩
    rw [hp]
    simp [hw, hc]

/-- The two connections of one room wait for each other. -/
def MutualBlock (s : HubState) (handle : Handle) (host device : OutboundTx) : Prop :=
  Seated s.sessions handle .host host ∧ Seated s.sessions handle .device device ∧
    waitsFor s host device = true ∧ waitsFor s device host = true

theorem waitsFor_target (h : waitsFor s c p = true) :
    ∃ t, s.task c = some t ∧ t.phase.target = some p := by
  obtain ⟨t, bytes, ht, hp, _⟩ := (waitsFor_iff).mp h
  exact ⟨t, ht, by rw [hp]; rfl⟩

theorem target_ne (hl : Linked s) (ht : s.task c = some t) (hp : t.phase.target = some p) :
    c ≠ p := by
  rintro rfl
  obtain ⟨u, hu, _, hr⟩ := hl.target c t c ht hp
  rw [ht] at hu
  cases hu
  exact other_ne _ hr.symm

theorem sent_waiting {q q' : Outbound} {rp : Polled} {msg : Message} (hr : rp ≠ .pending)
    (h : q.send c msg = (rp, q') ∨ q.resume c msg = (rp, q')) : q'.waiting = q.waiting := by
  rcases h with h | h
  · obtain ⟨_, _, rfl⟩ | ⟨_, _, _, rfl⟩ | ⟨hp, _⟩ := Chan.send_cases h
    · rfl
    · rfl
    · exact absurd hp hr
  · obtain ⟨_, _, rfl⟩ | ⟨_, _, _, _, _, hw, _⟩ | ⟨hp, _⟩ := Chan.resume_cases h
    · rfl
    · exact hw
    · exact absurd hp hr

/-- Two senders that send to each other sit in one room. -/
def Facing (s : HubState) : Prop :=
  ∀ c t p u, s.task c = some t → t.phase.target = some p → s.task p = some u →
    u.phase.target = some c →
    Seated s.sessions t.handle t.role c ∧ Seated s.sessions t.handle t.role.other p

/-- The later of two lookups found a connection in its seat, and that one, still
in its seat, sends to the opposite seat. -/
theorem facing_of_lookup (hr : Routed s) (ht : s.task c = some t) (hu : s.task p = some u)
    (hback : u.phase.target = some c) (halive : ¬Gone t.phase)
    (hpeer : Seated s.sessions t.handle t.role.other p) :
    Seated s.sessions t.handle t.role c ∧ Seated s.sessions t.handle t.role.other p := by
  obtain ⟨v, hv, hh, hrole⟩ := hr.linked.target p u c hu hback
  rw [ht] at hv
  cases hv
  have hur : t.role.other = u.role := by rw [hrole, other_other]
  rw [hh, hur] at hpeer
  have hc := hr.aligned p u c hu hback (hr.linked.alive ht halive) hpeer
  rw [hh, hrole, other_other]
  exact ⟨hc, hpeer⟩

theorem reader_alive {frame : Incoming} {now : Nat}
    (h : step cfg s (.read c frame now) = some s') (ht : s.task c = some t) : ¬Gone t.phase := by
  obtain ⟨u, hu, h⟩ := Option.bind_eq_some_iff.mp h
  rw [ht] at hu
  cases hu
  split at h
  · rename_i hp
    rw [hp]
    simp [Gone]
  · cases h

theorem facing_step (hr : Routed s) (hf : Facing s) (h : step cfg s e = some s') : Facing s' := by
  intro c t' p u' ht' hp hu' hback
  have hl' := linked_step hr.linked h
  have hne := target_ne hl' ht' hp
  obtain ⟨t, ht, hh, hrole, hc⟩ := target_step h ht' hp
  obtain ⟨u, hu, huh, hurole, hd⟩ := target_step h hu' hback
  obtain ⟨v, hv, hvh, hvrole⟩ := hl'.target c t' p ht' hp
  rw [hu'] at hv
  cases hv
  rw [hh, hrole]
  rcases hc with htarget | ⟨bytes, now, he, -, -, hpeer, hm⟩
  · rcases hd with htarget' | ⟨bytes, now, he, -, -, hpeer, hm⟩
    · obtain ⟨hseat, hpeer⟩ := hf c t p u ht htarget hu htarget'
      have hopen := hr.linked.alive hu (not_gone_of_target htarget')
      exact seats_kept hr.linked h ht (not_gone_of_target htarget) hopen hseat hpeer
    · have halive := reader_alive (he ▸ h) hu
      rw [hm]
      obtain ⟨h1, h2⟩ := facing_of_lookup hr hu ht htarget halive hpeer
      rw [← huh, ← hurole, hvh, hvrole, hh, hrole] at h1 h2
      rw [other_other] at h2
      exact ⟨h2, h1⟩
  · rcases hd with htarget' | ⟨_, _, he', _⟩
    · have halive := reader_alive (he ▸ h) ht
      rw [hm]
      exact facing_of_lookup hr ht hu htarget' halive hpeer
    · rw [he] at he'
      cases he'
      exact absurd rfl hne

structure Paired (s : HubState) : Prop where
  routed : Routed s
  facing : Facing s

/-- Two connections that wait for each other are the Host and the Device of one room. -/
theorem cycle_in_room (hp : Paired s) (hc : waitsFor s c p = true) (hd : waitsFor s p c = true) :
    ∃ handle, MutualBlock s handle c p ∨ MutualBlock s handle p c := by
  obtain ⟨t, ht, htarget⟩ := waitsFor_target hc
  obtain ⟨u, hu, hback⟩ := waitsFor_target hd
  obtain ⟨hseat, hpeer⟩ := hp.facing c t p u ht htarget hu hback
  refine ⟨t.handle, ?_⟩
  cases hr : t.role with
  | host =>
    rw [hr] at hseat hpeer
    exact Or.inl ⟨hseat, hpeer, hc, hd⟩
  | device =>
    rw [hr] at hseat hpeer
    exact Or.inr ⟨hpeer, hseat, hd, hc⟩

/-- Everybody in line at the queue of `p`, waiting or with a permit, is in line
once and suspended there. -/
def InLine (s : HubState) (p : OutboundTx) (q : Outbound) : Prop :=
  (q.waiting ++ q.granted).Nodup ∧
    ∀ x ∈ q.waiting ++ q.granted, ∃ t bytes, s.task x = some t ∧ t.phase = .awaitSpace p bytes

def Ticketed (s : HubState) : Prop :=
  ∀ p u, s.task p = some u → s.sessions.isClosed p = false → InLine s p (s.sessions.chan p)

/-- A line that is shorter than it was, with everybody in it where they were. -/
theorem ticket_sub {q : Outbound} (ht : Ticketed s) (hu : s.task p = some u)
    (hopen : s.sessions.isClosed p = false)
    (hsub : (q.waiting ++ q.granted).Subperm ((s.sessions.chan p).waiting ++ (s.sessions.chan p).granted))
    (hkeep : ∀ x ∈ q.waiting ++ q.granted, ∀ t bytes, s.task x = some t →
      t.phase = .awaitSpace p bytes → s'.task x = some t) : InLine s' p q := by
  obtain ⟨hnodup, hline⟩ := ht p u hu hopen
  constructor
  · obtain ⟨l, hl, hs⟩ := hsub
    exact hl.nodup_iff.mp (hs.nodup hnodup)
  · intro x hx
    obtain ⟨t, bytes, htask, hp⟩ := hline x (hsub.subset hx)
    exact ⟨t, bytes, hkeep x hx t bytes htask hp, hp⟩

theorem ticket_same {q : Outbound} (ht : Ticketed s) (hu : s.task p = some u)
    (hopen : s.sessions.isClosed p = false) (hw : q.waiting = (s.sessions.chan p).waiting)
    (hg : q.granted = (s.sessions.chan p).granted)
    (hkeep : ∀ x t bytes, s.task x = some t → t.phase = .awaitSpace p bytes →
      s'.task x = some t) :
    InLine s' p q := by
  refine ticket_sub ht hu hopen ?_ fun x _ => hkeep x
  rw [hw, hg]

/-- The task of `c` alone moved, and it was not in line at `p`. -/
theorem setTask_keeps {S : HubState} (hS : S.task = s.task) (hc : s.task c = some t)
    (hn : ∀ bytes, t.phase ≠ .awaitSpace p bytes) (x : OutboundTx) (u : Task) (bytes : Bytes)
    (hx : s.task x = some u) (hp : u.phase = .awaitSpace p bytes) :
    (S.setTask c t').task x = some u := by
  have hne : x ≠ c := by
    rintro rfl
    rw [hc] at hx
    cases hx
    exact hn bytes hp
  rw [setTask_ne hne, hS]
  exact hx

theorem resume_waiting {q q' : Outbound} {rp : Polled} {msg : Message}
    (h : q.resume c msg = (rp, q')) (hopen : q'.closed = false) (hr : rp ≠ .pending) :
    c ∈ q.granted ∧ q'.waiting = q.waiting ∧ q'.granted = q.granted.erase c := by
  obtain ⟨_, hcl, rfl⟩ | ⟨_, _, hmem, _, _, hw, hg, _⟩ | ⟨hp, _⟩ := Chan.resume_cases h
  · rw [hcl] at hopen
    cases hopen
  · exact ⟨hmem, hw, hg⟩
  · exact absurd hp hr

theorem ticket_resumed {q : Outbound} (ht : Ticketed s) (hu : s.task p = some u)
    (hopen : s.sessions.isClosed p = false) (hmem : c ∈ (s.sessions.chan p).granted)
    (hw : q.waiting = (s.sessions.chan p).waiting)
    (hg : q.granted = (s.sessions.chan p).granted.erase c)
    (hkeep : ∀ x t, x ≠ c → s.task x = some t → s'.task x = some t) : InLine s' p q := by
  have hnodup := (ht p u hu hopen).1
  have hdis := List.disjoint_of_nodup_append hnodup
  rw [List.nodup_append] at hnodup
  refine ticket_sub ht hu hopen ?_ ?_
  · rw [hw, hg]
    exact (List.Sublist.append (List.Sublist.refl _) List.erase_sublist).subperm
  · intro x hx t _ htask _
    refine hkeep x t ?_ htask
    rintro rfl
    rw [hw, hg] at hx
    rcases List.mem_append.mp hx with hx | hx
    · exact hdis hx hmem
    · exact (hnodup.2.1.mem_erase_iff.mp hx).1 rfl

theorem ticket_joined {q : Outbound} (ht : Ticketed s) (hu : s.task p = some u)
    (hopen : s.sessions.isClosed p = false) (hc : s.task c = some t)
    (hn : ∀ bytes, t.phase ≠ .awaitSpace p bytes)
    (hw : q.waiting = (s.sessions.chan p).waiting ++ [c])
    (hg : q.granted = (s.sessions.chan p).granted) (hc' : s'.task c = some t')
    (hp' : t'.phase = .awaitSpace p bytes)
    (hkeep : ∀ x v, x ≠ c → s.task x = some v → s'.task x = some v) : InLine s' p q := by
  obtain ⟨hnodup, hline⟩ := ht p u hu hopen
  have hperm : (q.waiting ++ q.granted).Perm
      (c :: ((s.sessions.chan p).waiting ++ (s.sessions.chan p).granted)) := by
    rw [hw, hg, List.append_assoc, List.singleton_append]
    exact List.perm_middle
  have hfresh : c ∉ (s.sessions.chan p).waiting ++ (s.sessions.chan p).granted := by
    intro hmem
    obtain ⟨v, bytes, hv, hp⟩ := hline c hmem
    rw [hc] at hv
    cases hv
    exact hn bytes hp
  constructor
  · rw [hperm.nodup_iff, List.nodup_cons]
    exact ⟨hfresh, hnodup⟩
  · intro x hx
    rcases List.mem_cons.mp (hperm.subset hx) with rfl | hx
    · exact ⟨t', bytes, hc', hp'⟩
    · obtain ⟨v, bytes, hv, hp⟩ := hline x hx
      refine ⟨v, bytes, hkeep x v ?_ hv, hp⟩
      rintro rfl
      exact hfresh hx

theorem task_before {S : HubState} (hS : S.task = s.task) (hc : s.task c = some t)
    (hu : (S.setTask c t').task p = some u) : ∃ v, s.task p = some v := by
  rcases setTask_cases hu with ⟨rfl, _⟩ | ⟨_, hu⟩
  · exact ⟨t, hc⟩
  · exact ⟨u, hS ▸ hu⟩

theorem ticketed_step (hl : Linked s) (hk : Ticketed s) (h : step cfg s e = some s') :
    Ticketed s' := by
  intro p u' hu' hopen'
  have hopen : ∀ u, s.task p = some u → s.sessions.isClosed p = false :=
    fun u hu => open_back hl h (hl.made p u hu) hopen'
  cases move_of_step h with
  | refused hr =>
    have hm := register_step hl.seats hr
    have hmade := hl.made p u' hu'
    exact ticket_same hk hu' (hopen u' hu') (hm.waiting hmade) (hm.granted hmade)
      fun _ _ _ hx _ => hx
  | registered hr =>
    have hm := register_step hl.seats hr
    obtain ⟨htx, hchan, _⟩ := register_fresh hl.seats hr
    rcases setTask_cases hu' with ⟨rfl, rfl⟩ | ⟨_, hu⟩
    · unfold InLine
      rw [setTask_sessions]
      change (Chan.waiting (SessionMap.chan _ p) ++ _).Nodup ∧ _
      rw [hchan]
      simp
    · have hmade := hl.made p u' hu
      refine ticket_same hk hu (hopen u' hu) (hm.waiting hmade) (hm.granted hmade)
        fun x t _ hx _ => ?_
      rw [setTask_ne]
      · exact hx
      · rintro rfl
        exact Nat.lt_irrefl _ (htx ▸ hl.made _ t hx)
  | @stay _ c t t' _ ht _ hn =>
    obtain ⟨u, hu⟩ := task_before rfl ht hu'
    refine ticket_same hk hu (hopen u hu) rfl rfl (setTask_keeps rfl ht fun bytes hp => ?_)
    rw [hp] at hn
    cases hn
  | @lookup c t t' _ _ _ ht hphase =>
    obtain ⟨u, hu⟩ := task_before rfl ht hu'
    refine ticket_same hk hu (hopen u hu) rfl rfl (setTask_keeps rfl ht fun bytes hp => ?_)
    rw [hp] at hphase
    cases hphase
  | @wait c t peer bytes q ht hphase hq =>
    obtain ⟨u, hu⟩ := task_before rfl ht hu'
    have hnot : ∀ p bytes, t.phase ≠ .awaitSpace p bytes := by
      intro p bytes hp
      rw [hp] at hphase
      cases hphase
    rw [setTask_sessions]
    by_cases hpp : p = peer
    · subst hpp
      rcases Chan.send_cases hq with ⟨hr, _⟩ | ⟨hr, _⟩ | ⟨_, _, _, _, _, hw, hg, _⟩
      · cases hr
      · cases hr
      · rw [setChan_self]
        exact ticket_joined hk hu (hopen u hu) ht (hnot p) hw hg (setTask_self ..) rfl
          fun x v hne hx => (setTask_ne hne).trans hx
    · rw [setChan_ne hpp]
      exact ticket_same hk hu (hopen u hu) rfl rfl (setTask_keeps rfl ht (hnot p))
  | @sent c t peer bytes rp q ht hr hq =>
    obtain ⟨u, hu⟩ := task_before rfl ht hu'
    rw [setTask_sessions]
    by_cases hpp : p = peer
    · subst hpp
      have hq' : q.closed = false := by
        rw [setTask_sessions] at hopen'
        unfold SessionMap.isClosed at hopen'
        rwa [setChan_self] at hopen'
      rw [setChan_self]
      rcases hq with ⟨hphase, hq⟩ | ⟨hphase, hq⟩
      · have hnot : ∀ bytes, t.phase ≠ .awaitSpace p bytes := by
          intro bytes hp
          rw [hp] at hphase
          cases hphase
        obtain ⟨_, _, rfl⟩ | ⟨_, _, _, rfl⟩ | ⟨hpend, _⟩ := Chan.send_cases hq
        · exact ticket_same hk hu (hopen u hu) rfl rfl (setTask_keeps rfl ht hnot)
        · exact ticket_same hk hu (hopen u hu) rfl rfl (setTask_keeps rfl ht hnot)
        · exact absurd hpend hr
      · obtain ⟨hmem, hw, hg⟩ := resume_waiting hq hq' hr
        exact ticket_resumed hk hu (hopen u hu) hmem hw hg
          fun x v hne hx => (setTask_ne hne).trans hx
    · rw [setChan_ne hpp]
      refine ticket_same hk hu (hopen u hu) rfl rfl (setTask_keeps rfl ht fun bytes hp => ?_)
      rcases hq with ⟨hphase, _⟩ | ⟨hphase, _⟩
      · rw [hp] at hphase
        cases hphase
      · rw [hp] at hphase
        cases hphase
        exact hpp rfl
  | @took c t msg q ht hphase hq =>
    obtain ⟨u, hu⟩ := task_before rfl ht hu'
    have hnot : ∀ bytes, t.phase ≠ .awaitSpace p bytes := fun bytes hp => nomatch hphase.symm.trans hp
    rw [setTask_sessions]
    by_cases hpp : p = c
    · subst hpp
      rw [setChan_self]
      refine ticket_sub hk hu (hopen u hu) ?_ fun x _ => setTask_keeps rfl ht hnot x
      obtain ⟨_, _, ⟨hw, hw', hg, _⟩ | ⟨x, hw, hg, _⟩⟩ := Chan.recv_cases hq
      · rw [hw, hw', hg]
      · rw [hw, hg, ← List.append_assoc]
        exact (List.perm_append_singleton x _).subperm
    · rw [setChan_ne hpp]
      exact ticket_same hk hu (hopen u hu) rfl rfl (setTask_keeps rfl ht hnot)
  | @dropped c t ht hphase =>
    obtain ⟨u, hu⟩ := task_before rfl ht hu'
    rw [setTask_sessions] at hopen' ⊢
    by_cases hpp : p = c
    · subst hpp
      unfold SessionMap.isClosed at hopen'
      rw [setChan_self] at hopen'
      cases hopen'
    · rw [setChan_ne hpp]
      exact ticket_same hk hu (hopen u hu) rfl rfl
        (setTask_keeps rfl ht fun bytes hp => nomatch hphase.symm.trans hp)
  | @disconnected c t ht hphase =>
    obtain ⟨u, hu⟩ := task_before rfl ht hu'
    have hclosed := (hl.closed c t ht).mpr (Or.inl hphase)
    have hm := disconnect_step hl.seats hclosed t.handle t.role t.peerClose
    have hmade := hl.made p u hu
    exact ticket_same hk hu (hopen u hu) (hm.waiting hmade) (hm.granted hmade)
      (setTask_keeps rfl ht fun bytes hp => nomatch hphase.symm.trans hp)

theorem setTask_other {S : HubState} (hS : S.task = s.task) (hd : s.task d = some u)
    (ht : s.task c = some t) (hn : u.phase ≠ t.phase) : (S.setTask d t').task c = some t := by
  rw [setTask_ne]
  · rw [hS]
    exact ht
  · rintro rfl
    rw [ht] at hd
    cases hd
    exact hn rfl

/-- No step moves a task that waits at an open queue and was handed no permit. -/
theorem suspended_still (hl : Linked s) (h : step cfg s e = some s') (ht : s.task c = some t)
    (hp : t.phase = .awaitSpace p bytes) (hopen : s.sessions.isClosed p = false)
    (hng : c ∉ (s.sessions.chan p).granted) : s'.task c = some t := by
  cases move_of_step h with
  | refused => exact ht
  | registered hr =>
    obtain ⟨rfl, _⟩ := register_fresh hl.seats hr
    exact setTask_fresh hl rfl ht
  | stay _ hd _ hn =>
    refine setTask_other rfl hd ht fun heq => ?_
    rw [heq, hp] at hn
    cases hn
  | lookup hd hphase | wait hd hphase | took hd hphase | dropped hd hphase
  | disconnected hd hphase =>
    exact setTask_other rfl hd ht fun heq => nomatch hphase.symm.trans (heq.trans hp)
  | @sent d u peer bytes' rp q hd hr hq =>
    by_cases hdc : d = c
    · subst hdc
      rw [ht] at hd
      cases hd
      rcases hq with ⟨hphase, _⟩ | ⟨hphase, hq⟩
      · cases hphase.symm.trans hp
      · cases hphase.symm.trans hp
        obtain ⟨_, hcl, _⟩ | ⟨_, _, hmem, _⟩ | ⟨hpend, _⟩ := Chan.resume_cases hq
        · exact nomatch hopen.symm.trans hcl
        · exact absurd hmem hng
        · exact absurd hpend hr
    · rw [setTask_ne (Ne.symm hdc)]
      exact ht

/-- Nobody leaves the line of a queue whose task is suspended. -/
theorem waiting_stays (hl : Linked s) (h : step cfg s e = some s') (hu : s.task p = some u)
    (hp : u.phase = .awaitSpace d bytes) (hmem : c ∈ (s.sessions.chan p).waiting) :
    c ∈ (s'.sessions.chan p).waiting := by
  have hmade := hl.made p u hu
  cases move_of_step h with
  | refused hr =>
    exact (register_step hl.seats hr).waiting hmade ▸ hmem
  | registered hr =>
    exact (register_step hl.seats hr).waiting hmade ▸ hmem
  | stay => exact hmem
  | lookup => exact hmem
  | @wait x t peer bytes' q _ _ hq =>
    rw [setTask_sessions]
    by_cases hpp : p = peer
    · subst hpp
      rw [setChan_self]
      rcases Chan.send_cases hq with ⟨hr, _⟩ | ⟨hr, _⟩ | ⟨_, _, _, _, _, hw, _⟩
      · cases hr
      · cases hr
      · rw [hw]
        exact List.mem_append_left _ hmem
    · rwa [setChan_ne hpp]
  | @sent x t peer bytes' rp q _ hr hq =>
    rw [setTask_sessions]
    by_cases hpp : p = peer
    · subst hpp
      rw [setChan_self]
      rwa [sent_waiting hr (hq.imp And.right And.right)]
    · rwa [setChan_ne hpp]
  | @took x t msg q ht hphase hq | @dropped x t ht hphase =>
    rw [setTask_sessions, setChan_ne]
    · exact hmem
    · rintro rfl
      rw [hu] at ht
      cases ht
      cases hphase.symm.trans hp
  | @disconnected x t ht hphase =>
    have hclosed := (hl.closed x t ht).mpr (Or.inl hphase)
    exact (disconnect_step hl.seats hclosed t.handle t.role t.peerClose).waiting hmade ▸ hmem

theorem waitsFor_stays (hl : Linked s) (hk : Ticketed s) (h : step cfg s e = some s')
    (hc : waitsFor s c p = true) (hd : waitsFor s p c = true) : waitsFor s' c p = true := by
  obtain ⟨t, bytes, ht, hp, hmem, hopen⟩ := (waitsFor_iff).mp hc
  obtain ⟨u, bytes', hu, hup, hmem', hopen'⟩ := (waitsFor_iff).mp hd
  have hng := List.disjoint_of_nodup_append (hk p u hu hopen).1 hmem
  have hng' := List.disjoint_of_nodup_append (hk c t ht hopen').1 hmem'
  have hu' := suspended_still hl h hu hup hopen' hng'
  refine (waitsFor_iff).mpr ⟨t, bytes, suspended_still hl h ht hp hopen hng, hp,
    waiting_stays hl h hu hup hmem, ?_⟩
  refine (linked_step hl h).alive hu' ?_
  rw [hup]
  simp [Gone]

structure Sound (s : HubState) : Prop where
  paired : Paired s
  ticketed : Ticketed s

theorem sound_step (hs : Sound s) (h : step cfg s e = some s') : Sound s' :=
  ⟨⟨routed_step hs.paired.routed h, facing_step hs.paired.routed hs.paired.facing h⟩,
    ticketed_step hs.paired.routed.linked hs.ticketed h⟩

theorem sound_start (n : Nat) : Sound (HubState.start n) :=
  ⟨⟨routed_start n, fun _ _ _ _ h => nomatch h⟩, fun _ _ h => nomatch h⟩

theorem sound_visits (hv : Visits (step cfg) (HubState.start n) es s) : Sound s :=
  visits_of_step Sound (sound_start n) sound_step hv

/-- A mutual block outlives every step, with the seats of both connections. -/
theorem mutualBlock_step (hs : Sound s) (hb : MutualBlock s handle c p)
    (h : step cfg s e = some s') : MutualBlock s' handle c p := by
  obtain ⟨hc, hp, hw, hw'⟩ := hb
  have hl := hs.paired.routed.linked
  obtain ⟨t, _, ht, hphase, _, hopen⟩ := (waitsFor_iff).mp hw
  obtain ⟨v, hv, rfl, hrole, _⟩ := hl.seat _ _ _ hc
  rw [ht] at hv
  cases hv
  have halive : ¬Gone t.phase := by
    rw [hphase]
    simp [Gone]
  rw [← hrole] at hc
  have hother : Role.device = t.role.other := by rw [hrole]; rfl
  rw [hother] at hp
  obtain ⟨hc', hp'⟩ := seats_kept hl h ht halive hopen hc hp
  rw [hrole] at hc'
  rw [← hother] at hp'
  exact ⟨hc', hp', waitsFor_stays hl hs.ticketed h hw hw', waitsFor_stays hl hs.ticketed h hw' hw⟩

/-- The connection whose task an event moves. -/
def actor : Event → Option OutboundTx
  | .register .. => none
  | .joined c _ | .read c _ _ | .pollForward c | .recv c | .heartbeat c _ _ | .sinkDone c _ _
  | .dropInbound c | .disconnect c => some c

theorem suspended_idle (ht : s.task c = some t) (hp : t.phase = .awaitSpace p bytes)
    (hopen : s.sessions.isClosed p = false) (hng : c ∉ (s.sessions.chan p).granted)
    (ha : actor e = some c) : step cfg s e = none := by
  cases e with
  | register => cases ha
  | pollForward =>
    cases ha
    have hpend : ((s.sessions.chan p).resume c (.binary bytes)).1 = .pending := by
      have hcl : (s.sessions.chan p).closed = false := hopen
      simp [Chan.resume, hcl, hng]
    simp only [step, ht, Option.bind_some, HubState.pollForward, hp]
    split
    · rfl
    · rename_i hq
      rw [hq] at hpend
      cases hpend
      contradiction
  | sinkDone =>
    cases ha
    simp [step, ht, Task.onSinkDone, hp]
  | _ =>
    cases ha
    simp [step, ht, hp]

/-- No event of either connection is left in a mutual block: no read, no receive, no
heartbeat, no end of the loop and no teardown. -/
theorem mutualBlock_idle (hs : Sound s) (hb : MutualBlock s handle c p)
    (ha : actor e = some c ∨ actor e = some p) : step cfg s e = none := by
  obtain ⟨_, _, hw, hw'⟩ := hb
  obtain ⟨t, _, ht, hp, hmem, hopen⟩ := (waitsFor_iff).mp hw
  obtain ⟨u, _, hu, hup, hmem', hopen'⟩ := (waitsFor_iff).mp hw'
  rcases ha with ha | ha
  · exact suspended_idle ht hp hopen
      (List.disjoint_of_nodup_append (hs.ticketed p u hu hopen).1 hmem) ha
  · exact suspended_idle hu hup hopen'
      (List.disjoint_of_nodup_append (hs.ticketed c t ht hopen').1 hmem') ha

/-- Nor can anybody register under the handle again. -/
theorem mutualBlock_register {ip : IpAddr} {pairing : Bool} {now : Nat} (hs : Sound s)
    (hb : MutualBlock s handle c p) (res : OutboundTx × Bool) (m : SessionMap) (l : IpRateLimiter) :
    s.sessions.register handle role ip s.handleLimiter cfg.maxHandles pairing now ≠
      (.ok res, m, l) := by
  intro hr
  have hl := hs.paired.routed.linked
  obtain ⟨hc, hp, hw, hw'⟩ := hb
  obtain ⟨_, _, _, _, _, hopen⟩ := (waitsFor_iff).mp hw
  obtain ⟨_, _, _, _, _, hopen'⟩ := (waitsFor_iff).mp hw'
  have halive : ∀ r y, Seated s.sessions handle r y → s.sessions.isClosed y = false := by
    intro r y hy
    cases r with
    | host => exact hy.eq hc ▸ hopen'
    | device => exact hy.eq hp ▸ hopen
  have hm := finishTeardown_step hl.seats handle
  obtain ⟨tx, isNew⟩ := res
  have hfree := (register_ok hr).2.free
  cases role with
  | host => exact hfree c (hm.kept _ _ _ hc halive)
  | device => exact hfree p (hm.kept _ _ _ hp halive)

end HerdrMobile.Hub.Blocking
