import Mathlib.Data.Finset.Card
import HerdrMobile.Hub.Blocking

/-!
# How a mutual block comes about

A frame that is read is on its way to the queue of the peer until `forward` has
room for it, and nothing is taken from a queue while its task is in `forward`. Two
tasks that send to each other end up waiting when both queues have fewer free
permits than frames on their way, and only a read puts a frame on its way.
-/
namespace HerdrMobile.Hub.Crowding

open Lib.Channel Lib.Run Proto.Codes Hub.Limits Hub.Session Hub.Relay Hub.Steps Hub.Rooms Hub.Links
open Hub.Forwarding Hub.Teardown Hub.Blocking

set_option autoImplicit false

variable {cfg : Config} {n : Nat} {s s' : HubState} {e : Event} {c d p q x y z : OutboundTx}
  {t t' u : Task} {es : List Event} {bytes : Bytes} {now : Nat}

/-- The task of `x` is in `forward` to `q` and was handed no permit. -/
def onItsWay (s : HubState) (x q : OutboundTx) : Bool :=
  (s.task x).any fun t => decide (t.phase.target = some q ∧ x ∉ (s.sessions.chan q).granted)

def senders (s : HubState) (q : OutboundTx) : Finset OutboundTx :=
  {x ∈ Finset.range s.sessions.made | onItsWay s x q = true}

/-- Not everybody on the way to the queue finds a free permit. -/
def crowded (s : HubState) (q : OutboundTx) : Bool :=
  decide ((s.sessions.chan q).free < (senders s q).card)

/-- `y` is in `forward` to `x`, or to a connection that is in `forward` to `y`, whose queue is
crowded. -/
def heldUp (s : HubState) (x y : OutboundTx) : Bool :=
  ((s.task y).bind fun u => u.phase.target).any fun z =>
    onItsWay s y z && (decide (z = x) || onItsWay s z y) && crowded s z

/-- A frame is read for a peer that is held up, and its queue has no permit for one more. -/
def overfills (s : HubState) : Event → Bool
  | .read x (.binary bytes) now => (s.task x).any fun t =>
      decide (t.phase = .select) && admits t bytes now &&
        (s.sessions.peerOf t.handle t.role).any fun y =>
          decide ((s.sessions.chan y).free ≤ (senders s y).card) && heldUp s x y
  | _ => false

theorem onItsWay_iff : onItsWay s x q = true ↔ ∃ t, s.task x = some t ∧
    t.phase.target = some q ∧ x ∉ (s.sessions.chan q).granted := by
  rw [onItsWay, Option.any_eq_true]
  simp only [decide_eq_true_eq]

theorem mem_senders (hl : Linked s) : x ∈ senders s q ↔ onItsWay s x q = true := by
  rw [senders, Finset.mem_filter, Finset.mem_range, and_iff_right_iff_imp]
  intro hx
  obtain ⟨t, ht, -⟩ := onItsWay_iff.mp hx
  exact hl.made x t ht

/-- `x` reads a frame for `y`. -/
def Reads (s : HubState) (e : Event) (x y : OutboundTx) : Prop :=
  ∃ bytes now t, e = .read x (.binary bytes) now ∧ s.task x = some t ∧ t.phase = .select ∧
    admits t bytes now = true ∧ s.sessions.peerOf t.handle t.role = some y

theorem Reads.reader (h : Reads s e x y) (h' : Reads s e c p) : x = c ∧ y = p := by
  obtain ⟨bytes, now, t, rfl, ht, -, -, hpeer⟩ := h
  obtain ⟨_, _, t', heq, ht', -, -, hpeer'⟩ := h'
  cases heq
  cases ht.symm.trans ht'
  exact ⟨rfl, Option.some.inj (hpeer.symm.trans hpeer')⟩

/-- A permit that was handed over is kept until its sender has sent. -/
theorem granted_kept (hl : Linked s) (h : step cfg s e = some s') (ht : s.task x = some t)
    (htarget : t.phase.target = some q) (ht' : s'.task x = some t')
    (htarget' : t'.phase.target = some q) (hmem : x ∈ (s.sessions.chan q).granted) :
    x ∈ (s'.sessions.chan q).granted := by
  obtain ⟨v, hv, -⟩ := hl.target x t q ht htarget
  have hmade := hl.made q v hv
  cases move_of_step h with
  | refused hr =>
    change x ∈ (SessionMap.chan _ q).granted
    rwa [(register_step hl.seats hr).granted hmade]
  | registered hr =>
    rw [setTask_sessions]
    change x ∈ (SessionMap.chan _ q).granted
    rwa [(register_step hl.seats hr).granted hmade]
  | stay => exact hmem
  | lookup => exact hmem
  | @wait d u peer bytes r hd hphase hr =>
    rw [setTask_sessions]
    by_cases hq : q = peer
    · subst hq
      rw [setChan_self]
      obtain ⟨hp, -⟩ | ⟨hp, -⟩ | ⟨-, -, -, -, -, -, hg, -⟩ := Chan.send_cases hr
      · cases hp
      · cases hp
      · rwa [hg]
    · rwa [setChan_ne hq]
  | @sent d u peer bytes rp r hd hrp hr =>
    rw [setTask_sessions]
    by_cases hq : q = peer
    · subst hq
      have hne : x ≠ d := by
        rintro rfl
        rw [setTask_self] at ht'
        cases ht'
        cases htarget'
      rw [setChan_self]
      obtain ⟨-, hr⟩ | ⟨-, hr⟩ := hr
      · obtain ⟨-, -, rfl⟩ | ⟨-, -, -, rfl⟩ | ⟨hp, -⟩ := Chan.send_cases hr
        · exact hmem
        · exact hmem
        · exact absurd hp hrp
      · obtain ⟨-, -, rfl⟩ | ⟨-, -, -, -, -, -, hg, -⟩ | ⟨hp, -⟩ := Chan.resume_cases hr
        · exact hmem
        · rw [hg]
          exact (List.mem_erase_of_ne hne).mpr hmem
        · exact absurd hp hrp
    · rwa [setChan_ne hq]
  | @took d u msg r hd hphase hr =>
    rw [setTask_sessions]
    by_cases hq : q = d
    · subst hq
      rw [setChan_self]
      obtain ⟨-, -, ⟨-, -, hg, -⟩ | ⟨w, -, hg, -⟩⟩ := Chan.recv_cases hr
      · rwa [hg]
      · rw [hg]
        exact List.mem_append_left _ hmem
    · rwa [setChan_ne hq]
  | @dropped d u hd hphase =>
    rw [setTask_sessions]
    by_cases hq : q = d
    · subst hq
      rw [setChan_self]
      exact hmem
    · rwa [setChan_ne hq]
  | @disconnected d u hd hphase =>
    have hclosed := (hl.closed d u hd).mpr (Or.inl hphase)
    rw [setTask_sessions]
    change x ∈ (SessionMap.chan _ q).granted
    rwa [(disconnect_step hl.seats hclosed u.handle u.role u.peerClose).granted hmade]

/-- A frame is on its way since before the step, or the step reads it. -/
theorem onItsWay_back (hl : Linked s) (h : step cfg s e = some s')
    (hx : onItsWay s' x q = true) : onItsWay s x q = true ∨ Reads s e x q := by
  obtain ⟨t', ht', htarget', hnot⟩ := onItsWay_iff.mp hx
  obtain ⟨t, ht, -, -, htarget | ⟨bytes, now, rfl, hread⟩⟩ := target_step h ht' htarget'
  · refine Or.inl (onItsWay_iff.mpr ⟨t, ht, htarget, fun hmem => hnot ?_⟩)
    exact granted_kept hl h ht htarget ht' htarget' hmem
  · obtain ⟨hphase, hadmits, hpeer, -⟩ := hread
    exact Or.inr ⟨bytes, now, t, rfl, ht, hphase, hadmits, peerOf_iff.mpr hpeer⟩

/-- A step that reads for another queue, or reads nothing, puts nobody on the way to this one. -/
theorem senders_subset (hl : Linked s) (h : step cfg s e = some s')
    (hread : ∀ x, ¬ Reads s e x q) : senders s' q ⊆ senders s q := by
  intro x hx
  rw [mem_senders (linked_step hl h)] at hx
  exact (mem_senders hl).mpr ((onItsWay_back hl h hx).resolve_right (hread x))

theorem senders_read (hl : Linked s) (h : step cfg s e = some s') (hread : Reads s e x q) :
    senders s' q ⊆ insert x (senders s q) := by
  intro y hy
  rw [mem_senders (linked_step hl h)] at hy
  obtain hy | hy := onItsWay_back hl h hy
  · exact Finset.mem_insert_of_mem ((mem_senders hl).mpr hy)
  · rw [(hread.reader hy).1]
    exact Finset.mem_insert_self _ _

/-- A queue has as many free permits as before, unless a frame that was on its way took one. -/
theorem free_step (hl : Linked s) (hk : Ticketed s) (h : step cfg s e = some s')
    (hu : s.task q = some u) (hopen : s.sessions.isClosed q = false)
    (hspared : survivor s e ≠ some q) :
    (s.sessions.chan q).free ≤ (s'.sessions.chan q).free ∨
      ∃ x, onItsWay s x q = true ∧ onItsWay s' x q = false ∧
        (s.sessions.chan q).free = (s'.sessions.chan q).free + 1 ∧ survivor s e = none ∧
        ∀ y, ¬ Reads s e y q := by
  have hmade := hl.made q u hu
  cases move_of_step h with
  | refused hr => exact Or.inl ((register_step hl.seats hr).chan q hmade hspared ▸ Nat.le_refl _)
  | registered hr => exact Or.inl ((register_step hl.seats hr).chan q hmade hspared ▸ Nat.le_refl _)
  | stay => exact Or.inl (Nat.le_refl _)
  | lookup => exact Or.inl (Nat.le_refl _)
  | @wait d v peer bytes r hd hphase hr =>
    rw [setTask_sessions]
    by_cases hq : q = peer
    · subst hq
      rw [setChan_self]
      obtain ⟨hp, -⟩ | ⟨hp, -⟩ | ⟨-, -, hfree, -⟩ := Chan.send_cases hr
      · cases hp
      · cases hp
      · exact Or.inl (by omega)
    · rw [setChan_ne hq]
      exact Or.inl (Nat.le_refl _)
  | @sent d v peer bytes rp r hd hrp hr =>
    rw [setTask_sessions]
    by_cases hq : q = peer
    · subst hq
      rw [setChan_self]
      obtain ⟨hphase, hr⟩ | ⟨-, hr⟩ := hr
      · obtain ⟨-, -, rfl⟩ | ⟨-, -, hfree, rfl⟩ | ⟨hp, -⟩ := Chan.send_cases hr
        · exact Or.inl (Nat.le_refl _)
        · refine Or.inr ⟨d, onItsWay_iff.mpr ⟨v, hd, by rw [hphase]; rfl, fun hmem => ?_⟩, ?_, ?_,
            rfl, ?_⟩
          · -- Who was handed a permit is suspended, and this task is not.
            obtain ⟨w, b, hw, hpw⟩ := (hk q u hu hopen).2 d (List.mem_append_right _ hmem)
            cases hd.symm.trans hw
            cases hphase.symm.trans hpw
          · rw [onItsWay, setTask_self]
            rfl
          · change _ = (s.sessions.chan q).free - 1 + 1
            omega
          · rintro y ⟨_, _, _, heq, -⟩
            cases heq
        · exact absurd hp hrp
      · obtain ⟨-, -, rfl⟩ | ⟨-, -, -, -, hfree, -⟩ | ⟨hp, -⟩ := Chan.resume_cases hr
        · exact Or.inl (Nat.le_refl _)
        · exact Or.inl hfree.ge
        · exact absurd hp hrp
    · rw [setChan_ne hq]
      exact Or.inl (Nat.le_refl _)
  | @took d v msg r hd hphase hr =>
    rw [setTask_sessions]
    by_cases hq : q = d
    · subst hq
      rw [setChan_self]
      obtain ⟨-, -, ⟨-, -, -, hfree⟩ | ⟨w, -, -, hfree⟩⟩ := Chan.recv_cases hr
      · exact Or.inl (by omega)
      · exact Or.inl (by omega)
    · rw [setChan_ne hq]
      exact Or.inl (Nat.le_refl _)
  | @dropped d v hd hphase =>
    rw [setTask_sessions]
    by_cases hq : q = d
    · subst hq
      rw [setChan_self]
      exact Or.inl (Nat.le_refl _)
    · rw [setChan_ne hq]
      exact Or.inl (Nat.le_refl _)
  | @disconnected d v hd hphase =>
    have hclosed := (hl.closed d v hd).mpr (Or.inl hphase)
    have hm := disconnect_step hl.seats hclosed v.handle v.role v.peerClose
    refine Or.inl ?_
    simp only [survivor, hd, Option.bind_some] at hspared
    exact hm.chan q hmade hspared ▸ Nat.le_refl _

/-- A queue gets crowded by a read for it alone. -/
theorem crowded_back (hl : Linked s) (hk : Ticketed s) (h : step cfg s e = some s')
    (hu : s.task q = some u) (hopen : s.sessions.isClosed q = false)
    (hspared : survivor s e ≠ some q) (hc : crowded s' q = true) :
    crowded s q = true ∨
      ∃ x, Reads s e x q ∧ (s.sessions.chan q).free ≤ (senders s q).card := by
  rw [crowded, decide_eq_true_eq] at hc ⊢
  by_cases hread : ∃ x, Reads s e x q
  · obtain ⟨x, hread⟩ := hread
    refine Or.inr ⟨x, hread, ?_⟩
    have hcard := (Finset.card_le_card (senders_read hl h hread)).trans (Finset.card_insert_le _ _)
    obtain hfree | ⟨-, -, -, -, -, hnone⟩ := free_step hl hk h hu hopen hspared
    · omega
    · exact absurd hread (hnone x)
  · have hsub := senders_subset hl h (not_exists.mp hread)
    obtain hfree | ⟨x, hbefore, hafter, hfree, -⟩ := free_step hl hk h hu hopen hspared
    · have hcard := Finset.card_le_card hsub
      exact Or.inl (by omega)
    · have hless : senders s' q ⊂ senders s q := by
        refine Finset.ssubset_iff_subset_ne.mpr ⟨hsub, fun heq => ?_⟩
        have hmem := (mem_senders hl).mpr hbefore
        rw [← heq, mem_senders (linked_step hl h), hafter] at hmem
        cases hmem
      have hcard := Finset.card_lt_card hless
      exact Or.inl (by omega)

theorem overfills_of (hread : Reads s e x y) (hy : onItsWay s y z = true)
    (hback : z = x ∨ onItsWay s z y = true)
    (hfree : (s.sessions.chan y).free ≤ (senders s y).card) (hz : crowded s z = true) :
    overfills s e = true := by
  obtain ⟨bytes, now, t, rfl, ht, hphase, hadmits, hpeer⟩ := hread
  obtain ⟨u, hu, htarget, -⟩ := onItsWay_iff.mp hy
  have hheld : heldUp s x y = true := by
    rw [heldUp, hu, Option.bind_some, htarget, Option.any_some, hy, hz]
    simpa using hback
  simp only [overfills, ht, Option.any_some, hphase, hadmits, hpeer, hheld, hfree, decide_true,
    Bool.and_self]

/-- Of two tasks that send to each other one finds a permit. -/
def Roomy (s : HubState) : Prop :=
  ∀ c p, onItsWay s c p = true → onItsWay s p c = true →
    ¬(crowded s c = true ∧ crowded s p = true)

/-- Two tasks that send to each other are both there, and neither is told to close. -/
theorem spared (hs : Sound s) (h : step cfg s e = some s') (hc : onItsWay s' c p = true)
    (hp : onItsWay s' p c = true) : ∃ u, s.task c = some u ∧ s.sessions.isClosed c = false ∧
      survivor s e ≠ some c := by
  have hl := hs.paired.routed.linked
  have hs' := sound_step hs h
  obtain ⟨t', ht', htarget', -⟩ := onItsWay_iff.mp hc
  obtain ⟨u', hu', hback', -⟩ := onItsWay_iff.mp hp
  obtain ⟨t, ht, -⟩ := target_step h ht' htarget'
  have hmade := hl.made c t ht
  have hopen := hs'.paired.routed.linked.alive ht' (not_gone_of_target htarget')
  refine ⟨t, ht, open_back hl h hmade hopen, fun htold => ?_⟩
  obtain ⟨hseat, -⟩ := hs'.paired.facing c t' p u' ht' htarget' hu' hback'
  obtain hm | hm := sessions_step hl h
  · exact (hm.told c htold).2.1 _ _ hseat
  · cases hm.silent.symm.trans htold

theorem roomy_step (hs : Sound s) (hi : Roomy s) (hg : overfills s e = false)
    (h : step cfg s e = some s') : Roomy s' := by
  have hl := hs.paired.routed.linked
  have hk := hs.ticketed
  rintro c p hc hp ⟨hcc, hcp⟩
  have hne : c ≠ p := by
    obtain ⟨t', ht', htarget', -⟩ := onItsWay_iff.mp hc
    exact target_ne (linked_step hl h) ht' htarget'
  obtain ⟨u, hu, hopen, hspared⟩ := spared hs h hc hp
  obtain ⟨v, hv, hopen', hspared'⟩ := spared hs h hp hc
  -- A read for one of the two queues, by whom it may be, finds that peer held up.
  have hread : ∀ x a b, a ≠ b → onItsWay s' a b = true → onItsWay s' b a = true →
      Reads s e x b → (s.sessions.chan b).free ≤ (senders s b).card →
      (crowded s a = true ∨ ∃ x, Reads s e x a ∧
        (s.sessions.chan a).free ≤ (senders s a).card) → False := by
    intro x a b hab ha hb hread hfree hcrowded
    have hother : ∀ y, ¬ Reads s e y a := fun y hy => hab (hread.reader hy).2.symm
    have hforward := (onItsWay_back hl h hb).resolve_right (hother b)
    have hback : a = x ∨ onItsWay s a b = true := by
      obtain hbefore | hnew := onItsWay_back hl h ha
      · exact Or.inr hbefore
      · exact Or.inl (hnew.reader hread).1
    obtain hcrowded | ⟨y, hy, -⟩ := hcrowded
    · rw [overfills_of hread hforward hback hfree hcrowded] at hg
      cases hg
    · exact hother y hy
  have hcc' := crowded_back hl hk h hu hopen hspared hcc
  have hcp' := crowded_back hl hk h hv hopen' hspared' hcp
  obtain hcc0 | ⟨x, hx, hfree⟩ := hcc'
  · obtain hcp0 | ⟨x, hx, hfree⟩ := hcp'
    · obtain hc0 | hx := onItsWay_back hl h hc
      · obtain hp0 | hx := onItsWay_back hl h hp
        · exact hi c p hc0 hp0 ⟨hcc0, hcp0⟩
        · refine hread p p c hne.symm hp hc hx ?_ (Or.inl hcp0)
          exact (of_decide_eq_true hcc0).le
      · refine hread c c p hne hc hp hx ?_ (Or.inl hcc0)
        exact (of_decide_eq_true hcp0).le
    · exact hread x c p hne hc hp hx hfree (Or.inl hcc0)
  · exact hread x p c hne.symm hp hc hx hfree hcp'

/-- Who waits for a permit is on the way to a queue that has none. -/
theorem crowded_of_waits (hl : Linked s) (hk : Ticketed s) (h : waitsFor s c p = true) :
    onItsWay s c p = true ∧ crowded s p = true := by
  obtain ⟨t, bytes, ht, hphase, hmem, hopen⟩ := waitsFor_iff.mp h
  have htarget : t.phase.target = some p := by
    rw [hphase]
    rfl
  obtain ⟨u, hu, -⟩ := hl.target c t p ht htarget
  have hnot := List.disjoint_of_nodup_append (hk p u hu hopen).1 hmem
  have hway := onItsWay_iff.mpr ⟨t, ht, htarget, hnot⟩
  refine ⟨hway, ?_⟩
  have hcard := Finset.card_pos.mpr ⟨c, (mem_senders hl).mpr hway⟩
  have hfree : (s.sessions.chan p).free = 0 := by
    by_contra hpos
    rw [(s.sessions.chan p).fair (Nat.pos_of_ne_zero hpos)] at hmem
    cases hmem
  rw [crowded, decide_eq_true_eq, hfree]
  exact hcard

/-- No state of the run has the two tasks of a room waiting for each other. -/
def NoBlock (cfg : Config) (n : Nat) (es : List Event) : Prop :=
  ∀ s, Visits (step cfg) (HubState.start n) es s → ∀ handle host device,
    ¬MutualBlock s handle host device

theorem wait_starts (h : step cfg s (.pollForward c) = some s') (ht : s.task c = some t)
    (hp : t.phase = .forward p bytes) (hopen : s.sessions.isClosed p = false)
    (hfree : (s.sessions.chan p).free = 0) (hne : c ≠ p) :
    waitsFor s' c p = true ∧ ∀ x y, x ≠ c → waitsFor s x y = true → waitsFor s' x y = true := by
  simp only [step, ht, Option.bind_some, HubState.pollForward, hp] at h
  cases hq : (s.sessions.chan p).send c (.binary bytes) with
  | mk r q =>
    rcases Chan.send_cases hq with ⟨_, hcl, _⟩ | ⟨_, _, hf, _⟩ | ⟨rfl, _, _, _, _, hw, _, hcl⟩
    · cases hopen.symm.trans hcl
    · omega
    · rw [hq] at h
      cases h
      have hisClosed : ∀ y, (s.sessions.setChan p q).isClosed y = s.sessions.isClosed y :=
        setChan_isClosed (hcl.trans hopen.symm)
      constructor
      · refine (waitsFor_iff).mpr ⟨_, bytes, setTask_self .., rfl, ?_, ?_⟩
        · rw [setTask_sessions, setChan_self, hw]
          exact List.mem_append_right _ (List.mem_singleton_self c)
        · rw [setTask_sessions, hisClosed]
          exact hopen
      · intro x y hx hxy
        obtain ⟨v, b, hv, hvp, hmem, hy⟩ := (waitsFor_iff).mp hxy
        refine (waitsFor_iff).mpr ⟨v, b, ?_, hvp, ?_, ?_⟩
        · rw [setTask_ne hx]
          exact hv
        · rw [setTask_sessions]
          by_cases hyp : y = p
          · subst hyp
            rw [setChan_self, hw]
            exact List.mem_append_left _ hmem
          · rwa [setChan_ne hyp]
        · rw [setTask_sessions, hisClosed]
          exact hy

/-- What a block means: it outlives every step, no event of either task is left, and nobody
registers under the handle again. -/
structure Stuck (cfg : Config) (s : HubState) (handle : Handle) (host device : OutboundTx) :
    Prop where
  lasts : ∀ e s', step cfg s e = some s' → MutualBlock s' handle host device
  idle : ∀ e, actor e = some host ∨ actor e = some device → step cfg s e = none
  refused : ∀ role ip pairing now res m l,
    s.sessions.register handle role ip s.handleLimiter cfg.maxHandles pairing now ≠ (.ok res, m, l)

theorem stuck_of_block {handle : Handle} (hs : Sound s) (hb : MutualBlock s handle c p) :
    Stuck cfg s handle c p where
  lasts _ _ h := mutualBlock_step hs hb h
  idle _ ha := mutualBlock_idle hs hb ha
  refused _ _ _ _ res m l := mutualBlock_register hs hb res m l

/-- A read for a peer that waits for the reader, with a full queue of its own, closes the block. -/
theorem block_of_read (hs : Sound s) (ht : s.task c = some t) (hphase : t.phase = .select)
    (hadmits : admits t bytes now = true) (hpeer : s.sessions.peerOf t.handle t.role = some p)
    (hfree : (s.sessions.chan p).free = 0) (hw : waitsFor s p c = true) :
    ∃ s' handle, run (step cfg) s [.read c (.binary bytes) now, .pollForward c] = some s' ∧
      (MutualBlock s' handle c p ∨ MutualBlock s' handle p c) := by
  obtain ⟨u, b, hu, hup, hmem, hopen⟩ := waitsFor_iff.mp hw
  obtain ⟨hlen, hallow⟩ := Bool.and_eq_true_iff.mp hadmits
  rw [decide_eq_true_eq] at hlen
  obtain ⟨l, hl⟩ : ∃ l, t.limiter.allow now = (true, l) := ⟨_, Prod.ext hallow rfl⟩
  have hread : s.onRead t (.binary bytes) now =
      { t with limiter := l }.goto (.forward p bytes) := by
    simp only [HubState.onRead, Task.allowFrame, if_neg (Nat.not_lt.mpr hlen), hl,
      HubState.lookupPeer, hpeer]
  have hne : p ≠ c := by
    rintro rfl
    cases hu.symm.trans ht
    cases hup.symm.trans hphase
  have hstep : step cfg s (.read c (.binary bytes) now) =
      some (s.setTask c ({ t with limiter := l }.goto (.forward p bytes))) := by
    simp only [step, ht, Option.bind_some, hphase, if_true, hread]
  generalize hs₁ : s.setTask c ({ t with limiter := l }.goto (.forward p bytes)) = s₁ at hstep
  have htask : s₁.task c = some ({ t with limiter := l }.goto (.forward p bytes)) := by
    rw [← hs₁, setTask_self]
  have hsessions : s₁.sessions = s.sessions := by
    rw [← hs₁, setTask_sessions]
  have hsound := sound_step hs hstep
  have hback : waitsFor s₁ p c = true := by
    refine waitsFor_iff.mpr ⟨u, b, ?_, hup, hsessions ▸ hmem, hsessions ▸ hopen⟩
    rw [← hs₁, setTask_ne hne]
    exact hu
  have halive : s₁.sessions.isClosed p = false := by
    rw [hsessions]
    refine hs.paired.routed.linked.alive hu ?_
    rw [hup]
    simp [Gone]
  obtain ⟨s', hpoll⟩ : ∃ s', step cfg s₁ (.pollForward c) = some s' := by
    simp only [step, htask, Option.bind_some, HubState.pollForward, goto_phase]
    split <;> exact ⟨_, rfl⟩
  obtain ⟨hnew, hkeep⟩ := wait_starts hpoll htask rfl halive (hsessions ▸ hfree) hne.symm
  obtain ⟨handle, hb⟩ := cycle_in_room (sound_step hsound hpoll).paired hnew
    (hkeep p c hne hback)
  refine ⟨s', handle, ?_, hb⟩
  simp only [run, hstep, Option.bind_some, hpoll]

/-- Two tasks of a room come to wait for each other only after a read for a peer that is held up,
with no permit left at either queue for what is on its way. A block lasts for ever, and with two
connections such a read brings it about. -/
theorem no_mutual_block (cfg : Config) (n : Nat) (es : List Event) :
    ((∀ s e s', Occurs (step cfg) (HubState.start n) es s e s' → overfills s e = false) →
      NoBlock cfg n es) ∧
    ∀ s, Visits (step cfg) (HubState.start n) es s →
      (∀ handle host device, MutualBlock s handle host device →
        Stuck cfg s handle host device) ∧
      ∀ c t p bytes now, s.task c = some t → t.phase = .select → admits t bytes now = true →
        s.sessions.peerOf t.handle t.role = some p → (s.sessions.chan p).free = 0 →
        waitsFor s p c = true →
          ∃ s' handle, run (step cfg) s [.read c (.binary bytes) now, .pollForward c] = some s' ∧
            (MutualBlock s' handle c p ∨ MutualBlock s' handle p c) := by
  constructor
  · intro hcalm s hv handle host device hb
    have hinv : Sound s ∧ Roomy s := by
      refine visits_invariant (fun s => Sound s ∧ Roomy s) ?_ ?_ hv
      · exact ⟨sound_start n, fun _ _ h => nomatch h⟩
      · intro s e s' hi ho
        exact ⟨sound_step hi.1 ho.step_eq, roomy_step hi.1 hi.2 (hcalm s e s' ho) ho.step_eq⟩
    have hl := hinv.1.paired.routed.linked
    obtain ⟨hway, hcrowded⟩ := crowded_of_waits hl hinv.1.ticketed hb.2.2.1
    obtain ⟨hback, hcrowded'⟩ := crowded_of_waits hl hinv.1.ticketed hb.2.2.2
    exact hinv.2 host device hway hback ⟨hcrowded', hcrowded⟩
  · intro s hv
    have hs := sound_visits hv
    exact ⟨fun handle host device hb => stuck_of_block hs hb,
      fun c t p bytes now ht hphase hadmits hpeer hfree hw =>
        block_of_read hs ht hphase hadmits hpeer hfree hw⟩

/-- Both connections fill the queue of the other, and one reads one frame more. -/
def filled : List Event :=
  joinedRoom ++ forwards 0 32 ++ forwards 1 32 ++ forwards 0 1

theorem filled_calm : everyStep (step limits) (fun s e => !overfills s e) (HubState.start 5)
    filled = true := by
  decide

theorem no_mutual_block_filled : NoBlock limits 5 filled := by
  refine (no_mutual_block limits 5 filled).1 fun s e s' ho => ?_
  have hgood := occurs_good filled_calm ho
  rwa [Bool.not_eq_true'] at hgood

/-- Both connections fill the queue of the other, and both read one frame more. -/
def saturated : List Event := filled ++ forwards 1 1

theorem saturated_block : ((run (step limits) (HubState.start 5) saturated).any fun s =>
    (s.sessions.ownsSlot 5 .host 0 && s.sessions.ownsSlot 5 .device 1) &&
      (waitsFor s 0 1 && waitsFor s 1 0)) = true := by decide

theorem block_reached : ¬∀ (cfg : Config) (n : Nat) (es : List Event), NoBlock cfg n es := by
  intro h
  obtain ⟨s, hs, hp⟩ := (Option.any_eq_true ..).mp saturated_block
  simp only [Bool.and_eq_true] at hp
  obtain ⟨⟨hhost, hdevice⟩, hw, hw'⟩ := hp
  exact h limits 5 saturated s (visits_end hs) 5 0 1
    ⟨ownsSlot_iff.mp hhost, ownsSlot_iff.mp hdevice, hw, hw'⟩

end HerdrMobile.Hub.Crowding
