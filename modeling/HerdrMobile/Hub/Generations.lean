import HerdrMobile.Hub.PushStore

/-!
# Generations of registrations

The generation is a counter of 64 bits. Until it wraps it numbers the registrations, so
entries differ in it, the least one is the oldest, and a delivery that was started before
a registration cannot be taken for it.
-/
namespace HerdrMobile.Hub.Generations

open Lib.Run Lib.Table Hub.Session Hub.PushStore
open Proto.Messages (Platform)

set_option autoImplicit false

variable {providers : Providers} {p p' : Push} {e : Event} {es : List Event} {handle h : Handle}
  {n : Nat} {platform : Platform} {token : String}

/-- How many registrations the events make. -/
def registrations (providers : Providers) (es : List Event) : Nat :=
  es.countP fun e => (registers providers e).isSome

theorem registrations_append (providers : Providers) (xs ys : List Event) :
    registrations providers (xs ++ ys) = registrations providers xs + registrations providers ys :=
  List.countP_append

theorem registrations_one (hreg : registers providers e = none) :
    registrations providers [e] = 0 := by
  simp [registrations, hreg]

/-- The state after `n` registrations, before the counter wraps. -/
structure Numbered (n : Nat) (p : Push) : Prop where
  count : p.store.generation.toNat = n
  bounded : size p.store.entries ≤ capacity
  below : ∀ h entry, p.store.entries.lookup h = some entry → entry.generation.toNat ≤ n
  apart : ∀ h h' entry entry', p.store.entries.lookup h = some entry →
    p.store.entries.lookup h' = some entry' → entry.generation = entry'.generation → h = h'
  flying : ∀ delivery ∈ p.deliveries, delivery.generation.toNat ≤ n

theorem numbered_start : Numbered 0 Push.start where
  count := rfl
  bounded := Nat.zero_le _
  below := fun _ _ hl => nomatch hl
  apart := fun _ _ _ _ hl => nomatch hl
  flying := fun _ hd => nomatch hd

theorem next_generation (hn : Numbered n p) (hlt : n + 1 < 2 ^ 64) :
    (p.store.generation + 1).toNat = n + 1 := by
  rw [UInt64.toNat_add, hn.count]
  exact Nat.mod_eq_of_lt hlt

theorem size_register (hb : size p.store.entries ≤ capacity) (handle : Handle)
    (platform : Platform) (token : String) :
    size (p.store.register handle platform token).entries ≤ capacity := by
  by_cases hold : handle ∈ p.store.entries
  · unfold Store.register
    rw [makeRoom_of_not fun h => h.2 hold]
    exact (size_insert_of_mem hold).trans_le hb
  · by_cases hfull : size p.store.entries = capacity
    · obtain ⟨oldest, entry, hl, -, hroom⟩ := makeRoom_full hfull hold
      have hgone : handle ∉ p.store.entries.erase oldest :=
        fun hmem => hold (AList.mem_erase.mp hmem).2
      unfold Store.register
      rw [hroom]
      show size ((p.store.entries.erase oldest).insert handle _) ≤ capacity
      rw [size_insert_of_notMem hgone, size_erase (mem_of_lookup hl)]
      exact hb
    · unfold Store.register
      rw [makeRoom_of_not fun h => hfull h.1]
      show size (p.store.entries.insert handle _) ≤ capacity
      rw [size_insert_of_notMem hold]
      omega

/-- An event that registers nothing. -/
theorem numbered_quiet (hn : Numbered n p) (hm : Move providers p e p')
    (hreg : registers providers e = none) : Numbered n p' := by
  have hback : ∀ {h entry}, p'.store.entries.lookup h = some entry →
      ∃ old, p.store.entries.lookup h = some old ∧ entry.generation = old.generation := by
    intro h entry hl
    rcases entry_back hm hl with ⟨old, hold, hgen, -⟩ | ⟨platform, token, hsome, -⟩
    · exact ⟨old, hold, hgen⟩
    · cases hreg.symm.trans hsome
  refine ⟨?_, ?_, ?_, ?_, ?_⟩
  · cases hm with
    | registered handle platform token hsome => cases hreg.symm.trans hsome
    | _ => exact hn.count
  · cases hm with
    | registered handle platform token hsome => cases hreg.symm.trans hsome
    | unregistered handle => exact (size_erase_le _ _).trans hn.bounded
    | woken handle now entry _ _ hl =>
      exact (size_insert_of_mem (mem_of_lookup hl)).trans_le hn.bounded
    | failed delivery => exact (size_erase_le _ _).trans hn.bounded
    | still => exact hn.bounded
  · intro h entry hl
    obtain ⟨old, hold, hgen⟩ := hback hl
    rw [hgen]
    exact hn.below h old hold
  · intro h h' entry entry' hl hl' heq
    obtain ⟨old, hold, hgen⟩ := hback hl
    obtain ⟨old', hold', hgen'⟩ := hback hl'
    exact hn.apart h h' old old' hold hold' (hgen.symm.trans (heq.trans hgen'))
  · cases hm with
    | registered handle platform token hsome => cases hreg.symm.trans hsome
    | unregistered handle => exact hn.flying
    | woken handle now entry _ _ hl =>
      intro delivery hd
      rcases List.mem_append.mp hd with hd | hd
      · exact hn.flying delivery hd
      · obtain rfl := List.mem_singleton.mp hd
        exact hn.below handle entry hl
    | failed delivery => exact fun d hd => hn.flying d (List.mem_of_mem_erase hd)
    | still deliveries hsub => exact fun d hd => hn.flying d (hsub.subset hd)

theorem numbered_register (hn : Numbered n p) (hlt : n + 1 < 2 ^ 64)
    (hm : Move providers p e p') (hreg : registers providers e = some (handle, platform, token)) :
    Numbered (n + 1) p' := by
  have hback : ∀ {h entry}, p'.store.entries.lookup h = some entry →
      (∃ old, p.store.entries.lookup h = some old ∧ entry.generation = old.generation) ∨
        h = handle ∧ entry.generation.toNat = n + 1 := by
    intro h entry hl
    rcases entry_back hm hl with ⟨old, hold, hgen, -⟩ | ⟨platform', token', hsome, rfl⟩
    · exact Or.inl ⟨old, hold, hgen⟩
    · obtain ⟨rfl, -⟩ := Prod.mk.inj (Option.some.inj (hreg.symm.trans hsome))
      exact Or.inr ⟨rfl, next_generation hn hlt⟩
  cases hm with
  | registered handle' platform' token' hsome =>
    refine ⟨next_generation hn hlt, size_register hn.bounded _ _ _, ?_, ?_, ?_⟩
    · intro h entry hl
      rcases hback hl with ⟨old, hold, hgen⟩ | ⟨-, hgen⟩
      · rw [hgen]
        exact Nat.le_succ_of_le (hn.below h old hold)
      · exact hgen.le
    · intro h h' entry entry' hl hl' heq
      have hnat := congrArg UInt64.toNat heq
      rcases hback hl with ⟨old, hold, hgen⟩ | ⟨rfl, hgen⟩
      · rcases hback hl' with ⟨old', hold', hgen'⟩ | ⟨-, hgen'⟩
        · exact hn.apart h h' old old' hold hold' (hgen.symm.trans (heq.trans hgen'))
        · have hle := hn.below h old hold
          rw [hgen, hgen'] at hnat
          omega
      · rcases hback hl' with ⟨old', hold', hgen'⟩ | ⟨rfl, -⟩
        · have hle := hn.below h' old' hold'
          rw [hgen, hgen'] at hnat
          omega
        · rfl
    · exact fun d hd => Nat.le_succ_of_le (hn.flying d hd)
  | unregistered handle' hnone => cases hnone.symm.trans hreg
  | woken handle' now entry hnone => cases hnone.symm.trans hreg
  | failed delivery entry _ hnone => cases hnone.symm.trans hreg
  | still deliveries _ hnone => cases hnone.symm.trans hreg

theorem numbered_step (hn : Numbered n p) (hs : step providers p e = some p')
    (hlt : n + registrations providers [e] < 2 ^ 64) :
    Numbered (n + registrations providers [e]) p' := by
  have hm := move_of_step hs
  cases hreg : registers providers e with
  | none =>
    rw [registrations_one hreg]
    exact numbered_quiet hn hm hreg
  | some made =>
    obtain ⟨handle, platform, token⟩ := made
    have hone : registrations providers [e] = 1 := by simp [registrations, hreg]
    rw [hone] at hlt ⊢
    exact numbered_register hn hlt hm hreg

theorem numbered_from (hn : Numbered n p) (hr : run (step providers) p es = some p')
    (hlt : n + registrations providers es < 2 ^ 64) :
    Numbered (n + registrations providers es) p' := by
  induction es generalizing n p with
  | nil =>
    cases hr
    exact hn
  | cons e es ih =>
    obtain ⟨q, hq, hr⟩ := Option.bind_eq_some_iff.mp hr
    have hsplit : registrations providers (e :: es)
        = registrations providers [e] + registrations providers es :=
      registrations_append providers [e] es
    rw [hsplit] at hlt ⊢
    rw [← Nat.add_assoc]
    exact ih (numbered_step hn hq (by omega)) hr (by omega)

theorem numbered_run (hr : run (step providers) .start es = some p)
    (hlt : registrations providers es < 2 ^ 64) : Numbered (registrations providers es) p := by
  have hn := numbered_from numbered_start hr (by rwa [Nat.zero_add])
  rwa [Nat.zero_add] at hn

/-- Whatever stands under the handle was registered after the generation `g`. -/
def Newer (g : Nat) (h : Handle) (p : Push) : Prop :=
  ∀ entry, p.store.entries.lookup h = some entry → g < entry.generation.toNat

theorem newer_step {g : Nat} (hnew : Newer g h p) (hg : g ≤ n) (hn : Numbered n p)
    (hs : step providers p e = some p') (hlt : n + registrations providers [e] < 2 ^ 64) :
    Newer g h p' := by
  intro entry hl
  rcases entry_back (move_of_step hs) hl with ⟨old, hold, hgen, -⟩ | ⟨platform, token, hreg, rfl⟩
  · rw [hgen]
    exact hnew old hold
  · have hone : registrations providers [e] = 1 := by simp [registrations, hreg]
    rw [hone] at hlt
    rw [next_generation hn hlt]
    omega

theorem newer_registered {g : Nat} (hg : g ≤ n) (hn : Numbered n p)
    (hs : step providers p e = some p') (hlt : n + registrations providers [e] < 2 ^ 64)
    (hreg : registers providers e = some (h, platform, token)) : Newer g h p' := by
  have hone : registrations providers [e] = 1 := by simp [registrations, hreg]
  rw [hone] at hlt
  intro entry hl
  cases move_of_step hs with
  | registered handle platform' token' hsome =>
    obtain ⟨rfl, -⟩ := Prod.mk.inj (Option.some.inj (hreg.symm.trans hsome))
    simp only [Store.register, AList.lookup_insert, Option.some.injEq] at hl
    subst hl
    rw [next_generation hn hlt]
    omega
  | unregistered handle' hnone => cases hnone.symm.trans hreg
  | woken handle' now entry hnone => cases hnone.symm.trans hreg
  | failed delivery entry _ hnone => cases hnone.symm.trans hreg
  | still deliveries _ hnone => cases hnone.symm.trans hreg

/-- From a registration of the handle on, what stands under it is newer than `g`. -/
theorem newer_from {g : Nat} {mid : List Event} (hg : g ≤ n) (hn : Numbered n p)
    (hr : run (step providers) p mid = some p')
    (hlt : n + registrations providers mid < 2 ^ 64)
    (hreg : Newer g h p ∨
      ∃ f ∈ mid, ∃ platform token, registers providers f = some (h, platform, token)) :
    Newer g h p' := by
  induction mid generalizing n p with
  | nil =>
    cases hr
    rcases hreg with hnew | ⟨f, hf, -⟩
    · exact hnew
    · cases hf
  | cons e es ih =>
    obtain ⟨q, hq, hr⟩ := Option.bind_eq_some_iff.mp hr
    have hsplit : registrations providers (e :: es)
        = registrations providers [e] + registrations providers es :=
      registrations_append providers [e] es
    rw [hsplit] at hlt
    refine ih (by omega) (numbered_step hn hq (by omega)) hr (by omega) ?_
    rcases hreg with hnew | ⟨f, hf, platform, token, hf'⟩
    · exact Or.inl (newer_step hnew hg hn hq (by omega))
    · rcases List.mem_cons.mp hf with rfl | hf
      · exact Or.inl (newer_registered hg hn hq (by omega) hf')
      · exact Or.inr ⟨f, hf, platform, token, hf'⟩

/-- A registration made after the delivery was started survives its failure. -/
theorem failure_spares {u v : Push} {mid : List Event} {delivery : Delivery} {gone : Bool} {now : Nat}
    (hlt : registrations providers es < 2 ^ 64)
    (hf : Follows (step providers) .start es p e p' mid u (.answered delivery gone) v)
    (hrel : released providers p e = some (h, now, delivery))
    (hreg : ∃ f ∈ mid, ∃ platform token, registers providers f = some (h, platform, token)) :
    v.store = u.store := by
  obtain ⟨pre, post, rfl, hpre, hs, hmid, hv⟩ := hf
  obtain ⟨-, rfl, entry, hl, -, hgen⟩ := released_delivery hrel
  have hsum : registrations providers (pre ++ e :: (mid ++ .answered delivery gone :: post))
      = registrations providers pre + (registrations providers [e] + (registrations providers mid +
        registrations providers (.answered delivery gone :: post))) := by
    rw [registrations_append, show e :: (mid ++ .answered delivery gone :: post)
      = [e] ++ (mid ++ .answered delivery gone :: post) from rfl, registrations_append,
      registrations_append]
  rw [hsum] at hlt
  have hn := numbered_run hpre (by omega)
  have hbelow := hn.below _ entry hl
  have hnext := numbered_step hn hs (by omega)
  have hnew : Newer entry.generation.toNat delivery.handle u :=
    newer_from (by omega) hnext hmid (by omega) (Or.inr hreg)
  simp only [step] at hv
  split at hv
  · obtain rfl := Option.some.inj hv
    cases gone with
    | false => rfl
    | true =>
      rcases removeGeneration_cases u.store delivery.handle delivery.generation with
        he | ⟨entry', hl', hgen', -⟩
      · exact he
      · have hlt' := hnew entry' hl'
        rw [hgen', ← hgen] at hlt'
        exact absurd hlt' (Nat.lt_irrefl _)
  · cases hv

theorem registered_eq (hs : step providers p e = some p')
    (hreg : registers providers e = some (handle, platform, token)) :
    p' = ⟨p.store.register handle platform token, p.deliveries⟩ := by
  cases move_of_step hs with
  | registered handle' platform' token' hsome =>
    obtain ⟨rfl, hrest⟩ := Prod.mk.inj (Option.some.inj (hreg.symm.trans hsome))
    obtain ⟨rfl, rfl⟩ := Prod.mk.inj hrest
    rfl
  | unregistered handle' hnone => cases hnone.symm.trans hreg
  | woken handle' now entry hnone => cases hnone.symm.trans hreg
  | failed delivery entry _ hnone => cases hnone.symm.trans hreg
  | still deliveries _ hnone => cases hnone.symm.trans hreg

/-- The oldest entry goes and no other one. -/
def Evicts (p p' : Push) (handle : Handle) : Prop :=
  ∃ oldest entry, p.store.entries.lookup oldest = some entry ∧
    (∀ h e, h ≠ oldest → p.store.entries.lookup h = some e → entry.generation < e.generation) ∧
    p'.store.entries.lookup oldest = none ∧
    ∀ h, h ≠ oldest → h ≠ handle → p'.store.entries.lookup h = p.store.entries.lookup h

theorem evicts_oldest (hn : Numbered n p) (hs : step providers p e = some p')
    (hreg : registers providers e = some (handle, platform, token))
    (hfull : size p.store.entries = capacity) (hnew : handle ∉ p.store.entries) :
    Evicts p p' handle := by
  obtain rfl := registered_eq hs hreg
  obtain ⟨oldest, entry, hl, hleast, hroom⟩ := makeRoom_full hfull hnew
  have hne : oldest ≠ handle := by
    rintro rfl
    exact hnew (mem_of_lookup hl)
  refine ⟨oldest, entry, hl, ?_, ?_, ?_⟩
  · intro h e hh he
    refine UInt64.lt_iff_toNat_lt.mpr (Nat.lt_of_le_of_ne (hleast h e he) fun heq => ?_)
    exact hh (hn.apart oldest h entry e hl he (UInt64.toNat_inj.mp heq)).symm
  · simp only [Store.register, hroom]
    rw [AList.lookup_insert_ne hne, AList.lookup_erase]
  · intro h hh hhandle
    simp only [Store.register, hroom]
    rw [AList.lookup_insert_ne hhandle, AList.lookup_erase_ne hh]

/-- As long as the counter does not wrap. -/
theorem store_bounded (providers : Providers) (es : List Event)
    (hlt : registrations providers es < 2 ^ 64) :
    (∀ p, Visits (step providers) .start es p → size p.store.entries ≤ capacity ∧
      ∀ h h' entry entry', p.store.entries.lookup h = some entry →
        p.store.entries.lookup h' = some entry' → entry.generation = entry'.generation → h = h') ∧
    (∀ p e p' handle platform token, Occurs (step providers) .start es p e p' →
      registers providers e = some (handle, platform, token) →
      p'.store.entries.lookup handle = some ⟨platform, token, p'.store.generation,
        (p.store.entries.lookup handle).bind Entry.lastSent⟩ ∧
      (size p.store.entries = capacity → handle ∉ p.store.entries → Evicts p p' handle) ∧
      (¬(size p.store.entries = capacity ∧ handle ∉ p.store.entries) →
        ∀ h, h ≠ handle → p'.store.entries.lookup h = p.store.entries.lookup h)) ∧
    (∀ p e p' mid u delivery gone v now h,
      Follows (step providers) .start es p e p' mid u (.answered delivery gone) v →
      released providers p e = some (h, now, delivery) →
      (∃ f ∈ mid, ∃ platform token, registers providers f = some (h, platform, token)) →
      v.store = u.store) := by
  have hnumbered : ∀ {p}, Visits (step providers) .start es p → ∃ n, Numbered n p := by
    rintro p ⟨pre, post, rfl, hr⟩
    rw [registrations_append] at hlt
    exact ⟨_, numbered_run hr (by omega)⟩
  refine ⟨?_, ?_, ?_⟩
  · intro p hv
    obtain ⟨n, hn⟩ := hnumbered hv
    exact ⟨hn.bounded, hn.apart⟩
  · intro p e p' handle platform token ho hreg
    obtain ⟨n, hn⟩ := hnumbered ho.before
    refine ⟨?_, evicts_oldest hn ho.step_eq hreg, fun hroom h hh => ?_⟩
    · obtain rfl := registered_eq ho.step_eq hreg
      exact AList.lookup_insert _
    · obtain rfl := registered_eq ho.step_eq hreg
      simp only [Store.register, makeRoom_of_not hroom]
      exact AList.lookup_insert_ne hh
  · intro p e p' mid u delivery gone v now h hf hrel hreg
    exact failure_spares hlt hf hrel hreg

/-- The registrations of the first `n` handles, one after another. -/
def registrationsBelow (n : Nat) : List Event :=
  (List.range n).map fun h => registerOf (BitVec.ofNat 128 h)

theorem registered_below (n : Nat) (hn : n ≤ capacity) :
    ∃ p, run (step both) .start (registrationsBelow n) = some p ∧ size p.store.entries = n ∧
      ∀ h ∈ p.store.entries, h.toNat < n := by
  induction n with
  | zero => exact ⟨_, rfl, rfl, fun h hmem => absurd hmem (AList.notMem_empty h)⟩
  | succ n ih =>
    obtain ⟨p, hrun, hsize, hbelow⟩ := ih (Nat.le_of_succ_le hn)
    have hlast : (BitVec.ofNat 128 n).toNat = n := by
      rw [BitVec.toNat_ofNat]
      exact Nat.mod_eq_of_lt ((Nat.lt_of_succ_le hn).trans (by decide))
    have hfresh : BitVec.ofNat 128 n ∉ p.store.entries := by
      intro hmem
      have hlt := hbelow _ hmem
      rw [hlast] at hlt
      exact Nat.lt_irrefl n hlt
    have hstep : step both p (registerOf (BitVec.ofNat 128 n)) =
        some ⟨p.store.register (BitVec.ofNat 128 n) .ios "t", p.deliveries⟩ := rfl
    have hroom : p.store.makeRoom (BitVec.ofNat 128 n) = p.store.entries :=
      makeRoom_of_not fun h => absurd (hsize.symm.trans h.1) (Nat.ne_of_lt hn)
    refine ⟨⟨p.store.register (BitVec.ofNat 128 n) .ios "t", p.deliveries⟩, ?_, ?_, ?_⟩
    · rw [registrationsBelow, List.range_succ, List.map_append, run_append]
      rw [registrationsBelow] at hrun
      rw [hrun, Option.bind_some]
      exact hstep
    · rw [Store.register, hroom]
      exact (size_insert_of_notMem hfresh).trans (congrArg (· + 1) hsize)
    · intro h hmem
      rw [Store.register, hroom] at hmem
      obtain rfl | hold := (AList.mem_insert _).mp hmem
      · rw [hlast]
        exact Nat.lt_succ_self n
      · exact (hbelow h hold).trans (Nat.lt_succ_self n)

/-- A full store that one more handle registers with, and a delivery that fails after its handle
has registered anew. -/
theorem store_bounded_full :
    (∃ p p', run (step both) .start (registrationsBelow capacity) = some p ∧
      step both p (registerOf 4096) = some p' ∧ size p'.store.entries ≤ capacity ∧
      Evicts p p' 4096) ∧
    ∃ u v delivery, delivery ∈ u.deliveries ∧
      run (step both) .start [registerOf 1, wakeOf 1 0, registerOf 1] = some u ∧
      step both u (.answered delivery true) = some v ∧ v.store = u.store := by
  refine ⟨?_, ?_⟩
  · obtain ⟨p, hrun, hsize, hbelow⟩ := registered_below capacity (Nat.le_refl _)
    have hstep : step both p (registerOf 4096) =
        some ⟨p.store.register 4096 .ios "t", p.deliveries⟩ := rfl
    have hfresh : (4096 : Handle) ∉ p.store.entries := fun hmem => Nat.lt_irrefl _ (hbelow _ hmem)
    have hlt : registrations both (registrationsBelow capacity ++ [registerOf 4096]) < 2 ^ 64 := by
      refine (List.countP_le_length).trans_lt ?_
      rw [registrationsBelow, List.length_append, List.length_map, List.length_range]
      decide
    have hall := store_bounded both _ hlt
    have hocc := occurs_last hrun hstep
    have hlaw := hall.2.1 _ _ _ 4096 .ios "t" hocc rfl
    exact ⟨p, _, hrun, hstep, (hall.1 _ hocc.after).1, hlaw.2.1 hsize hfresh⟩
  · have hlt : registrations both [registerOf 1, wakeOf 1 0, registerOf 1,
        .answered ⟨1, .ios, "t", 1⟩ true] < 2 ^ 64 := by decide
    have hall := store_bounded both _ hlt
    refine ⟨_, _, ⟨1, .ios, "t", 1⟩, List.mem_singleton_self _, rfl, rfl, ?_⟩
    exact hall.2.2 _ (wakeOf 1 0) _ [registerOf 1] _ _ true _ 0 1
      ⟨[registerOf 1], [], rfl, rfl, rfl, rfl, rfl⟩ rfl ⟨registerOf 1, List.mem_singleton_self _,
        .ios, "t", rfl⟩

/-- Two handles, the second one registered just now. -/
def twoHandles (g : UInt64) : Push :=
  ⟨⟨((∅ : AList fun _ : Handle => Entry).insert 1 ⟨.ios, "t", 1, none⟩).insert 2
    ⟨.ios, "t", g, none⟩, g⟩, []⟩

theorem twoHandles_step (g : UInt64) :
    step both (twoHandles g) (registerOf 2) = some (twoHandles (g + 1)) := by
  have hstep : step both (twoHandles g) (registerOf 2)
      = some ⟨(twoHandles g).store.register 2 .ios "t", []⟩ := rfl
  have hroom : (twoHandles g).store.makeRoom 2 = (twoHandles g).store.entries :=
    makeRoom_of_not fun h => absurd h.1 (by decide : (2 : Nat) ≠ 4096)
  rw [hstep]
  unfold Store.register
  rw [hroom]
  simp only [twoHandles, AList.lookup_insert, AList.insert_insert, Option.bind_some]

theorem twoHandles_run (g : UInt64) (n : Nat) :
    run (step both) (twoHandles g) (List.replicate n (registerOf 2))
      = some (twoHandles (g + UInt64.ofNat n)) := by
  induction n generalizing g with
  | zero => simp [run]
  | succ n ih =>
    rw [List.replicate_succ, run, twoHandles_step, Option.bind_some, ih, UInt64.ofNat_add,
      UInt64.add_assoc, UInt64.add_comm 1]
    rfl

theorem registered_twice (n : Nat) :
    run (step both) .start (registerOf 1 :: registerOf 2 :: List.replicate n (registerOf 2))
      = some (twoHandles (2 + UInt64.ofNat n)) := by
  have hstart : ∀ es, run (step both) .start (registerOf 1 :: registerOf 2 :: es)
      = run (step both) (twoHandles 2) es := fun _ => rfl
  rw [hstart, twoHandles_run]

/-- After 2^64 more registrations of the second handle its generation is the first one's. -/
theorem wrapped_generation :
    ∃ es p, run (step both) .start es = some p ∧ ∃ h h' entry entry', h ≠ h' ∧
      p.store.entries.lookup h = some entry ∧ p.store.entries.lookup h' = some entry' ∧
      entry.generation = entry'.generation := by
  have hrun := registered_twice (2 ^ 64 - 1)
  have hwrap : (2 : UInt64) + UInt64.ofNat (2 ^ 64 - 1) = 1 := by decide
  rw [hwrap] at hrun
  exact ⟨_, twoHandles 1, hrun, 1, 2, ⟨.ios, "t", 1, none⟩, ⟨.ios, "t", 1, none⟩,
    by decide, rfl, rfl, rfl⟩

end HerdrMobile.Hub.Generations
