import HerdrMobile.Bridge.Active
import HerdrMobile.Bridge.Identity

/-!
# One registration loop for each device

The start and the pairing loops aim at devices: they are going to spawn their loops.
As long as a revocation neither releases the claim of a pairing loop nor forgets the
loop of the active device, no two of them aim at one device, and a device that is
aimed at has no loop.
-/
namespace HerdrMobile.Bridge.Loops

open Lib.Run Bridge.Store Bridge.Registry Bridge.Host Bridge.Sections Bridge.Tasks Bridge.Steps
open Bridge.Owners Bridge.Claims Bridge.Revoke Bridge.Identity Bridge.Active

set_option autoImplicit false

variable {s s' : System} {t u : TaskId} {d : DeviceId} {pc : Pc} {τ τ' : Task} {e : Event}

/-- The handle of the loop is in the map, or `spawn_registration` is about to put it there. -/
def Mapped (s : System) (d : DeviceId) (t : TaskId) : Prop :=
  (d, t) ∈ s.host.registrations ∨ ∃ u, (s.task u).pc = .spawned d t

structure Looped (s : System) : Prop where
  first : 0 < s.made
  started : ∀ t, (s.task t).kind = .pairing → (s.task 0).pc = .ended
  startup : ∀ t rest, (s.task t).kind = .startup rest → t = 0 ∨ (s.task t).pc = .ended
  nodup : ∀ t, (aims (s.task t)).Nodup
  holds : ∀ t, (s.task t).kind = .pairing → aims (s.task t) ≠ [] → Holds s t
  apart : ∀ t, (s.task t).kind = .pairing → aims (s.task t) ≠ [] → ∀ u,
    (s.task u).guard = true → (s.task u).handle = (s.task t).handle → u = t
  clear : ∀ t d u, d ∈ aims (s.task t) → LoopOf s d u → (s.task t).pc = .spawned d u
  mapped : ∀ d t, LoopOf s d t → Mapped s d t
  single : ∀ d t u, LoopOf s d t → LoopOf s d u → t = u

theorem aims_registration (h : τ.kind = .registration) : aims τ = [] := by
  unfold aims
  rw [h]

theorem aims_guard (hkind : τ.kind = .pairing) (h : aims τ ≠ []) : τ.guard = true := by
  unfold aims at h
  unfold Task.guard
  rw [hkind] at h ⊢
  cases hpc : τ.pc <;> rw [hpc] at h <;> first | rfl | exact absurd rfl h

theorem aims_alive (h : aims τ ≠ []) : τ.pc ≠ .ended := by
  intro hpc
  refine h (aims_free ?_)
  rw [hpc]
  rfl

/-- At most one task aims at devices. -/
theorem Looped.alone (hi : Looped s) (ht : aims (s.task t) ≠ []) (hu : aims (s.task u) ≠ []) :
    t = u := by
  have hzero : ∀ v rest, aims (s.task v) ≠ [] → (s.task v).kind = .startup rest → v = 0 :=
    fun v rest h hkind => (hi.startup v rest hkind).resolve_right (aims_alive h)
  have hended : ∀ v, aims (s.task v) ≠ [] → (s.task v).kind = .pairing → ∀ w rest,
      aims (s.task w) ≠ [] → (s.task w).kind ≠ .startup rest := by
    intro v hv hkind w rest hw hstart
    have hpc := hi.started v hkind
    rw [← hzero w rest hw hstart] at hpc
    exact aims_alive hw hpc
  cases hkind : (s.task t).kind with
  | registration => exact absurd (aims_registration hkind) ht
  | pairing =>
    cases hkind' : (s.task u).kind with
    | registration => exact absurd (aims_registration hkind') hu
    | pairing => exact (hi.holds t hkind ht).unique (hi.holds u hkind' hu)
    | startup rest => exact absurd hkind' (hended t ht hkind u rest hu)
  | startup rest =>
    cases hkind' : (s.task u).kind with
    | registration => exact absurd (aims_registration hkind') hu
    | pairing => exact absurd hkind (hended u hu hkind' t rest ht)
    | startup rest' => rw [hzero t rest ht hkind, hzero u rest' hu hkind']

structure Carries (τ τ' : Task) : Prop where
  loop : τ'.kind = .registration → τ'.pc ≠ .ended → τ'.aborted = false →
    τ.kind = .registration ∧ τ.pc ≠ .ended ∧ τ.aborted = false ∧ τ'.deviceId = τ.deviceId
  pairing : τ'.kind = .pairing → τ.kind = .pairing
  startup : ∀ rest, τ'.kind = .startup rest → ∃ rest', τ.kind = .startup rest'
  ended : τ.pc = .ended → τ'.pc = .ended
  aims : (aims τ').Sublist (aims τ)

theorem Carries.refl (τ : Task) : Carries τ τ :=
  ⟨fun h h' h'' => ⟨h, h', h'', rfl⟩, fun h => h, fun rest h => ⟨rest, h⟩, fun h => h,
    List.Sublist.refl _⟩

theorem Carries.abort (h : Carries τ τ') (aborted : Bool) :
    Carries τ { τ' with aborted := τ'.aborted || aborted } := by
  refine ⟨?_, h.pairing, h.startup, h.ended, h.aims⟩
  intro hkind hpc ha
  exact h.loop hkind hpc (Bool.or_eq_false_iff.mp ha).1

theorem carries_follows (hf : Follows τ τ') (ha : (Steps.aims τ').Sublist (Steps.aims τ)) :
    Carries τ τ' := by
  refine ⟨?_, hf.pairing.mp, ?_, fun h => absurd h hf.alive, ha⟩
  · intro hkind _ haborted
    exact ⟨hf.registration.mp hkind, hf.alive, hf.aborted ▸ haborted, hf.deviceId⟩
  · intro rest hkind
    refine startup_of ?_ ?_
    · intro h
      cases hkind.symm.trans (hf.registration.mpr h)
    · intro h
      cases hkind.symm.trans (hf.pairing.mpr h)

/-- The same task in another place. -/
theorem carries_place (hsame : τ'.kind = τ.kind ∧ τ'.deviceId = τ.deviceId ∧
      τ'.aborted = τ.aborted) (halive : τ.pc ≠ .ended)
    (ha : (Steps.aims τ').Sublist (Steps.aims τ)) : Carries τ τ' := by
  obtain ⟨hkind, hdevice, haborted⟩ := hsame
  refine ⟨?_, fun h => hkind ▸ h, fun rest h => ⟨rest, hkind ▸ h⟩, fun h => absurd h halive, ha⟩
  intro h _ h'
  exact ⟨hkind ▸ h, halive, haborted ▸ h', hdevice⟩

theorem carries_free (hsame : τ'.kind = τ.kind ∧ τ'.deviceId = τ.deviceId ∧
      τ'.aborted = τ.aborted) (halive : τ.pc ≠ .ended) (hfree : Pc.free τ'.pc = true) :
    Carries τ τ' := by
  refine carries_place hsame halive ?_
  rw [aims_free hfree]
  exact List.nil_sublist _

theorem carries_set (h : Carries (s.task t) τ) (u : TaskId) :
    Carries (s.task u) ((s.set t τ).task u) := by
  by_cases heq : u = t
  · subst heq
    rw [set_self]
    exact h
  · rw [set_ne s τ heq]
    exact Carries.refl _

theorem carries_abort (ids : List TaskId) (h : Carries τ (s.task u)) :
    Carries τ ((s.abort ids).task u) := by
  rw [abort_task]
  exact h.abort _

theorem carries_drop (hpc : pc = .top ∨ pc = .ended) (halive : (s.task t).pc ≠ .ended)
    (u : TaskId) : Carries (s.task u) ((s.drop t pc).task u) := by
  have hfree : Carries (s.task t) { s.task t with pc := pc } :=
    carries_free ⟨rfl, rfl, rfl⟩ halive (free_gone hpc)
  unfold System.drop
  split
  · exact carries_set (s := { s with host := releaseActive s.host (s.task t).handle }) hfree u
  · exact carries_set hfree u

theorem loop_back (hmade : s'.made = s.made) (hc : Carries (s.task t) (s'.task t))
    (h : LoopOf s' d t) : LoopOf s d t := by
  obtain ⟨hlt, hkind, hd, hpc, haborted⟩ := h
  obtain ⟨hkind', hpc', haborted', hdevice⟩ := hc.loop hkind hpc haborted
  exact ⟨hmade ▸ hlt, hkind', hdevice ▸ hd, hpc', haborted'⟩

/-- A step in which no task comes to aim at a device and no loop is spawned. -/
theorem Looped.carry (hi : Looped s) (hmade : s'.made = s.made)
    (hc : ∀ u, Carries (s.task u) (s'.task u))
    (hguards : ∀ t, (s'.task t).kind = .pairing → aims (s'.task t) ≠ [] → ∀ u,
      (s'.task u).guard = true →
      (s.task u).guard = true ∧ (s'.task u).handle = (s.task u).handle)
    (hholds : ∀ t, (s'.task t).kind = .pairing → aims (s'.task t) ≠ [] → Holds s t → Holds s' t)
    (hhand : ∀ t d u, d ∈ aims (s'.task t) → (s.task t).pc = .spawned d u →
      (s'.task t).pc = .spawned d u)
    (hmapped : ∀ d t, LoopOf s' d t → LoopOf s d t → Mapped s d t → Mapped s' d t) : Looped s' := by
  have haims : ∀ t, aims (s'.task t) ≠ [] → aims (s.task t) ≠ [] := by
    intro t h h'
    have hsub := (hc t).aims
    rw [h'] at hsub
    exact h (List.sublist_nil.mp hsub)
  refine ⟨hmade ▸ hi.first, ?started, ?startup, ?nodup, ?holds, ?apart, ?clear, ?mapped, ?single⟩
  case started =>
    intro t hkind
    exact (hc 0).ended (hi.started t ((hc t).pairing hkind))
  case startup =>
    intro t rest hkind
    obtain ⟨rest', hkind'⟩ := (hc t).startup rest hkind
    exact (hi.startup t rest' hkind').imp_right (hc t).ended
  case nodup =>
    intro t
    exact (hi.nodup t).sublist (hc t).aims
  case holds =>
    intro t hkind ha
    exact hholds t hkind ha (hi.holds t ((hc t).pairing hkind) (haims t ha))
  case apart =>
    intro t hkind ha u hguard hsame
    obtain ⟨hg, hh⟩ := hguards t hkind ha u hguard
    obtain ⟨-, hht⟩ := hguards t hkind ha t (aims_guard hkind ha)
    refine hi.apart t ((hc t).pairing hkind) (haims t ha) u hg ?_
    rw [← hh, ← hht]
    exact hsame
  case clear =>
    intro t d u hd hloop
    exact hhand t d u hd (hi.clear t d u ((hc t).aims.subset hd) (loop_back hmade (hc u) hloop))
  case mapped =>
    intro d t hloop
    have hback := loop_back hmade (hc t) hloop
    exact hmapped d t hloop hback (hi.mapped d t hback)
  case single =>
    intro d t u ht hu
    exact hi.single d t u (loop_back hmade (hc t) ht) (loop_back hmade (hc u) hu)

theorem mapped_same (hregs : s'.host.registrations = s.host.registrations)
    (hhand : ∀ v d u, (s.task v).pc = .spawned d u → (s'.task v).pc = .spawned d u)
    (h : Mapped s d t) : Mapped s' d t := by
  rcases h with hmem | ⟨v, hv⟩
  · rw [← hregs] at hmem
    exact Or.inl hmem
  · exact Or.inr ⟨v, hhand v d t hv⟩

theorem hand_set (h : ∀ d u, (s.task t).pc = .spawned d u → τ.pc = .spawned d u) (v : TaskId)
    (d : DeviceId) (u : TaskId) (hv : (s.task v).pc = .spawned d u) :
    ((s.set t τ).task v).pc = .spawned d u := by
  by_cases heq : v = t
  · subst heq
    rw [set_self]
    exact h d u hv
  · rw [set_ne s τ heq]
    exact hv

theorem guards_kept (hk : Kept τ τ') (hg : τ'.guard = true) :
    τ.guard = true ∧ τ'.handle = τ.handle :=
  ⟨(hk.guards hg).1, (hk.guards hg).2.2.2⟩

/-- A step that keeps the map, the claim and what is in hand. -/
theorem Looped.keep (hi : Looped s) (hmade : s'.made = s.made)
    (hc : ∀ u, Carries (s.task u) (s'.task u))
    (hg : ∀ u, (s'.task u).guard = true →
      (s.task u).guard = true ∧ (s'.task u).handle = (s.task u).handle)
    (hregs : s'.host.registrations = s.host.registrations)
    (hactive : s'.host.active = s.host.active)
    (hhand : ∀ v d u, (s.task v).pc = .spawned d u → (s'.task v).pc = .spawned d u) :
    Looped s' := by
  refine hi.carry hmade hc (fun _ _ _ => hg) ?_ (fun v d u _ => hhand v d u)
    fun d t _ _ => mapped_same hregs hhand
  rintro t - - ⟨a, ha, ht⟩
  exact ⟨a, hactive.trans ha, ht⟩

theorem aims_unfree (h : aims τ ≠ []) : Pc.free τ.pc = false := by
  cases hfree : Pc.free τ.pc with
  | false => rfl
  | true => exact absurd (aims_free hfree) h

/-- A claim that goes out of scope is not that of another loop that aims at a device. -/
theorem drop_holds (hi : Looped s) (hf : Fine s) (hpc : pc = .top ∨ pc = .ended) (u : TaskId)
    (hkind : ((s.drop t pc).task u).kind = .pairing) (ha : aims ((s.drop t pc).task u) ≠ [])
    (hholds : Holds s u) : Holds (s.drop t pc) u := by
  have hne : u ≠ t := by
    rintro rfl
    have hfree := aims_unfree ha
    rw [drop_pc, free_gone hpc] at hfree
    cases hfree
  rw [drop_ne s pc hne] at hkind ha
  cases hguard : (s.task t).guard with
  | false =>
    rw [drop_goto hguard]
    exact hholds
  | true =>
    obtain ⟨a, hactive, rfl⟩ := hholds
    rcases releaseActive_cases s.host (s.task t).handle with ⟨b, hb, hh, -⟩ | ⟨-, hr⟩
    · rw [hactive] at hb
      obtain rfl := Option.some.inj hb
      have hsame := (hf.claimed.holds a hactive).2.1
      exact absurd (hi.apart a.claimant hkind ha t hguard (hh.symm.trans hsame.symm)).symm hne
    · refine ⟨a, ?_, rfl⟩
      rw [drop_release hguard, goto_host, hr]
      exact hactive

theorem drop_frame (s : System) (t : TaskId) (pc : Pc) :
    (s.drop t pc).host.registrations = s.host.registrations ∧ (s.drop t pc).made = s.made := by
  unfold System.drop
  split
  · exact ⟨(releaseActive_rest s.host (s.task t).handle).2.2.2.1, rfl⟩
  · exact ⟨rfl, rfl⟩

/-- What is in the hand of a loop that ends is in the map by then. -/
theorem Looped.drop (hi : Looped s) (hf : Fine s) (hpc : pc = .top ∨ pc = .ended)
    (halive : (s.task t).pc ≠ .ended)
    (hand : ∀ d u, (s.task t).pc = .spawned d u → (d, u) ∈ s.host.registrations) :
    Looped (s.drop t pc) := by
  obtain ⟨hregs, hmade⟩ := drop_frame s t pc
  refine hi.carry hmade (carries_drop hpc halive) ?_ (drop_holds hi hf hpc) ?_ ?_
  · exact fun _ _ _ u => guards_kept (kept_drop hpc u)
  · intro v d u hd hv
    have hne : v ≠ t := by
      rintro rfl
      rw [aims_free (by rw [drop_pc]; exact free_gone hpc)] at hd
      exact absurd hd List.not_mem_nil
    rw [drop_ne s pc hne]
    exact hv
  · rintro d u - - (hmem | ⟨v, hv⟩)
    · rw [← hregs] at hmem
      exact Or.inl hmem
    · by_cases hne : v = t
      · subst hne
        refine Or.inl ?_
        rw [hregs]
        exact hand d u hv
      · refine Or.inr ⟨v, ?_⟩
        rw [drop_ne s pc hne]
        exact hv

theorem Looped.quiet (hi : Looped s) {host : HostState} (hq : Quiet s.host host) :
    Looped { s with host := host } :=
  hi.keep rfl (fun _ => Carries.refl _) (fun _ hg => ⟨hg, rfl⟩) hq.registrations hq.active
    fun _ _ _ h => h

/-- What a task is about to spawn is what it aims at. -/
theorem aims_handed (u : TaskId) (hk : Known s.owner (s.task t))
    (hpc : (s.task t).pc = .usable d ∨ (s.task t).pc = .spawned d u) :
    d ∈ aims (s.task t) ∧ aims { s.task t with pc := .spawned d u } = aims (s.task t) := by
  unfold aims
  cases hkind : (s.task t).kind with
  | registration =>
    have hended := hk.plain hkind (by rcases hpc with h | h <;> rw [h] <;> rfl)
    rcases hpc with h | h <;> cases h.symm.trans hended
  | pairing =>
    rcases hpc with h | h
    · rw [h]
      exact ⟨List.mem_singleton_self d, rfl⟩
    · rw [h]
      exact ⟨List.mem_singleton_self d, rfl⟩
  | startup rest =>
    rcases hpc with h | h
    · rw [h]
      exact ⟨List.mem_cons_self, rfl⟩
    · rw [h]
      exact ⟨List.mem_cons_self, rfl⟩

/-- The new handle overwrites an entry of the map that no running loop needs. -/
theorem Looped.store (hi : Looped s) (hf : Fine s) (hpc : (s.task t).pc = .spawned d u) :
    Looped { s with host := { s.host with
      registrations := (d, u) :: s.host.registrations.filter fun r => !(r.1 == d) } } := by
  refine hi.carry rfl (fun _ => Carries.refl _) (fun _ _ _ _ hg => ⟨hg, rfl⟩) (fun _ _ _ h => h)
    (fun _ _ _ _ h => h) ?_
  rintro x v - hloop (hmem | ⟨w, hw⟩)
  · by_cases heq : x = d
    · subst heq
      have hv := hi.clear t x v (aims_handed u (hf.owned.known t) (Or.inr hpc)).1 hloop
      rw [hpc] at hv
      obtain ⟨-, rfl⟩ := Pc.spawned.inj hv
      exact Or.inl List.mem_cons_self
    · refine Or.inl (List.mem_cons_of_mem _ (List.mem_filter.mpr ⟨hmem, ?_⟩))
      simpa using heq
  · exact Or.inr ⟨w, hw⟩

theorem nobody_aims (hi : Looped s) (hf : Fine s) (hpc : (s.task t).pc = .claimed)
    (hkind : (s.task t).kind = .pairing) (hopen : pairingHandle s.host = some (s.task t).handle)
    (u : TaskId) : aims (s.task u) = [] := by
  have hguard : (s.task t).guard = true := by
    unfold Task.guard
    rw [hkind, hpc]
  have hself : aims (s.task t) = [] := by
    unfold aims
    rw [hkind, hpc]
  by_contra ha
  cases hkind' : (s.task u).kind with
  | registration => exact ha (aims_registration hkind')
  | pairing =>
    obtain rfl := (hi.holds u hkind' ha).unique (hf.claimed.current t hguard (Or.inr hopen))
    exact ha hself
  | startup rest =>
    rcases hi.startup u rest hkind' with rfl | hended
    · exact aims_alive ha (hi.started t hkind)
    · exact aims_alive ha hended

/-- A pairing loop that enrols a device takes its old loop out of the map first. -/
theorem Looped.enrol (hi : Looped s) (hf : Fine s) (hpc : (s.task t).pc = .claimed)
    (hkind : (s.task t).kind = .pairing) (hopen : pairingHandle s.host = some (s.task t).handle)
    (hτ : τ.kind = .pairing ∧ aims τ = [d] ∧ τ.handle = (s.task t).handle) {host : HostState}
    {owner : Handle → Option (Option DeviceId)}
    (hregs : host.registrations =
      s.host.registrations.filter fun r : DeviceId × TaskId => !(r.1 == d))
    (hactive : Holds s t → ∃ a, host.active = some a ∧ a.claimant = t) :
    Looped (({ s with host := host, owner := owner }.set t τ).abort
      ((s.host.registrations.filter fun r : DeviceId × TaskId => r.1 == d).map Prod.snd)) := by
  have hguard : (s.task t).guard = true := by
    unfold Task.guard
    rw [hkind, hpc]
  have hholds := hf.claimed.current t hguard (Or.inr hopen)
  have hnone := nobody_aims hi hf hpc hkind hopen
  have hhand : ∀ v d u, (s.task v).pc ≠ .spawned d u := by
    intro v d u hv
    have hmem := (aims_handed _ (hf.owned.known v) (Or.inr hv)).1
    rw [hnone v] at hmem
    exact absurd hmem List.not_mem_nil
  generalize hids : (s.host.registrations.filter fun r : DeviceId × TaskId => r.1 == d).map
    Prod.snd = ids
  generalize hs' : ({ s with host := host, owner := owner }.set t τ).abort ids = s'
  have hmade : s'.made = s.made := hs' ▸ rfl
  have hhost : s'.host = host := hs' ▸ rfl
  have hself : s'.task t = { τ with aborted := τ.aborted || decide (t ∈ ids) } := by
    rw [← hs', abort_task, set_self]
  have hother : ∀ v, v ≠ t →
      s'.task v = { s.task v with aborted := (s.task v).aborted || decide (v ∈ ids) } := by
    intro v hv
    rw [← hs', abort_task, set_ne _ τ hv]
  have hback : ∀ x v, LoopOf s' x v → LoopOf s x v ∧ v ∉ ids := by
    rintro x v ⟨hlt, hreg, hd, hended, haborted⟩
    by_cases hv : v = t
    · subst hv
      rw [hself] at hreg
      cases hτ.1.symm.trans hreg
    · rw [hother v hv] at hreg hd hended haborted
      obtain ⟨ha, hnot⟩ := Bool.or_eq_false_iff.mp haborted
      exact ⟨⟨hmade ▸ hlt, hreg, hd, hended, ha⟩, of_decide_eq_false hnot⟩
  have hmem : ∀ x v, LoopOf s' x v → (x, v) ∈ s.host.registrations ∧ x ≠ d := by
    intro x v h
    obtain ⟨hloop, hnot⟩ := hback x v h
    have hin : (x, v) ∈ s.host.registrations := by
      rcases hi.mapped x v hloop with hin | ⟨w, hw⟩
      · exact hin
      · exact absurd hw (hhand w x v)
    refine ⟨hin, ?_⟩
    rintro rfl
    rw [← hids] at hnot
    exact hnot (List.mem_map.mpr ⟨(x, v), List.mem_filter.mpr ⟨hin, beq_self_eq_true x⟩, rfl⟩)
  have haims : ∀ v, v ≠ t → aims (s'.task v) = [] := by
    intro v hv
    rw [hother v hv]
    exact hnone v
  have honly : ∀ v, aims (s'.task v) ≠ [] → v = t := by
    intro v h
    by_contra hv
    exact h (haims v hv)
  refine ⟨hmade ▸ hi.first, ?started, ?startup, ?nodup, ?holds, ?apart, ?clear, ?mapped, ?single⟩
  case started =>
    intro v _
    have hzero := hi.started t hkind
    have hne : (0 : TaskId) ≠ t := by
      rintro rfl
      cases hpc.symm.trans hzero
    rw [hother 0 hne]
    exact hzero
  case startup =>
    intro v rest hv
    by_cases heq : v = t
    · subst heq
      rw [hself] at hv
      cases hτ.1.symm.trans hv
    · rw [hother v heq] at hv ⊢
      exact hi.startup v rest hv
  case nodup =>
    intro v
    by_cases heq : v = t
    · subst heq
      rw [hself]
      show (aims τ).Nodup
      rw [hτ.2.1]
      exact List.pairwise_singleton _ d
    · rw [haims v heq]
      exact List.nodup_nil
  case holds =>
    intro v _ ha
    obtain rfl := honly v ha
    obtain ⟨a, ha, hclaimant⟩ := hactive hholds
    exact ⟨a, (congrArg HostState.active hhost).trans ha, hclaimant⟩
  case apart =>
    intro v _ ha u hg hsame
    obtain rfl := honly v ha
    by_contra hne
    rw [hself, hother u hne] at hsame
    rw [hother u hne] at hg
    have hu : (s.task u).handle = (s.task v).handle := hsame.trans hτ.2.2
    refine hne ((hf.claimed.current u hg ?_).unique hholds)
    rw [hu]
    exact Or.inr hopen
  case clear =>
    intro v x u hx hloop
    obtain rfl := honly v (List.ne_nil_of_mem hx)
    rw [hself] at hx
    replace hx : x ∈ aims τ := hx
    rw [hτ.2.1] at hx
    exact absurd (List.mem_singleton.mp hx) (hmem x u hloop).2
  case mapped =>
    intro x v hloop
    obtain ⟨hin, hne⟩ := hmem x v hloop
    refine Or.inl ?_
    rw [hhost, hregs]
    exact List.mem_filter.mpr ⟨hin, by simpa using hne⟩
  case single =>
    intro x v u hv hu
    exact hi.single x v u (hback x v hv).1 (hback x u hu).1

/-- No task that starts aims at anything it did not aim at. -/
theorem aims_follow (hk : Known s.owner (s.task t)) (hf : Follows (s.task t) τ)
    (ha : Aims (s.task t) τ) : (aims τ).Sublist (aims (s.task t)) := by
  cases hkind : (s.task t).kind with
  | registration =>
    rw [aims_registration (hf.registration.mpr hkind)]
    exact List.nil_sublist _
  | pairing => exact ha (Or.inr hkind)
  | startup rest => exact ha (Or.inl (hk.startup rest hkind))

/-- A loop is spawned for a device that has none, and stays in the hand of the task. -/
theorem Looped.spawn (hi : Looped s) (hf : Fine s) (ht : t < s.made)
    (hpc : (s.task t).pc = .usable d) :
    Looped ((s.spawn (.new .registration .start (some d))).goto t (.spawned d s.made)) := by
  have hne : t ≠ s.made := Nat.ne_of_lt ht
  obtain ⟨hd, haims⟩ := aims_handed s.made (hf.owned.known t) (Or.inl hpc)
  generalize hs' :
    (s.spawn (.new .registration .start (some d))).goto t (.spawned d s.made) = s'
  have hcount : s'.made = s.made + 1 := hs' ▸ rfl
  have hhost : s'.host = s.host := hs' ▸ rfl
  have hself : s'.task t = { s.task t with pc := .spawned d s.made } := by
    rw [← hs', goto_self, spawn_ne s _ hne]
  have hnew : s'.task s.made = .new .registration .start (some d) := by
    rw [← hs', goto_ne _ _ hne.symm, spawn_self]
  have hother : ∀ v, v ≠ t → v ≠ s.made → s'.task v = s.task v := by
    intro v hv hv'
    rw [← hs', goto_ne _ _ hv, spawn_ne s _ hv']
  have haims' : ∀ v, v ≠ s.made → aims (s'.task v) = aims (s.task v) := by
    intro v hv
    by_cases heq : v = t
    · subst heq
      rw [hself]
      exact haims
    · rw [hother v heq hv]
  have hkind : ∀ v, v ≠ s.made → (s'.task v).kind = (s.task v).kind := by
    intro v hv
    by_cases heq : v = t
    · subst heq
      rw [hself]
    · rw [hother v heq hv]
  have hclear : ∀ x v, x ∈ aims (s.task t) → ¬LoopOf s x v := by
    intro x v hx hloop
    cases hpc.symm.trans (hi.clear t x v hx hloop)
  have hback : ∀ x v, v ≠ s.made → LoopOf s' x v → LoopOf s x v := by
    rintro x v hv ⟨hlt, hreg, hdevice, hended, haborted⟩
    rw [hcount] at hlt
    have hlt' : v < s.made := Nat.lt_of_le_of_ne (Nat.le_of_lt_succ hlt) hv
    by_cases heq : v = t
    · subst heq
      rw [hself] at hreg
      exact absurd (aims_registration hreg) (List.ne_nil_of_mem (by rw [haims]; exact hd))
    · rw [hother v heq hv] at hreg hdevice hended haborted
      exact ⟨hlt', hreg, hdevice, hended, haborted⟩
  have hmade : ∀ x, LoopOf s' x s.made → x = d := by
    rintro x ⟨-, -, hdevice, -, -⟩
    rw [hnew] at hdevice
    exact (Option.some.inj hdevice).symm
  have hidle : ∀ v, aims (s'.task v) ≠ [] → v ≠ s.made := by
    rintro v ha rfl
    rw [hnew] at ha
    exact ha rfl
  refine ⟨hcount ▸ Nat.succ_pos _, ?started, ?startup, ?nodup, ?holds, ?apart, ?clear, ?mapped, ?single⟩
  case started =>
    intro v hv
    have hvm : v ≠ s.made := by
      rintro rfl
      rw [hnew] at hv
      cases hv
    rw [hkind v hvm] at hv
    have hzero := hi.started v hv
    have hzt : (0 : TaskId) ≠ t := by
      rintro rfl
      cases hpc.symm.trans hzero
    rw [hother 0 hzt (Nat.ne_of_lt (Nat.lt_of_le_of_lt (Nat.zero_le t) ht))]
    exact hzero
  case startup =>
    intro v rest hv
    have hvm : v ≠ s.made := by
      rintro rfl
      rw [hnew] at hv
      cases hv
    rw [hkind v hvm] at hv
    rcases hi.startup v rest hv with hzero | hended
    · exact Or.inl hzero
    · have hvt : v ≠ t := by
        rintro rfl
        cases hpc.symm.trans hended
      rw [hother v hvt hvm]
      exact Or.inr hended
  case nodup =>
    intro v
    by_cases hvm : v = s.made
    · subst hvm
      rw [hnew]
      exact List.nodup_nil
    · rw [haims' v hvm]
      exact hi.nodup v
  case holds =>
    intro v hv ha
    have hvm := hidle v ha
    rw [hkind v hvm] at hv
    rw [haims' v hvm] at ha
    rw [Holds, hhost]
    exact hi.holds v hv ha
  case apart =>
    intro v hv ha u hg hsame
    have hvm := hidle v ha
    have hhandle : ∀ w, w ≠ s.made → (s'.task w).handle = (s.task w).handle := by
      intro w hw
      by_cases heq : w = t
      · subst heq
        rw [hself]
      · rw [hother w heq hw]
    have hum : u ≠ s.made := by
      rintro rfl
      rw [hnew] at hg
      cases hg
    have hguard : (s.task u).guard = true := by
      by_cases heq : u = t
      · subst heq
        rw [hself, guard_spawned hpc] at hg
        exact hg
      · rw [hother u heq hum] at hg
        exact hg
    rw [hhandle u hum, hhandle v hvm] at hsame
    rw [hkind v hvm] at hv
    rw [haims' v hvm] at ha
    exact hi.apart v hv ha u hguard hsame
  case clear =>
    intro v x u hx hloop
    have hvm := hidle v (List.ne_nil_of_mem hx)
    rw [haims' v hvm] at hx
    by_cases hum : u = s.made
    · subst hum
      obtain rfl := hmade x hloop
      obtain rfl := hi.alone (List.ne_nil_of_mem hx) (List.ne_nil_of_mem hd)
      rw [hself]
    · have hold := hback x u hum hloop
      have hvt : v ≠ t := by
        rintro rfl
        exact hclear x u hx hold
      rw [hother v hvt hvm]
      exact hi.clear v x u hx hold
  case mapped =>
    intro x v hloop
    by_cases hvm : v = s.made
    · subst hvm
      obtain rfl := hmade x hloop
      refine Or.inr ⟨t, ?_⟩
      rw [hself]
    · rcases hi.mapped x v (hback x v hvm hloop) with hmem | ⟨w, hw⟩
      · exact Or.inl (hhost.symm ▸ hmem)
      · have hwt : w ≠ t := by
          rintro rfl
          cases hpc.symm.trans hw
        have hwm : w ≠ s.made := by
          rintro rfl
          cases (hf.owned.beyond s.made (Nat.le_refl _)).symm.trans hw
        refine Or.inr ⟨w, ?_⟩
        rw [hother w hwt hwm]
        exact hw
  case single =>
    intro x v u hv hu
    by_cases hvm : v = s.made
    · subst hvm
      obtain rfl := hmade x hv
      by_cases hum : u = s.made
      · exact hum.symm
      · exact absurd (hback x u hum hu) (hclear x u hd)
    · by_cases hum : u = s.made
      · subst hum
        obtain rfl := hmade x hu
        exact absurd (hback x v hvm hv) (hclear x v hd)
      · exact hi.single x v u (hback x v hvm hv) (hback x u hum hu)

theorem Looped.moved (hi : Looped s) (hf : Fine s) (ht : t < s.made) (hm : Moved s t s') :
    Looped s' := by
  have hk := hf.owned.known t
  cases hm with
  | goes host τ hq hfollow heard hand haims =>
    have hquiet := hi.quiet hq
    exact hquiet.keep rfl (carries_set (carries_follows hfollow (aims_follow hk hfollow haims)))
      (fun u => guards_kept (kept_set (kept_follows hfollow) u)) rfl rfl (hand_set fun d u h => (hand d u).mpr h)
  | drops host pc hq hpc hand halive hstart htop =>
    refine Looped.drop (hi.quiet hq) ?_ hpc halive fun d u h => absurd h (hand d u)
    exact hf.same hq.store hq.active hq.registry hq.pairing
  | began τ hstart hkind hdevice haborted hpc hhandle =>
    have hfree : Pc.free τ.pc = true := free_begun hpc
    refine hi.keep rfl (carries_set (carries_free ⟨hkind, hdevice, haborted⟩ ?_ hfree))
      (fun u => guards_kept (kept_set (kept_free hfree) u)) rfl rfl (hand_set fun d u h => ?_)
    · rw [hstart]
      decide
    · cases hstart.symm.trans h
  | looked τ hpc hkind hkind' hdevice haborted hpc' hhandle =>
    have hfree : Pc.free τ.pc = true := by
      rw [hpc']
      rfl
    refine hi.keep rfl (carries_set (carries_free ⟨hkind', hdevice, haborted⟩ ?_ hfree))
      (fun u => guards_kept (kept_set (kept_free hfree) u)) rfl rfl (hand_set fun d u h => ?_)
    · rw [hpc]
      decide
    · cases hpc.symm.trans h
  | destroyed ids hpc hkind =>
    have hended : Looped ({ s with host := { s.host with openPairing := none } }.goto t .ended) := by
      refine (hi.quiet (quiet_closed s.host)).keep rfl
        (carries_set (carries_free ⟨rfl, rfl, rfl⟩ ?_ rfl)) (fun u => guards_kept (kept_set (kept_free rfl) u)) rfl rfl
        (hand_set fun d u h => ?_)
      · show (s.task t).pc ≠ .ended
        rw [hpc]
        decide
      · cases hpc.symm.trans h
    exact hended.keep rfl (fun u => carries_abort ids (Carries.refl _))
      (fun u => guards_kept (kept_abort ids (Kept.refl _))) rfl rfl fun v d u h => by
        rw [abort_task]
        exact h
  | claimed hpc hfree hrun =>
    have hnone : aims { s.task t with pc := .claimed } = [] := by
      unfold aims
      cases (s.task t).kind with
      | registration => rfl
      | pairing => rfl
      | startup rest => rfl
    have halive : (s.task t).pc ≠ .ended := by
      rw [hpc]
      decide
    have hidle : ∀ u, ((({ s with host := { s.host with
        active := some ⟨(s.task t).deviceId, (s.task t).handle, t⟩
        link := linkConnected } } : System).goto t .claimed).task u).kind = .pairing →
        aims ((({ s with host := { s.host with
          active := some ⟨(s.task t).deviceId, (s.task t).handle, t⟩
          link := linkConnected } } : System).goto t .claimed).task u) = [] := by
      intro u hkind
      by_cases heq : u = t
      · subst heq
        rw [goto_self]
        exact hnone
      · rw [goto_ne _ _ heq] at hkind ⊢
        by_contra ha
        obtain ⟨a, hactive, -⟩ := hi.holds u hkind ha
        cases hfree.symm.trans hactive
    have hhand : ∀ d u, (s.task t).pc ≠ .spawned d u := by
      intro d u h
      cases hpc.symm.trans h
    refine hi.carry rfl (carries_set (carries_place ⟨rfl, rfl, rfl⟩ halive ?_)) ?_ ?_
      (fun v d u _ => hand_set (fun d u h => absurd h (hhand d u)) v d u) fun d u _ _ =>
        mapped_same rfl (hand_set fun d u h => absurd h (hhand d u))
    · rw [hnone]
      exact List.nil_sublist _
    · exact fun u hkind ha => absurd (hidle u hkind) ha
    · exact fun u hkind ha => absurd (hidle u hkind) ha
  | entered d e hpc hd hrun hfind hid hhandle =>
    have hstarting : Pc.starting (s.task t).pc = false := starting_entering hpc
    have hplace : (s.task t).guard = true ∧
        aims { s.task t with pc := .joined s.host.registry.made } = aims (s.task t) := by
      unfold Task.guard aims
      cases hkind : (s.task t).kind with
      | registration => rcases hpc with ⟨h, -⟩ | h <;> rw [h] <;> exact ⟨rfl, rfl⟩
      | pairing =>
        rcases hpc with ⟨-, hreg⟩ | h
        · cases hkind.symm.trans hreg
        · rw [h]
          exact ⟨rfl, rfl⟩
      | startup rest => exact absurd hkind (hk.not_startup hstarting rest)
    have halive : (s.task t).pc ≠ .ended := by
      rcases hpc with ⟨h, -⟩ | h
      · rw [h]
        decide
      · rw [h]
        decide
    have hhand : ∀ d u, (s.task t).pc ≠ .spawned d u := by
      intro d u hspawned
      rcases hpc with ⟨h, -⟩ | h
      · cases h.symm.trans hspawned
      · cases h.symm.trans hspawned
    refine hi.keep rfl (carries_set (carries_place ⟨rfl, rfl, rfl⟩ halive ?_)) ?_ rfl rfl
      (hand_set fun d u h => absurd h (hhand d u))
    · exact hplace.2.symm ▸ List.Sublist.refl _
    · intro u hg
      by_cases heq : u = t
      · subst heq
        rw [goto_self]
        exact ⟨hplace.1, rfl⟩
      · rw [goto_ne _ _ heq] at hg ⊢
        exact ⟨hg, rfl⟩
  | enrolFailed d τ hpc hkind hopen hfollow hpc' =>
    have hkind' := hfollow.pairing.mpr hkind
    refine hi.enrol hf hpc hkind hopen ⟨hkind', ?_, hfollow.handle⟩ rfl fun h => h
    unfold aims
    rw [hkind', hpc']
  | enrolled d entry store τ hpc hkind hentry hopen hstore hτ =>
    obtain ⟨hpc', hkind', hdevice, hhandle, -, -⟩ := hτ
    refine hi.enrol hf hpc hkind hopen ⟨hkind', ?_, hhandle⟩ rfl ?_
    · unfold aims
      rw [hkind', hpc', hdevice]
      rfl
    · rintro ⟨a, ha, hclaimant⟩
      have hmap : (s.host.active.map fun active : ActiveSession =>
          if active.handle == (s.task t).handle then { active with deviceId := some d }
          else active) =
          some (if a.handle == (s.task t).handle then { a with deviceId := some d } else a) := by
        rw [ha]
        rfl
      refine ⟨_, hmap, ?_⟩
      split
      · exact hclaimant
      · exact hclaimant
  | spawned d hpc => exact hi.spawn hf ht hpc
  | stored d u τ hpc hfollow hand hrun haims =>
    have hsub : (aims τ).Sublist (aims (s.task t)) := by
      rw [haims]
      exact List.sublist_cons_self d _
    refine (hi.store hf hpc).carry rfl (carries_set (carries_follows hfollow hsub))
      (fun _ _ _ u => guards_kept (kept_set (kept_follows hfollow) u)) (fun _ _ _ h => h) ?_ ?_
    · intro v x w hx hv
      by_cases heq : v = t
      · subst heq
        rw [set_self] at hx
        obtain ⟨rfl, -⟩ := Pc.spawned.inj (hpc.symm.trans hv)
        have hnodup := hi.nodup v
        rw [haims] at hnodup
        exact absurd hx (List.nodup_cons.mp hnodup).1
      · rw [set_ne _ τ heq]
        exact hv
    · rintro x v - - (hmem | ⟨w, hw⟩)
      · exact Or.inl hmem
      · by_cases heq : w = t
        · subst heq
          obtain ⟨rfl, rfl⟩ := Pc.spawned.inj (hpc.symm.trans hw)
          exact Or.inl List.mem_cons_self
        · refine Or.inr ⟨w, ?_⟩
          rw [set_ne _ τ heq]
          exact hw
  | storedDrops d u pc hpc hpc' htop =>
    refine Looped.drop (hi.store hf hpc) ?_ hpc' ?_ ?_
    · exact hf.same rfl rfl rfl fun _ hh => hh
    · show (s.task t).pc ≠ .ended
      rw [hpc]
      exact Pc.noConfusion
    · intro x v hv
      obtain ⟨rfl, rfl⟩ := Pc.spawned.inj (hpc.symm.trans hv)
      exact List.mem_cons_self

/-- A pairing loop holds the claim. -/
def PairingHolds (s : System) : Prop :=
  ∃ a, s.host.active = some a ∧ (s.task a.claimant).kind = .pairing

/-- The loop of the active device goes on, with its handle in the map. -/
def ActiveLoop (s : System) : Prop :=
  ∃ d t, activeId s.host = some d ∧ LoopOf s d t ∧ (d, t) ∈ s.host.registrations

/-- A revocation that releases no claim of a pairing loop and forgets no active loop. -/
def Spares (s : System) : Event → Prop
  | .control (.revoke d saved) => saved = true → activeId s.host = some d → ¬PairingHolds s
  | .control (.revokeAll saved _) => saved = true → ¬PairingHolds s ∧ ¬ActiveLoop s
  | .wire request saved rotated _ => request.deviceId = none → request.all = some true →
    saved = true → rotated = true → ¬ActiveLoop s
  | _ => True

/-- What a revocation leaves to a pairing loop that holds the claim and to the active loop. -/
structure Gentle (s : System) (h' : HostState) : Prop where
  claim : ∀ a, s.host.active = some a → (s.task a.claimant).kind = .pairing → h'.active = some a
  loop : ∀ d t, activeId s.host = some d → LoopOf s d t → (d, t) ∈ s.host.registrations →
    (d, t) ∈ h'.registrations

theorem Looped.revoke (hi : Looped s) {host : HostState} {ids : List TaskId}
    (hr : Revocation s.host host ids) (hg : Gentle s host) :
    Looped ({ s with host := host }.abort ids) := by
  have halive : ∀ d t, LoopOf ({ s with host := host }.abort ids) d t → t ∉ ids := by
    rintro d t ⟨-, -, -, -, haborted⟩
    rw [abort_task] at haborted
    exact of_decide_eq_false (Bool.or_eq_false_iff.mp haborted).2
  refine hi.carry rfl (fun u => carries_abort ids (Carries.refl _))
    (fun _ _ _ u => guards_kept (kept_abort ids (Kept.refl _))) ?_ ?_ ?_
  · rintro t hkind - ⟨a, ha, rfl⟩
    rw [abort_task] at hkind
    exact ⟨a, hg.claim a ha hkind, rfl⟩
  · intro t d u _ h
    rw [abort_task]
    exact h
  · rintro d t hloop hback (hmem | ⟨v, hv⟩)
    · have hnot := halive d t hloop
      refine Or.inl ?_
      show (d, t) ∈ host.registrations
      cases hr with
      | nothing host hh =>
        rw [hh]
        exact hmem
      | one x host ids found store registry active loops openPairing stopped stopTx =>
        generalize host.registrations = after at loops ⊢
        cases loops with
        | spared ha => exact hmem
        | aborted ha =>
          refine List.mem_filter.mpr ⟨hmem, ?_⟩
          rw [Bool.not_eq_true']
          by_contra hx
          rw [Bool.not_eq_false] at hx
          exact hnot (List.mem_map.mpr ⟨(d, t), List.mem_filter.mpr ⟨hmem, hx⟩, rfl⟩)
      | every revoked host ids store registry active registrations loops openPairing stopped
          stopTx =>
        by_cases hactive : some d = activeId s.host
        · exact hg.loop d t hactive.symm hback hmem
        · exact absurd (loops d t hmem hactive) hnot
    · refine Or.inr ⟨v, ?_⟩
      rw [abort_task]
      exact hv

theorem revoke_saved {store store' : DeviceStore} {saved : Bool} {entry : PairedDevice}
    (h : store.revoke d saved = some (some entry, store')) : saved = true := by
  unfold DeviceStore.revoke at h
  split at h
  · cases (Prod.mk.inj (Option.some.inj h)).1
  · split at h
    · next hs => exact hs
    · cases h

theorem revokeOne_spares (h : HostState) (d : DeviceId) (saved : Bool) :
    ((revokeOne h d saved).2.1.active = h.active ∨ (saved = true ∧ activeId h = some d)) ∧
    ∀ r ∈ h.registrations, activeId h = some r.1 → r ∈ (revokeOne h d saved).2.1.registrations := by
  unfold revokeOne
  split
  · exact ⟨Or.inl rfl, fun _ hr _ => hr⟩
  · exact ⟨Or.inl rfl, fun _ hr _ => hr⟩
  · next entry store hrev =>
    dsimp only
    split
    · next hlive =>
      rw [idleUnlessStopped_eq]
      exact ⟨Or.inr ⟨revoke_saved hrev, eq_of_beq hlive⟩, fun _ hr _ => hr⟩
    · next hlive =>
      refine ⟨Or.inl rfl, fun r hr ha => List.mem_filter.mpr ⟨hr, ?_⟩⟩
      rw [Bool.not_eq_true']
      by_contra hx
      rw [Bool.not_eq_false, beq_iff_eq] at hx
      refine hlive (beq_iff_eq.mpr ?_)
      rw [ha, hx]

/-- The loop over the revoked ids leaves the claim and the active device's loop alone. -/
theorem removeRevoked_spares (active : Option DeviceId) (h : HostState) (ids : List DeviceId) :
    (removeRevoked active h ids).1.active = h.active ∧
    ∀ r ∈ h.registrations, active = some r.1 → r ∈ (removeRevoked active h ids).1.registrations := by
  induction ids generalizing h with
  | nil => exact ⟨rfl, fun _ hr _ => hr⟩
  | cons x rest ih =>
    unfold removeRevoked
    split
    · exact ih h
    · next hne =>
      obtain ⟨hactive, hregs⟩ := ih (removeRegistration h x).1
      refine ⟨hactive, fun r hr ha => hregs r (List.mem_filter.mpr ⟨hr, ?_⟩) ha⟩
      rw [Bool.not_eq_true']
      by_contra hx
      rw [Bool.not_eq_false, beq_iff_eq] at hx
      refine hne (beq_iff_eq.mpr ?_)
      rw [ha, hx]

theorem revokeDevice_all {store store' : DeviceStore} {request : RevokeDevice}
    {saved rotated : Bool} {result : RevokeResult}
    (h : revokeDevice store request saved rotated = (.ok result, store')) :
    result.all = false ∨
      (request.deviceId = none ∧ request.all = some true ∧ saved = true ∧ rotated = true) := by
  unfold revokeDevice at h
  split at h
  · next hnone hall =>
    split at h
    · cases (Prod.mk.inj h).1
    · next cleared store'' hc =>
      split at h
      · next hrot => exact Or.inr ⟨hnone, eq_of_beq hall, (clearAll_some hc).1, hrot⟩
      · cases (Prod.mk.inj h).1
  · split at h
    · cases (Prod.mk.inj h).1
    · obtain ⟨hres, -⟩ := Prod.mk.inj h
      obtain rfl := Except.ok.inj hres
      exact Or.inl rfl
  · cases (Prod.mk.inj h).1

theorem wireRevoke_spares (h : HostState) (request : RevokeDevice) (saved rotated : Bool)
    (loaded : Option Keypair) :
    (wireRevoke h request saved rotated loaded).2.1.active = h.active ∧
    ((request.deviceId = none ∧ request.all = some true ∧ saved = true ∧ rotated = true) ∨
      ∀ r ∈ h.registrations, activeId h = some r.1 →
        r ∈ (wireRevoke h request saved rotated loaded).2.1.registrations) := by
  unfold wireRevoke
  split
  · exact ⟨rfl, Or.inr fun _ hr _ => hr⟩
  · next result store hrev =>
    dsimp only
    unfold finishWireRevoke
    split
    · next hall =>
      dsimp only
      rw [closePairing_eq]
      refine ⟨rfl, Or.inl ((revokeDevice_all hrev).resolve_left ?_)⟩
      rw [hall]
      decide
    · obtain ⟨hactive, hregs⟩ := removeRevoked_spares (activeId h)
        { h with store := store, registry := h.registry.closeForRevocation result } result.revoked
      exact ⟨hactive, Or.inr hregs⟩

theorem gentle (h : step s e = some s') (he : Event.revokes e = true) (hs : Spares s e) :
    Gentle s s'.host := by
  cases e with
  | advance time => cases he
  | task t a => cases he
  | control c =>
    obtain ⟨-, hc⟩ := step_control h
    cases c with
    | revoke d saved =>
      obtain rfl := Option.some.inj hc
      obtain ⟨hactive, hregs⟩ := revokeOne_spares s.host d saved
      refine ⟨?_, fun x t hx _ hmem => hregs (x, t) hmem hx⟩
      intro a ha hkind
      rcases hactive with hsame | ⟨hsaved, hid⟩
      · exact hsame.trans ha
      · exact absurd ⟨a, ha, hkind⟩ (hs hsaved hid)
    | revokeAll saved rotated =>
      obtain rfl := Option.some.inj hc
      cases saved with
      | false => exact ⟨fun _ ha _ => ha, fun _ _ _ _ hmem => hmem⟩
      | true =>
        obtain ⟨hholds, hloop⟩ := hs rfl
        exact ⟨fun a ha hkind => absurd ⟨a, ha, hkind⟩ hholds,
          fun d t hd hl hmem => absurd ⟨d, t, hd, hl, hmem⟩ hloop⟩
    | status => cases he
    | openPairing minted => cases he
    | closePairing => cases he
    | stop => cases he
  | wire request saved rotated loaded =>
    have heq : s' = { s with host := (wireRevoke s.host request saved rotated loaded).2.1 }.abort
      (wireRevoke s.host request saved rotated loaded).2.2 := (Option.some.inj h).symm
    obtain ⟨hactive, hregs⟩ := wireRevoke_spares s.host request saved rotated loaded
    rw [heq]
    refine ⟨fun a ha _ => hactive.trans ha, ?_⟩
    intro d t hd hl hmem
    rcases hregs with ⟨hnone, hall, hsaved, hrotated⟩ | hkept
    · exact absurd ⟨d, t, hd, hl, hmem⟩ (hs hnone hall hsaved hrotated)
    · exact hkept (d, t) hmem hd

/-- A new pairing loop aims at nothing yet. -/
theorem Looped.pair (hi : Looped s) (hbeyond : (s.task s.made).pc = .ended) (hstarted : (s.task 0).pc = .ended) :
    Looped (s.spawn (.new .pairing .start none)) := by
  have hback : ∀ d t, LoopOf (s.spawn (.new .pairing .start none)) d t →
      LoopOf s d t := by
    rintro d t ⟨hlt, hkind, hd, hpc, haborted⟩
    by_cases ht : t = s.made
    · subst ht
      rw [spawn_self] at hkind
      cases hkind
    · rw [spawn_ne s _ ht] at hkind hd hpc haborted
      exact ⟨Nat.lt_of_le_of_ne (Nat.le_of_lt_succ hlt) ht, hkind, hd, hpc, haborted⟩
  have haims : ∀ t, aims ((s.spawn (.new .pairing .start none)).task t) ≠ [] →
      (s.spawn (.new .pairing .start none)).task t = s.task t := by
    intro t h
    refine spawn_ne s _ ?_
    rintro rfl
    rw [spawn_self] at h
    exact h rfl
  refine ⟨Nat.succ_pos _, ?started, ?startup, ?nodup, ?holds, ?apart, ?clear, ?mapped, ?single⟩
  case started =>
    intro t _
    rw [spawn_ne s _ (Nat.ne_of_lt hi.first)]
    exact hstarted
  case startup =>
    intro t rest hkind
    by_cases ht : t = s.made
    · subst ht
      rw [spawn_self] at hkind
      cases hkind
    · rw [spawn_ne s _ ht] at hkind ⊢
      exact hi.startup t rest hkind
  case nodup =>
    intro t
    by_cases ht : t = s.made
    · subst ht
      rw [spawn_self]
      exact List.nodup_nil
    · rw [spawn_ne s _ ht]
      exact hi.nodup t
  case holds =>
    intro t hkind ha
    have hsame := haims t ha
    rw [hsame] at hkind ha
    exact hi.holds t hkind ha
  case apart =>
    intro t hkind ha u hg hh
    have hsame := haims t ha
    rw [hsame] at hkind ha hh
    have hu : u ≠ s.made := by
      rintro rfl
      rw [spawn_self] at hg
      cases hg
    rw [spawn_ne s _ hu] at hg hh
    exact hi.apart t hkind ha u hg hh
  case clear =>
    intro t d u hd hloop
    have hsame := haims t (List.ne_nil_of_mem hd)
    rw [hsame] at hd ⊢
    exact hi.clear t d u hd (hback d u hloop)
  case mapped =>
    intro d t hloop
    rcases hi.mapped d t (hback d t hloop) with hmem | ⟨v, hv⟩
    · exact Or.inl hmem
    · have hne : v ≠ s.made := by
        rintro rfl
        cases hbeyond.symm.trans hv
      refine Or.inr ⟨v, ?_⟩
      rw [spawn_ne s _ hne]
      exact hv
  case single =>
    exact fun d t u ht hu => hi.single d t u (hback d t ht) (hback d u hu)

theorem Looped.abort (hi : Looped s) (ids : List TaskId) : Looped (s.abort ids) := by
  refine hi.keep rfl (fun u => carries_abort ids (Carries.refl _))
    (fun u => guards_kept (kept_abort ids (Kept.refl _))) rfl rfl ?_
  intro v d u h
  rw [abort_task]
  exact h

theorem Looped.step (hi : Looped s) (hf : Fine s) (h : Tasks.step s e = some s')
    (hs : Spares s e) : Looped s' := by
  have hgentle := fun he => gentle h he hs
  cases step_stepped h with
  | advance time =>
    exact ⟨hi.first, hi.started, hi.startup, hi.nodup, hi.holds, hi.apart, hi.clear, hi.mapped,
      hi.single⟩
  | moved t a s' ht hm => exact hi.moved hf ht hm
  | quiet c host ids hq => exact (hi.quiet hq).abort ids
  | opened handle host ids hstarted hnew hopen =>
    cases hopen with
    | opened handle host ids store active registry registrations stopped stopTx link pairing =>
      have hhost : Looped { s with
          host := host, owner := Function.update s.owner handle (some none) } :=
        hi.keep rfl (fun _ => Carries.refl _) (fun _ hg => ⟨hg, rfl⟩) registrations active
          fun _ _ _ h => h
      exact (hhost.pair (hf.owned.beyond s.made (Nat.le_refl _)) hstarted).abort ids
  | revoked e host ids he hr => exact hi.revoke hr (hgentle he)
  | failed request saved rotated loaded hfail =>
    have hempty : Looped { s with host := { s.host with store := .empty } } :=
      hi.keep rfl (fun _ => Carries.refl _) (fun _ hg => ⟨hg, rfl⟩) rfl rfl fun _ _ _ h => h
    exact hempty.abort []
  | stop =>
    exact hi.keep rfl (fun _ => Carries.refl _) (fun _ hg => ⟨hg, rfl⟩) rfl rfl fun _ _ _ h => h

theorem looped_start (saved : SavedList) (keypair : Keypair) : Looped (.start saved keypair) := by
  have hnone : ∀ d t, ¬LoopOf (.start saved keypair) d t := by
    rintro d t ⟨-, hkind, -, -, -⟩
    obtain ⟨rest, hstartup⟩ := start_kind saved keypair t
    cases hstartup.symm.trans hkind
  have hpairing : ∀ t, ((System.start saved keypair).task t).kind ≠ .pairing := by
    intro t hkind
    obtain ⟨rest, hstartup⟩ := start_kind saved keypair t
    cases hstartup.symm.trans hkind
  refine ⟨Nat.one_pos, ?started, ?startup, ?nodup, ?holds, ?apart, ?clear, ?mapped, ?single⟩
  case started =>
    exact fun t h => absurd h (hpairing t)
  case startup =>
    intro t rest hkind
    by_cases h : t = 0
    · exact Or.inl h
    · rw [start_ne saved keypair h]
      exact Or.inr rfl
  case nodup =>
    intro t
    by_cases h : t = 0
    · subst h
      rw [start_zero]
      have hnodup : (saved.store.devices.map PairedDevice.deviceId).Nodup :=
        List.pairwise_map.mpr saved.store.oneEntry
      obtain ⟨rest, pc, hs, hpc⟩ := startup_cases (saved.store.devices.map PairedDevice.deviceId)
      rw [hs]
      rcases hpc with ⟨rfl, -⟩ | ⟨d, rfl, hids⟩
      · exact List.nodup_nil
      · rw [hids] at hnodup
        exact hnodup
    · rw [start_ne saved keypair h]
      exact List.nodup_nil
  case holds =>
    exact fun t h => absurd h (hpairing t)
  case apart =>
    exact fun t h => absurd h (hpairing t)
  case clear =>
    exact fun t d u _ h => absurd h (hnone d u)
  case mapped =>
    exact fun d t h => absurd h (hnone d t)
  case single =>
    exact fun d t _ h => absurd h (hnone d t)

theorem looped_run {saved : SavedList} {keypair : Keypair} {es : List Event}
    (hspares : ∀ s e s', Occurs step (.start saved keypair) es s e s' → Spares s e)
    (hv : Visits step (.start saved keypair) es s) : Looped s := by
  have hboth : Fine s ∧ Looped s := by
    refine visits_invariant (fun s => Fine s ∧ Looped s)
      ⟨fine_start saved keypair, looped_start saved keypair⟩ ?_ hv
    intro s e s' hi ho
    exact ⟨hi.1.step ho.step_eq, hi.2.step hi.1 ho.step_eq (hspares s e s' ho)⟩
  exact hboth.2

/-- A revocation aborts the loop of the device it removes, unless the device is the active
one, whose session it closes, or the loop is not in the map yet. -/
theorem removed_aborts (hi : Looped s) (h : Stepped s e s')
    (hrot : Event.clearsAndFails e = false) (hr : Removed s s' d) (hloop : LoopOf s d t) :
    (s'.task t).aborted = true ∨ activeId s.host = some d ∨ ∃ u, (s.task u).pc = .spawned d t := by
  obtain ⟨host, ids, rfl, hrevoked⟩ := removed_revoked h hrot hr
  have hgone : host.store.find d = none := hr.2
  rw [abort_task]
  rcases hi.mapped d t hloop with hmem | hhand
  · cases hrevoked with
    | nothing host hh =>
      rw [hh] at hgone
      exact absurd hr.1 (by rw [hgone]; decide)
    | one x host ids found store registry active loops openPairing stopped stopTx =>
      obtain rfl := removed_one store hr.1 hgone
      generalize host.registrations = after at loops
      cases loops with
      | spared ha => exact Or.inr (Or.inl ha)
      | aborted ha =>
        refine Or.inl (Bool.or_eq_true_iff.mpr (Or.inr (decide_eq_true ?_)))
        exact List.mem_map.mpr ⟨(x, t), List.mem_filter.mpr ⟨hmem, beq_self_eq_true x⟩, rfl⟩
    | every revoked host ids store registry active registrations loops openPairing stopped stopTx =>
      by_cases hactive : some d = activeId s.host
      · exact Or.inr (Or.inl hactive.symm)
      · exact Or.inl (Bool.or_eq_true_iff.mpr (Or.inr (decide_eq_true (loops d t hmem hactive))))
  · exact Or.inr (Or.inr hhand)

/-- In every run whose revocations spare the loops that go on there is at most one loop for
each device and each handle, the map has its handle, and a revocation aborts it. -/
theorem one_loop_each (saved : SavedList) (keypair : Keypair) (es : List Event)
    (hspares : ∀ s e s', Occurs step (.start saved keypair) es s e s' → Spares s e) :
    (∀ s, Visits step (.start saved keypair) es s → ∀ d t u, LoopOf s d t → LoopOf s d u →
      t = u) ∧
    (∀ s, Visits step (.start saved keypair) es s → ∀ d t d' u, LoopOf s d t → LoopOf s d' u →
      (s.task t).pc ≠ .start → (s.task u).pc ≠ .start → (s.task t).handle = (s.task u).handle →
      t = u) ∧
    (∀ s, Visits step (.start saved keypair) es s → ∀ d t, LoopOf s d t →
      (d, t) ∈ s.host.registrations ∨ ∃ u, (s.task u).pc = .spawned d t) ∧
    (∀ s e s', Occurs step (.start saved keypair) es s e s' →
      Event.clearsAndFails e = false → ∀ d t, Removed s s' d → LoopOf s d t →
      (s'.task t).aborted = true ∨ activeId s.host = some d ∨
        ∃ u, (s.task u).pc = .spawned d t) := by
  refine ⟨?_, ?_, ?_, ?_⟩
  · intro s hv d t u ht hu
    exact (looped_run hspares hv).single d t u ht hu
  · intro s hv d t d' u ht hu hpc hpc' hsame
    have howned := (fine_run hv).owned
    have hd := (howned.known t).owned d ht.2.2.1 hpc ht.2.2.2.1
    have hd' := (howned.known u).owned d' hu.2.2.1 hpc' hu.2.2.2.1
    rw [hsame, hd'] at hd
    obtain rfl := Option.some.inj (Option.some.inj hd)
    exact (looped_run hspares hv).single d' t u ht hu
  · intro s hv d t hloop
    exact (looped_run hspares hv).mapped d t hloop
  · intro s e s' ho hrot d t hr hloop
    exact removed_aborts (looped_run hspares ho.before) (step_stepped ho.step_eq) hrot hr hloop

/-- The phone is served and revoked with all others, and pairs again before its old loop
comes round. -/
def pairedAgain : List Event :=
  startUp ++ serves 1 ++ [.control (.revokeAll true (some 1)), .control (.openPairing (some 2))] ++
    pairs 2 ['k'] ++ [.task 1 .closed, .task 1 .finish, .task 1 .check, .task 2 .hangUp,
      .task 2 .finish, .task 2 .lookUp, .task 2 .spawn, .task 2 .store]

/-- Two loops serve the phone then, and a revocation of the phone aborts one of them. -/
theorem old_loop_goes_on :
    ∃ s s', run step (.start phone 0) pairedAgain = some s ∧
      LoopOf s ['d'] 1 ∧ LoopOf s ['d'] 3 ∧ (['d'], 1) ∉ s.host.registrations ∧
      step s (.control (.revoke ['d'] true)) = some s' ∧
      (s'.task 3).aborted = true ∧ (s'.task 1).aborted = false := by
  refine ⟨_, _, rfl, ⟨?_, rfl, rfl, ?_, rfl⟩, ⟨?_, rfl, rfl, ?_, rfl⟩, ?_, rfl, rfl, rfl⟩
  all_goals decide

theorem spares_quiet (h : Event.revokes e = false) : Spares s e := by
  cases e with
  | advance time => trivial
  | task t a => trivial
  | control c => cases c <;> trivial
  | wire request saved rotated loaded => cases h

/-- The phone is served, and nobody revokes it. -/
theorem one_loop_each_served :
    ∃ s, run step (.start phone 0) (startUp ++ serves 1) = some s ∧ LoopOf s ['d'] 1 ∧
      ∀ t, LoopOf s ['d'] t → t = 1 := by
  have hquiet : ∀ e ∈ startUp ++ serves 1, Event.revokes e = false := by decide
  have hone := (one_loop_each phone 0 (startUp ++ serves 1) (by
    rintro s e s' ⟨pre, post, hes, -, -⟩
    apply spares_quiet (hquiet e ?_)
    rw [hes]
    exact List.mem_append_right pre List.mem_cons_self)).1
  have hloop : ∃ s, run step (.start phone 0) (startUp ++ serves 1) = some s ∧
      LoopOf s ['d'] 1 := by
    refine ⟨_, rfl, ⟨?_, rfl, rfl, ?_, rfl⟩⟩
    all_goals decide
  obtain ⟨s, hs, h⟩ := hloop
  refine ⟨s, hs, h, ?_⟩
  intro t ht
  exact hone s (visits_end hs) ['d'] t 1 ht h

end HerdrMobile.Bridge.Loops
