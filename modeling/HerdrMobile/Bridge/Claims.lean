import HerdrMobile.Bridge.Owners

/-!
# Who holds the claim

A handle is current while an entry of the list or the open pairing has it. A loop
that is past its claim on a current handle holds the claim, and so does one that
serves a session which was not told to close.
-/
namespace HerdrMobile.Bridge.Claims

open Bridge.Store Bridge.Registry Bridge.Host Bridge.Sections Bridge.Tasks Bridge.Steps
open Bridge.Owners

set_option autoImplicit false

variable {s s' : System} {t u : TaskId} {d : DeviceId} {id : SessionId} {pc : Pc} {τ τ' : Task}
  {handle : Handle} {e : Event} {r r' : SessionRegistry} {reason : CloseState}
  {out : RegisteredSession → Bool}

def Current (h : HostState) (handle : Handle) : Prop :=
  (∃ e ∈ h.store.devices, e.handle = some handle) ∨ pairingHandle h = some handle

/-- The task serves session `id`, which was not told to close. -/
def Serves (s : System) (t : TaskId) (id : SessionId) : Prop :=
  (s.task t).running = some id ∧ s.host.registry.closes id = .waiting

def Holds (s : System) (t : TaskId) : Prop := ∃ a, s.host.active = some a ∧ a.claimant = t

/-- The sessions that run are registered, each under one task. -/
structure Sessions (s : System) : Prop where
  numbered : ∀ t id, (s.task t).running = some id → id < s.host.registry.made
  registered : ∀ t id, Serves s t id → ∃ d, (s.task t).deviceId = some d ∧
    ⟨(s.task t).handle, some d, id⟩ ∈ s.host.registry.sessions
  alone : ∀ t u id, (s.task t).running = some id → (s.task u).running = some id → t = u

structure Claimed (s : System) : Prop where
  holds : ∀ a, s.host.active = some a → (s.task a.claimant).guard = true ∧
    (s.task a.claimant).handle = a.handle ∧ (s.task a.claimant).deviceId = a.deviceId
  current : ∀ t, (s.task t).guard = true → Current s.host (s.task t).handle → Holds s t
  serves : ∀ t id, Serves s t id → Holds s t
  apart : ∀ t id, Serves s t id → ∀ u, (s.task u).guard = true →
    (s.task u).handle = (s.task t).handle → u = t

theorem Holds.unique (ht : Holds s t) (hu : Holds s u) : t = u := by
  obtain ⟨a, ha, rfl⟩ := ht
  obtain ⟨b, hb, rfl⟩ := hu
  rw [ha] at hb
  rw [Option.some.inj hb]

def Same (τ τ' : Task) : Prop :=
  τ'.deviceId = τ.deviceId ∧ τ'.hostId = τ.hostId ∧ τ'.handle = τ.handle

/-- The session the task runs is one it ran before, of the same device. -/
def Runs (τ τ' : Task) : Prop :=
  ∀ id, τ'.running = some id → τ.running = some id ∧ Same τ τ'

/-- And so is the claim it is past. -/
structure Kept (τ τ' : Task) : Prop where
  runs : Runs τ τ'
  guards : τ'.guard = true → τ.guard = true ∧ Same τ τ'

theorem Kept.refl (τ : Task) : Kept τ τ :=
  ⟨fun _ h => ⟨h, rfl, rfl, rfl⟩, fun h => ⟨h, rfl, rfl, rfl⟩⟩

theorem not_free_guard (h : τ.guard = true) : Pc.free τ.pc = false := by
  cases hfree : Pc.free τ.pc with
  | false => rfl
  | true =>
    rw [guard_free hfree] at h
    cases h

theorem kept_free (h : Pc.free τ'.pc = true) : Kept τ τ' := by
  constructor
  · intro id hid
    rw [running_free h] at hid
    cases hid
  · intro hguard
    rw [guard_free h] at hguard
    cases hguard

theorem kept_follows (hf : Follows τ τ') : Kept τ τ' where
  runs := fun id h => ⟨hf.running id h, hf.deviceId, hf.hostId, hf.handle⟩
  guards := fun h => ⟨hf.guard ▸ h, hf.deviceId, hf.hostId, hf.handle⟩

theorem runs_set (h : Runs (s.task t) τ) (u : TaskId) : Runs (s.task u) ((s.set t τ).task u) := by
  by_cases heq : u = t
  · subst heq
    rw [set_self]
    exact h
  · rw [set_ne s τ heq]
    exact (Kept.refl _).runs

theorem kept_set (h : Kept (s.task t) τ) (u : TaskId) : Kept (s.task u) ((s.set t τ).task u) := by
  by_cases heq : u = t
  · subst heq
    rw [set_self]
    exact h
  · rw [set_ne s τ heq]
    exact Kept.refl _

theorem runs_abort (ids : List TaskId) (h : Runs τ (s.task u)) :
    Runs τ ((s.abort ids).task u) := by
  rw [abort_task]
  exact h

theorem kept_abort (ids : List TaskId) (h : Kept τ (s.task u)) :
    Kept τ ((s.abort ids).task u) := by
  rw [abort_task]
  exact ⟨h.runs, h.guards⟩

theorem free_gone (hpc : pc = .top ∨ pc = .ended) : Pc.free pc = true := by
  rcases hpc with rfl | rfl
  · rfl
  · rfl

theorem kept_drop (hpc : pc = .top ∨ pc = .ended) (u : TaskId) :
    Kept (s.task u) ((s.drop t pc).task u) := by
  have hfree : Kept (s.task t) { s.task t with pc := pc } := kept_free (free_gone hpc)
  unfold System.drop
  split
  · exact kept_set (s := { s with host := releaseActive s.host (s.task t).handle }) hfree u
  · exact kept_set hfree u

theorem drop_pc (s : System) (t : TaskId) (pc : Pc) : ((s.drop t pc).task t).pc = pc := by
  unfold System.drop
  split
  · rw [goto_self]
  · rw [goto_self]

theorem kept_spawn (hτ : Pc.free τ.pc = true) (u : TaskId) :
    Kept (s.task u) ((s.spawn τ).task u) := by
  by_cases h : u = s.made
  · subst h
    rw [spawn_self]
    exact kept_free hτ
  · rw [spawn_ne s τ h]
    exact Kept.refl _

/-- No channel comes to wait, and the entry of a channel that waits has stayed. -/
structure Fewer (r r' : SessionRegistry) : Prop where
  made : r'.made = r.made
  waiting : ∀ id, r'.closes id = .waiting → r.closes id = .waiting
  entry : ∀ session ∈ r.sessions, r'.closes session.close = .waiting → session ∈ r'.sessions

theorem Fewer.refl (r : SessionRegistry) : Fewer r r := ⟨rfl, fun _ h => h, fun _ h _ => h⟩

theorem fewer_remove (hr : reason ≠ .waiting) : Fewer r (r.remove out reason) where
  made := rfl
  waiting := fun _ h => (waiting_remove hr h).1
  entry := fun _ hs h => kept_of_waiting hr hs h

theorem Serves.back (h : Serves s' t id) (hk : Runs (s.task t) (s'.task t))
    (hr : Fewer s.host.registry s'.host.registry) : Serves s t id :=
  ⟨(hk id h.1).1, hr.waiting id h.2⟩

theorem Sessions.fewer (hi : Sessions s) (hk : ∀ u, Runs (s.task u) (s'.task u))
    (hr : Fewer s.host.registry s'.host.registry) : Sessions s' where
  numbered := by
    intro t id h
    rw [hr.made]
    exact hi.numbered t id (hk t id h).1
  registered := by
    intro t id h
    obtain ⟨d, hd, hmem⟩ := hi.registered t id (h.back (hk t) hr)
    obtain ⟨-, hdevice, -, hhandle⟩ := hk t id h.1
    refine ⟨d, hdevice.trans hd, ?_⟩
    rw [hhandle]
    exact hr.entry _ hmem h.2
  alone := fun t u id ht hu => hi.alone t u id (hk t id ht).1 (hk u id hu).1

/-- Where no handle becomes current and no claim is taken, the claim is kept as long as
its task needs it. -/
theorem Claimed.fewer (hi : Claimed s) (hk : ∀ u, Kept (s.task u) (s'.task u))
    (hr : Fewer s.host.registry s'.host.registry)
    (hcurrent : ∀ handle, Current s'.host handle → Current s.host handle)
    (hactive : ∀ a, s'.host.active = some a → s.host.active = some a ∧
      (s'.task a.claimant).guard = true)
    (hkept : ∀ a, s.host.active = some a →
      ((s'.task a.claimant).guard = true ∧ Current s'.host a.handle ∨
        ∃ id, Serves s' a.claimant id) → s'.host.active = some a) : Claimed s' where
  holds := by
    intro a ha
    obtain ⟨ha', hguard⟩ := hactive a ha
    obtain ⟨-, hhandle, hdevice⟩ := hi.holds a ha'
    obtain ⟨-, hd, -, hh⟩ := (hk a.claimant).guards hguard
    exact ⟨hguard, hh.trans hhandle, hd.trans hdevice⟩
  current := by
    intro t hguard hcur
    obtain ⟨hguard', -, -, hh⟩ := (hk t).guards hguard
    rw [hh] at hcur
    obtain ⟨a, ha, rfl⟩ := hi.current t hguard' (hcurrent _ hcur)
    rw [(hi.holds a ha).2.1] at hcur
    exact ⟨a, hkept a ha (Or.inl ⟨hguard, hcur⟩), rfl⟩
  serves := by
    intro t id h
    obtain ⟨a, ha, rfl⟩ := hi.serves t id (h.back (hk t).runs hr)
    exact ⟨a, hkept a ha (Or.inr ⟨id, h⟩), rfl⟩
  apart := by
    intro t id h u hguard hhandle
    obtain ⟨-, -, -, ht⟩ := (hk t).runs id h.1
    obtain ⟨hguard', -, -, hu⟩ := (hk u).guards hguard
    refine hi.apart t id (h.back (hk t).runs hr) u hguard' ?_
    rw [← hu, ← ht]
    exact hhandle

theorem fewer_quiet {host : HostState} (hq : Quiet s.host host) :
    Fewer s.host.registry host.registry := by
  rw [hq.registry]
  exact Fewer.refl _

theorem fewer_drop (s : System) (t : TaskId) (pc : Pc) :
    Fewer s.host.registry (s.drop t pc).host.registry := by
  unfold System.drop
  split
  · show Fewer s.host.registry (releaseActive s.host (s.task t).handle).registry
    rw [(releaseActive_rest s.host (s.task t).handle).2.2.1]
    exact fewer_remove (by decide)
  · exact Fewer.refl _

/-- A session starts: its number is new, and its entry stands in the registry. -/
theorem Sessions.enter (hi : Sessions s) (hd : (s.task t).deviceId = some d) :
    Sessions ({ s with host := { s.host with
      registry := (s.host.registry.register (s.task t).handle (some d)).2 } }.goto t
        (.joined s.host.registry.made)) := by
  have hself : ∀ id, (({ s.task t with pc := .joined s.host.registry.made } : Task)).running =
      some id → id = s.host.registry.made := fun id h => (Option.some.inj h).symm
  have hfewer : Fewer s.host.registry (s.host.registry.remove
      (fun session => session.handle == (s.task t).handle) .dropped) := fewer_remove (by decide)
  refine ⟨?_, ?_, ?_⟩
  · intro u id h
    by_cases heq : u = t
    · subst heq
      rw [goto_self] at h
      rw [hself id h]
      exact Nat.lt_succ_self _
    · rw [goto_ne _ _ heq] at h
      exact Nat.lt_succ_of_lt (hi.numbered u id h)
  · intro u id h
    obtain ⟨hrun, hwaits⟩ := h
    by_cases heq : u = t
    · subst heq
      rw [goto_self] at hrun ⊢
      rw [hself id hrun]
      exact ⟨d, hd, List.mem_cons_self⟩
    · rw [goto_ne _ _ heq] at hrun ⊢
      obtain ⟨d', hd', hmem⟩ := hi.registered u id ⟨hrun, hfewer.waiting id hwaits⟩
      exact ⟨d', hd', List.mem_cons_of_mem _ (hfewer.entry _ hmem hwaits)⟩
  · intro u v id hu hv
    by_cases hut : u = t
    · by_cases hvt : v = t
      · rw [hut, hvt]
      · subst hut
        rw [goto_self] at hu
        rw [goto_ne _ _ hvt] at hv
        have hlt := hi.numbered v id hv
        rw [hself id hu] at hlt
        exact absurd hlt (Nat.lt_irrefl _)
    · rw [goto_ne _ _ hut] at hu
      by_cases hvt : v = t
      · subst hvt
        rw [goto_self] at hv
        have hlt := hi.numbered u id hu
        rw [hself id hv] at hlt
        exact absurd hlt (Nat.lt_irrefl _)
      · rw [goto_ne _ _ hvt] at hv
        exact hi.alone u v id hu hv

/-- A task that moves starts no session, and it removes no device from the list. -/
structure Proceeds (s : System) (t : TaskId) (s' : System) : Prop where
  runs : ∀ u, Runs (s.task u) (s'.task u)
  registry : Fewer s.host.registry s'.host.registry
  listed : ∀ d, (s.host.store.find d).isSome → (s'.host.store.find d).isSome
  store : s'.host.store = s.host.store ∨ ((s.task t).guard = true ∧ (s.task t).running = none ∧
    pairingHandle s.host = some (s.task t).handle)

theorem proceeds_still (hk : ∀ u, Runs (s.task u) (s'.task u))
    (hr : Fewer s.host.registry s'.host.registry) (hs : s'.host.store = s.host.store) :
    Proceeds s t s' :=
  ⟨hk, hr, fun _ h => by rw [hs]; exact h, Or.inl hs⟩

theorem drop_store (s : System) (t : TaskId) (pc : Pc) :
    (s.drop t pc).host.store = s.host.store := by
  unfold System.drop
  split
  · exact (releaseActive_rest s.host (s.task t).handle).1
  · rfl

theorem add_listed {entry : PairedDevice} {store store' : DeviceStore}
    (ha : store.add entry true = some store') (h : (store.find d).isSome) :
    (store'.find d).isSome := by
  obtain ⟨x, hx⟩ := Option.isSome_iff_exists.mp h
  obtain ⟨hmem, rfl⟩ := find_some hx
  by_cases heq : x.deviceId = entry.deviceId
  · have hentry : entry ∈ store'.devices := ((add_some ha).2 entry).mpr (Or.inr rfl)
    rw [heq, find_of_mem hentry]
    rfl
  · have hkept : x ∈ store'.devices := ((add_some ha).2 x).mpr (Or.inl ⟨hmem, heq⟩)
    rw [find_of_mem hkept]
    rfl

/-- A move of a task starts a session, or it does not. -/
theorem moved_proceeds (hm : Moved s t s') : Proceeds s t s' ∨
    ∃ d e, (s.task t).deviceId = some d ∧ s.host.store.find d = some e ∧
      e.hostId = (s.task t).hostId ∧ e.handle = some (s.task t).handle ∧
      s' = { s with host := { s.host with
        registry := (s.host.registry.register (s.task t).handle (some d)).2 } }.goto t
          (.joined s.host.registry.made) := by
  cases hm with
  | entered d e hpc hd hrun hfind hid hhandle => exact Or.inr ⟨d, e, hd, hfind, hid, hhandle, rfl⟩
  | goes host τ hq hf heard hand haims =>
    exact Or.inl (proceeds_still (fun u => (kept_set (kept_follows hf) u).runs) (fewer_quiet hq)
      hq.store)
  | drops host pc hq hpc hand halive hstart htop =>
    refine Or.inl (proceeds_still (fun u => (kept_drop hpc u).runs) ?_ ?_)
    · rw [← hq.registry]
      exact fewer_drop { s with host := host } t pc
    · rw [drop_store]
      exact hq.store
  | began τ hstart hkind hdevice haborted hpc hhandle =>
    have hfree : Pc.free τ.pc = true := free_begun hpc
    exact Or.inl (proceeds_still (fun u => (kept_set (kept_free hfree) u).runs) (Fewer.refl _) rfl)
  | looked τ hpc hkind hkind' hdevice haborted hpc' hhandle =>
    have hfree : Pc.free τ.pc = true := by
      rw [hpc']
      rfl
    exact Or.inl (proceeds_still (fun u => (kept_set (kept_free hfree) u).runs) (Fewer.refl _) rfl)
  | destroyed ids hpc hkind =>
    exact Or.inl (proceeds_still (fun u => runs_abort ids (kept_set (kept_free rfl) u).runs)
      (Fewer.refl _) rfl)
  | claimed hpc hfree hrun =>
    refine Or.inl (proceeds_still (fun u => runs_set ?_ u) (Fewer.refl _) rfl)
    intro id hid
    cases (show none = some id from hid)
  | enrolFailed d τ hpc hkind hopen hf hpc' =>
    exact Or.inl (proceeds_still (fun u => runs_abort _ (kept_set (kept_follows hf) u).runs)
      (Fewer.refl _) rfl)
  | enrolled d entry store τ hpc hkind hentry hopen hstore hτ =>
    refine Or.inl ⟨fun u => runs_abort _ (runs_set ?_ u), Fewer.refl _, fun _ => add_listed hstore,
      Or.inr ⟨?_, ?_, hopen⟩⟩
    · intro id hid
      unfold Task.running at hid
      rw [hτ.1] at hid
      cases hid
    · unfold Task.guard
      rw [hkind, hpc]
    · unfold Task.running
      rw [hpc]
  | spawned d hpc =>
    refine Or.inl (proceeds_still (fun u => ?_) (Fewer.refl _) rfl)
    have hspawn := (kept_spawn (s := s) (τ := .new .registration .start (some d)) rfl u).runs
    by_cases h : u = t
    · subst h
      rw [goto_self]
      intro id hid
      cases (show none = some id from hid)
    · rw [goto_ne _ _ h]
      exact hspawn
  | stored d u τ hpc hf hand hrun haims =>
    exact Or.inl (proceeds_still (fun u => (kept_set (kept_follows hf) u).runs) (Fewer.refl _) rfl)
  | storedDrops d u pc hpc hpc' htop =>
    refine Or.inl (proceeds_still (fun u => (kept_drop hpc' u).runs) (fewer_drop { s with
      host := { s.host with
        registrations := (d, u) :: s.host.registrations.filter fun r => !(r.1 == d) } } t pc) ?_)
    rw [drop_store]

theorem Sessions.moved (hi : Sessions s) (hm : Moved s t s') : Sessions s' := by
  rcases moved_proceeds hm with hp | ⟨d, e, hd, -, -, -, rfl⟩
  · exact hi.fewer hp.runs hp.registry
  · exact hi.enter hd

theorem fewer_revocation {host : HostState} {ids : List TaskId}
    (hr : Revocation s.host host ids) : Fewer s.host.registry host.registry := by
  cases hr with
  | nothing host hh =>
    rw [hh]
    exact Fewer.refl _
  | one d host ids found store registry active loops openPairing stopped stopTx =>
    rw [registry]
    exact fewer_remove (by decide)
  | every revoked host ids store registry active registrations loops openPairing stopped stopTx =>
    rw [registry]
    exact fewer_remove (by decide)

theorem Sessions.stepped (hi : Sessions s) (h : Stepped s e s') : Sessions s' := by
  cases h with
  | advance time => exact ⟨hi.numbered, hi.registered, hi.alone⟩
  | moved t a s' ht hm => exact hi.moved hm
  | quiet c host ids hq =>
    exact hi.fewer (fun u => runs_abort ids (Kept.refl _).runs) (fewer_quiet hq)
  | opened handle host ids hstarted hnew hopen =>
    cases hopen with
    | opened handle host ids store active registry registrations stopped stopTx link pairing =>
      have hspawn : Sessions ({ s with
          host := host, owner := Function.update s.owner handle (some none) }.spawn
            (.new .pairing .start none)) := by
        refine hi.fewer (fun u => (kept_spawn (s := { s with
          host := host, owner := Function.update s.owner handle (some none) }) rfl u).runs) ?_
        show Fewer s.host.registry host.registry
        rw [registry]
        exact Fewer.refl _
      exact hspawn.fewer (fun u => runs_abort ids (Kept.refl _).runs) (Fewer.refl _)
  | revoked e host ids he hr =>
    exact hi.fewer (fun u => runs_abort ids (Kept.refl _).runs) (fewer_revocation hr)
  | failed request saved rotated loaded hfail =>
    exact hi.fewer (fun u => runs_abort [] (Kept.refl _).runs) (Fewer.refl _)
  | stop => exact ⟨hi.numbered, hi.registered, hi.alone⟩

theorem current_fewer {h h' : HostState} (hstore : ∀ e ∈ h'.store.devices, e ∈ h.store.devices)
    (hpairing : ∀ handle, pairingHandle h' = some handle → pairingHandle h = some handle)
    (hc : Current h' handle) : Current h handle := by
  rcases hc with ⟨e, he, hh⟩ | hp
  · exact Or.inl ⟨e, hstore e he, hh⟩
  · exact Or.inr (hpairing handle hp)

theorem current_quiet {h h' : HostState} (hq : Quiet h h') (hc : Current h' handle) :
    Current h handle :=
  current_fewer (fun _ he => hq.store ▸ he) hq.pairing hc

/-- Nothing of the claim changes. -/
theorem Claimed.still (hi : Claimed s) (hk : ∀ u, Kept (s.task u) (s'.task u))
    (hg : ∀ u, (s.task u).guard = true → (s'.task u).guard = true)
    (hr : Fewer s.host.registry s'.host.registry)
    (hcurrent : ∀ handle, Current s'.host handle → Current s.host handle)
    (hactive : s'.host.active = s.host.active) : Claimed s' := by
  refine hi.fewer hk hr hcurrent ?_ ?_
  · intro a ha
    rw [hactive] at ha
    exact ⟨ha, hg _ (hi.holds a ha).1⟩
  · intro a ha _
    rw [hactive]
    exact ha

theorem guards_set (h : (s.task t).guard = true → τ.guard = true) (u : TaskId)
    (hu : (s.task u).guard = true) : ((s.set t τ).task u).guard = true := by
  by_cases heq : u = t
  · subst heq
    rw [set_self]
    exact h hu
  · rw [set_ne s τ heq]
    exact hu

theorem guards_abort (ids : List TaskId) (h : (s.task u).guard = true) :
    ((s.abort ids).task u).guard = true := by
  rw [abort_task]
  exact h

theorem drop_ne (s : System) (pc : Pc) (h : u ≠ t) : (s.drop t pc).task u = s.task u := by
  unfold System.drop
  split
  · exact goto_ne _ pc h
  · exact goto_ne s pc h

theorem current_drop (hc : Current (s.drop t pc).host handle) : Current s.host handle := by
  unfold System.drop at hc
  split at hc
  · have hrest := releaseActive_rest s.host (s.task t).handle
    replace hc : Current (releaseActive s.host (s.task t).handle) handle := hc
    refine current_fewer ?_ ?_ hc
    · rw [hrest.1]
      exact fun _ he => he
    · unfold pairingHandle
      rw [hrest.2.1]
      exact fun _ hh => hh
  · exact hc

/-- A claim that goes out of scope is released. A claim of another task goes with it only
where its handle is not current any more and its session was told to close. -/
theorem Claimed.drop (hi : Claimed s) (hpc : pc = .top ∨ pc = .ended) : Claimed (s.drop t pc) := by
  have hself : ((s.drop t pc).task t).guard = false := by
    refine guard_free ?_
    rw [drop_pc]
    exact free_gone hpc
  have hfewer := fewer_drop s t pc
  cases hguard : (s.task t).guard with
  | false =>
    refine hi.still (kept_drop hpc) ?_ hfewer (fun _ => current_drop) ?_
    · intro u hu
      have hne : u ≠ t := by
        rintro rfl
        rw [hguard] at hu
        cases hu
      rw [drop_ne s pc hne]
      exact hu
    · rw [drop_goto hguard]
      rfl
  | true =>
    have hhost : (s.drop t pc).host = releaseActive s.host (s.task t).handle := by
      rw [drop_release hguard]
      rfl
    rcases releaseActive_cases s.host (s.task t).handle with ⟨a, ha, hh, hr⟩ | ⟨hother, hr⟩
    · refine hi.fewer (kept_drop hpc) hfewer (fun _ => current_drop) ?_ ?_
      · intro b hb
        rw [hhost, hr] at hb
        cases hb
      · intro b hb hneeds
        rw [ha] at hb
        obtain rfl := Option.some.inj hb
        obtain ⟨-, hhandle, -⟩ := hi.holds a ha
        have hclaimant : a.claimant = t := by
          rcases hneeds with ⟨-, hc⟩ | ⟨id, hserves⟩
          · rw [hh] at hc
            exact Holds.unique ⟨a, ha, rfl⟩ (hi.current t hguard (current_drop hc))
          · have hback := hserves.back ((kept_drop hpc a.claimant).runs) hfewer
            exact (hi.apart a.claimant id hback t hguard (hh.symm.trans hhandle.symm)).symm
        rcases hneeds with ⟨hg, -⟩ | ⟨id, hserves⟩
        · rw [hclaimant, hself] at hg
          cases hg
        · rw [hclaimant] at hserves
          have hrun := hserves.1
          rw [running_free (by rw [drop_pc]; exact free_gone hpc)] at hrun
          cases hrun
    · have hactive : (s.drop t pc).host.active = s.host.active := by
        rw [hhost, hr]
      refine hi.fewer (kept_drop hpc) hfewer (fun _ => current_drop) ?_ ?_
      · intro a ha
        rw [hactive] at ha
        obtain ⟨hg, hhandle, -⟩ := hi.holds a ha
        have hne : a.claimant ≠ t := by
          rintro rfl
          exact hother a ha hhandle.symm
        rw [drop_ne s pc hne]
        exact ⟨ha, hg⟩
      · intro a ha _
        rw [hactive]
        exact ha

/-- A task takes the free claim. -/
theorem Claimed.claim (hi : Claimed s) (ho : Owned s) (hpc : (s.task t).pc = .connected)
    (hnone : ∀ u, ¬Holds s u) :
    Claimed ({ s with host := { s.host with
      active := some ⟨(s.task t).deviceId, (s.task t).handle, t⟩
      link := linkConnected } }.goto t .claimed) := by
  have hself : ({ s.task t with pc := .claimed } : Task).guard = true := by
    unfold Task.guard
    cases hkind : (s.task t).kind with
    | registration => rfl
    | pairing => rfl
    | startup rest => exact absurd hkind ((ho.known t).not_startup (by rw [hpc]; rfl) rest)
  have hruns : ∀ u id, Serves ({ s with host := { s.host with
      active := some ⟨(s.task t).deviceId, (s.task t).handle, t⟩
      link := linkConnected } }.goto t .claimed) u id → Serves s u id := by
    rintro u id ⟨hrun, hwaits⟩
    refine ⟨?_, hwaits⟩
    by_cases h : u = t
    · subst h
      rw [goto_self] at hrun
      cases (show none = some id from hrun)
    · rw [goto_ne _ _ h] at hrun
      exact hrun
  refine ⟨?_, ?_, ?_, ?_⟩
  · intro a ha
    obtain rfl := Option.some.inj ha
    rw [goto_self]
    exact ⟨hself, rfl, rfl⟩
  · intro u hguard hc
    by_cases h : u = t
    · exact ⟨_, rfl, h.symm⟩
    · rw [goto_ne _ _ h] at hguard hc
      exact absurd (hi.current u hguard hc) (hnone u)
  · intro u id hserves
    exact absurd (hi.serves u id (hruns u id hserves)) (hnone u)
  · intro u id hserves
    exact absurd (hi.serves u id (hruns u id hserves)) (hnone u)

/-- A session starts on the handle of its entry, so under the claim. -/
theorem Claimed.enter (hi : Claimed s) (ho : Owned s) {e : PairedDevice}
    (hpc : (s.task t).pc = .claimed ∧ (s.task t).kind = .registration ∨ (s.task t).pc = .enrolled)
    (hfind : s.host.store.find d = some e) (hhandle : e.handle = some (s.task t).handle) :
    Claimed ({ s with host := { s.host with
      registry := (s.host.registry.register (s.task t).handle (some d)).2 } }.goto t
        (.joined s.host.registry.made)) := by
  have hstarting : Pc.starting (s.task t).pc = false := starting_entering hpc
  have hguards : (s.task t).guard = true ∧
      ({ s.task t with pc := .joined s.host.registry.made } : Task).guard = true := by
    unfold Task.guard
    cases hkind : (s.task t).kind with
    | registration => rcases hpc with ⟨h, -⟩ | h <;> rw [h] <;> exact ⟨rfl, rfl⟩
    | pairing => rcases hpc with ⟨h, -⟩ | h <;> rw [h] <;> exact ⟨rfl, rfl⟩
    | startup rest => exact absurd hkind ((ho.known t).not_startup hstarting rest)
  have hcur : Current s.host (s.task t).handle := Or.inl ⟨e, (find_some hfind).1, hhandle⟩
  have hholds : Holds s t := hi.current t hguards.1 hcur
  have honly : ∀ u id, Serves ({ s with host := { s.host with
      registry := (s.host.registry.register (s.task t).handle (some d)).2 } }.goto t
        (.joined s.host.registry.made)) u id → u = t := by
    rintro u id ⟨hrun, hwaits⟩
    by_cases h : u = t
    · exact h
    · rw [goto_ne _ _ h] at hrun
      have hback : s.host.registry.closes id = .waiting :=
        (fewer_remove (by decide)).waiting id hwaits
      exact (hi.serves u id ⟨hrun, hback⟩).unique hholds
  refine ⟨?_, ?_, ?_, ?_⟩
  · intro a ha
    by_cases h : a.claimant = t
    · obtain ⟨-, hh, hdevice⟩ := hi.holds a ha
      rw [h] at hh hdevice ⊢
      rw [goto_self]
      exact ⟨hguards.2, hh, hdevice⟩
    · rw [goto_ne _ _ h]
      exact hi.holds a ha
  · intro u hguard hc
    by_cases h : u = t
    · rw [h]
      exact hholds
    · rw [goto_ne _ _ h] at hguard hc
      exact hi.current u hguard hc
  · intro u id hserves
    rw [honly u id hserves]
    exact hholds
  · intro u id hserves v hguard hsame
    rw [honly u id hserves, goto_self] at hsame
    rw [honly u id hserves]
    by_cases h : v = t
    · exact h
    · rw [goto_ne _ _ h] at hguard hsame
      refine (hi.current v hguard ?_).unique hholds
      rw [hsame]
      exact hcur

theorem Claimed.abort (hi : Claimed s) (ids : List TaskId) : Claimed (s.abort ids) :=
  hi.still (fun _ => kept_abort ids (Kept.refl _)) (fun _ => guards_abort ids) (Fewer.refl _)
    (fun _ hc => hc) rfl

/-- The open pairing becomes an entry of the list, and its loop holds the claim. -/
theorem Claimed.enrol (hi : Claimed s) {entry : PairedDevice} {store : DeviceStore}
    (hpc : (s.task t).pc = .claimed) (hkind : (s.task t).kind = .pairing)
    (hentry : entry.handle = some (s.task t).handle)
    (hopen : pairingHandle s.host = some (s.task t).handle)
    (hstore : s.host.store.add entry true = some store)
    (hτ : τ.pc = .enrolled ∧ τ.kind = .pairing ∧ τ.deviceId = some d ∧
      τ.handle = (s.task t).handle) (registrations : List (DeviceId × TaskId))
    (owner : Handle → Option (Option DeviceId)) :
    Claimed ({ s with
      host := { s.host with
        registrations := registrations
        store := store
        openPairing := none
        active := s.host.active.map fun active : ActiveSession =>
          if active.handle == (s.task t).handle then { active with deviceId := some d }
          else active }
      owner := owner }.set t τ) := by
  have hguard : (s.task t).guard = true := by
    unfold Task.guard
    rw [hkind, hpc]
  have hguard' : τ.guard = true := by
    unfold Task.guard
    rw [hτ.1, hτ.2.1]
  have hcur : Current s.host (s.task t).handle := Or.inr hopen
  obtain ⟨a, ha, hclaimant⟩ := hi.current t hguard hcur
  have hhandle : a.handle = (s.task t).handle := by
    rw [← (hi.holds a ha).2.1, hclaimant]
  have hactive : (s.host.active.map fun active : ActiveSession =>
      if active.handle == (s.task t).handle then { active with deviceId := some d } else active) =
      some { a with deviceId := some d } := by
    rw [ha]
    simp [hhandle]
  have hother : ∀ u, Holds s u → u = t := fun u hu => hu.unique ⟨a, ha, hclaimant⟩
  refine ⟨?_, ?_, ?_, ?_⟩
  · intro b hb
    replace hb := hactive.symm.trans hb
    obtain rfl := Option.some.inj hb
    show ((System.set _ t τ).task a.claimant).guard = true ∧ _
    rw [hclaimant, set_self]
    exact ⟨hguard', hτ.2.2.2.trans hhandle.symm, hτ.2.2.1⟩
  · intro u hu hc
    by_cases h : u = t
    · exact ⟨_, hactive, hclaimant.trans h.symm⟩
    · rw [set_ne _ τ h] at hu hc
      refine absurd (hother u (hi.current u hu ?_)) h
      rcases hc with ⟨x, hx, hh⟩ | hp
      · rcases ((add_some hstore).2 x).mp hx with ⟨hmem, -⟩ | rfl
        · exact Or.inl ⟨x, hmem, hh⟩
        · rw [hentry] at hh
          rw [← Option.some.inj hh]
          exact hcur
      · cases hp
  all_goals
    rintro u id ⟨hrun, hwaits⟩
    by_cases h : u = t
    · subst h
      rw [set_self] at hrun
      unfold Task.running at hrun
      rw [hτ.1] at hrun
      cases hrun
    · rw [set_ne _ τ h] at hrun
      exact absurd (hother u (hi.serves u id ⟨hrun, hwaits⟩)) h

/-- The loop of a device is spawned. It holds nothing. -/
theorem Claimed.spawn (hi : Claimed s) (hbeyond : (s.task s.made).pc = .ended)
    (hτ : Pc.free τ.pc = true) : Claimed (s.spawn τ) := by
  refine hi.still (kept_spawn hτ) ?_ (Fewer.refl _) (fun _ hc => hc) rfl
  intro u hu
  have hne : u ≠ s.made := by
    rintro rfl
    rw [guard_free (by rw [hbeyond]; rfl)] at hu
    cases hu
  rw [spawn_ne s τ hne]
  exact hu

theorem guard_spawned (hpc : τ.pc = .usable d) (u : TaskId) :
    ({ τ with pc := .spawned d u } : Task).guard = τ.guard := by
  unfold Task.guard
  rw [hpc]
  cases τ.kind with
  | registration => rfl
  | pairing => rfl
  | startup rest => rfl

theorem Claimed.moved (hi : Claimed s) (ho : Owned s) (ht : t < s.made) (hm : Moved s t s') :
    Claimed s' := by
  cases hm with
  | goes host τ hq hf heard hand haims =>
    exact hi.still (kept_set (kept_follows hf)) (guards_set fun h => hf.guard ▸ h)
      (fewer_quiet hq) (fun _ => current_quiet hq) hq.active
  | drops host pc hq hpc hand halive hstart htop =>
    have hquiet : Claimed { s with host := host } :=
      hi.still (fun u => Kept.refl _) (fun u h => h) (fewer_quiet hq) (fun _ => current_quiet hq)
        hq.active
    exact hquiet.drop hpc
  | began τ hstart hkind hdevice haborted hpc hhandle =>
    have hfree : Pc.free τ.pc = true := free_begun hpc
    have hnot : (s.task t).guard = false := guard_free (by rw [hstart]; rfl)
    refine hi.still (kept_set (kept_free hfree)) (guards_set fun h => ?_) (Fewer.refl _)
      (fun _ hc => hc) rfl
    rw [hnot] at h
    cases h
  | looked τ hpc hkind hkind' hdevice haborted hpc' hhandle =>
    have hfree : Pc.free τ.pc = true := by
      rw [hpc']
      rfl
    have hnot : (s.task t).guard = false := guard_free (by rw [hpc]; rfl)
    refine hi.still (kept_set (kept_free hfree)) (guards_set fun h => ?_) (Fewer.refl _)
      (fun _ hc => hc) rfl
    rw [hnot] at h
    cases h
  | destroyed ids hpc hkind =>
    have hnot : (s.task t).guard = false := guard_free (by rw [hpc]; rfl)
    refine hi.still (fun u => kept_abort ids (kept_set (kept_free rfl) u))
      (fun u h => guards_abort ids (guards_set (fun h => ?_) u h)) (Fewer.refl _)
      (fun _ hc => current_quiet (quiet_closed s.host) hc) rfl
    rw [hnot] at h
    cases h
  | claimed hpc hfree hrun =>
    have hnone : ∀ u, ¬Holds s u := by
      rintro u ⟨a, ha, -⟩
      rw [hfree] at ha
      cases ha
    exact hi.claim ho hpc hnone
  | entered d e hpc hd hrun hfind hid hhandle =>
    exact hi.enter ho hpc hfind hhandle
  | enrolFailed d τ hpc hkind hopen hf hpc' =>
    exact hi.still (fun u => kept_abort _ (kept_set (kept_follows hf) u))
      (fun u h => guards_abort _ (guards_set (fun h => hf.guard ▸ h) u h)) (Fewer.refl _)
      (fun _ hc => hc) rfl
  | enrolled d entry store τ hpc hkind hentry hopen hstore hτ =>
    exact (hi.enrol hpc hkind hentry.2 hopen hstore ⟨hτ.1, hτ.2.1, hτ.2.2.1, hτ.2.2.2.1⟩ _ _).abort _
  | spawned d hpc =>
    have hspawn : Claimed (s.spawn (.new .registration .start (some d))) :=
      hi.spawn (ho.beyond s.made (Nat.le_refl _)) rfl
    have hsame : (s.spawn (.new .registration .start (some d))).task t = s.task t :=
      spawn_ne s _ (Nat.ne_of_lt ht)
    have hguard : ({ s.task t with pc := .spawned d s.made } : Task).guard = (s.task t).guard :=
      guard_spawned hpc s.made
    refine hspawn.still (kept_set ⟨fun id h => ?_, fun h => ?_⟩) (guards_set fun h => ?_)
      (Fewer.refl _) (fun _ hc => hc) rfl
    · cases (show none = some id from h)
    · rw [hsame] at h ⊢
      rw [hguard] at h
      exact ⟨h, rfl, rfl, rfl⟩
    · rw [hsame] at h ⊢
      rw [hguard]
      exact h
  | stored d u τ hpc hf hand hrun haims =>
    exact hi.still (kept_set (kept_follows hf)) (guards_set fun h => hf.guard ▸ h)
      (Fewer.refl _) (fun _ hc => hc) rfl
  | storedDrops d u pc hpc hpc' htop =>
    have hstored : Claimed { s with host := { s.host with
        registrations := (d, u) :: s.host.registrations.filter fun r => !(r.1 == d) } } :=
      hi.still (fun u => Kept.refl _) (fun u h => h) (Fewer.refl _) (fun _ hc => hc) rfl
    exact hstored.drop hpc'

/-- The handle of a claim was minted. -/
theorem guard_minted (ho : Owned s) (hg : (s.task t).guard = true) :
    s.owner (s.task t).handle ≠ none := by
  have hfree := not_free_guard hg
  cases hkind : (s.task t).kind with
  | registration =>
    obtain ⟨d, hd⟩ := Option.ne_none_iff_exists'.mp ((ho.known t).device hkind)
    have hstart : (s.task t).pc ≠ .start := by
      intro h
      rw [h] at hfree
      cases hfree
    have hended : (s.task t).pc ≠ .ended := by
      intro h
      rw [h] at hfree
      cases hfree
    rw [(ho.known t).owned d hd hstart hended]
    exact Option.some_ne_none _
  | pairing =>
    refine (ho.known t).looked hkind ?_
    cases hpc : (s.task t).pc <;> rw [hpc] at hfree <;> first | rfl | cases hfree
  | startup rest =>
    unfold Task.guard at hg
    rw [hkind] at hg
    cases hg

/-- A minted handle is new, so no claim is on it. -/
theorem Claimed.open (hi : Claimed s) (ho : Owned s) {host : HostState}
    {owner : Handle → Option (Option DeviceId)} (hnew : s.owner handle = none)
    (hstore : host.store = s.host.store) (hactive : host.active = s.host.active)
    (hregistry : host.registry = s.host.registry) (hpairing : pairingHandle host = some handle) :
    Claimed { s with host := host, owner := owner } := by
  have hserves : ∀ u id, Serves { s with host := host, owner := owner } u id → Serves s u id := by
    rintro u id ⟨hrun, hwaits⟩
    refine ⟨hrun, ?_⟩
    rw [← hregistry]
    exact hwaits
  have hholds : ∀ u, Holds s u → Holds { s with host := host, owner := owner } u := by
    rintro u ⟨a, ha, hu⟩
    exact ⟨a, hactive.trans ha, hu⟩
  refine ⟨?_, ?_, ?_, ?_⟩
  · intro a ha
    exact hi.holds a (hactive.symm.trans ha)
  · intro u hu hc
    refine hholds u (hi.current u hu ?_)
    rcases hc with ⟨e, he, hh⟩ | hp
    · rw [hstore] at he
      exact Or.inl ⟨e, he, hh⟩
    · obtain rfl : handle = (s.task u).handle := Option.some.inj (hpairing.symm.trans hp)
      exact absurd hnew (guard_minted ho hu)
  · intro u id h
    exact hholds u (hi.serves u id (hserves u id h))
  · intro u id h v hv hsame
    exact hi.apart u id (hserves u id h) v hv hsame

theorem activeId_some {a : ActiveSession} {h : HostState} (ha : h.active = some a)
    (hd : activeId h = some d) : a.deviceId = some d := by
  unfold activeId at hd
  rw [ha] at hd
  exact hd

/-- A revocation takes the claim only of a device whose handle and session go with it. -/
theorem Claimed.revoke (hi : Claimed s) (ho : Owned s) (hs : Sessions s) {host : HostState}
    {ids : List TaskId} (hr : Revocation s.host host ids) : Claimed { s with host := host } := by
  have hfewer := fewer_revocation hr
  have hkept : ∀ u, Kept (s.task u) (({ s with host := host } : System).task u) :=
    fun u => Kept.refl _
  cases hr with
  | nothing host hh =>
    rw [hh]
    exact hi
  | one d host ids found store registry active loops openPairing stopped stopTx =>
    have hcur : ∀ handle, Current host handle → Current s.host handle := by
      intro handle
      refine current_fewer ?_ ?_
      · rw [store]
        exact fun _ he => (mem_without.mp he).1
      · unfold pairingHandle
        rw [openPairing]
        exact fun _ hh => hh
    rcases active with ⟨hsame, -⟩ | ⟨hnone, hid, -⟩
    · exact hi.still hkept (fun _ h => h) hfewer hcur hsame
    · refine hi.fewer hkept hfewer hcur ?_ ?_
      · intro a ha
        cases hnone.symm.trans ha
      · intro a ha hneeds
        have hdevice := activeId_some ha hid
        obtain ⟨hguard, hhandle, htask⟩ := hi.holds a ha
        rw [hdevice] at htask
        exfalso
        rcases hneeds with ⟨-, hc⟩ | ⟨id, hserves⟩
        · have hfree := not_free_guard hguard
          have howner : s.owner a.handle = some (some d) := by
            rw [← hhandle]
            refine (ho.known a.claimant).owned d htask ?_ ?_
            · intro h
              rw [h] at hfree
              cases hfree
            · intro h
              rw [h] at hfree
              cases hfree
          rcases hc with ⟨x, hx, hh⟩ | hp
          · rw [store] at hx
            obtain ⟨hmem, hne⟩ := mem_without.mp hx
            rw [ho.enrolled x hmem _ hh] at howner
            exact hne (Option.some.inj (Option.some.inj howner))
          · have hp' : pairingHandle s.host = some a.handle := by
              unfold pairingHandle at hp ⊢
              rw [← openPairing]
              exact hp
            rw [ho.minted _ hp'] at howner
            cases howner
        · obtain ⟨d', hd', hmem⟩ := hs.registered a.claimant id (hserves.back (hkept _).runs hfewer)
          have hwaits := hserves.2
          replace hwaits : host.registry.closes id = .waiting := hwaits
          rw [registry] at hwaits
          have hpicked : RevokeResult.names ⟨[d], false⟩
              ⟨(s.task a.claimant).handle, some d', id⟩ = true := by
            rw [htask] at hd'
            rw [← Option.some.inj hd']
            simp [RevokeResult.names]
          have hclosed : (s.host.registry.closeForRevocation ⟨[d], false⟩).closes id = .revoked :=
            closes_picked hmem hpicked
          cases hclosed.symm.trans hwaits
  | every revoked host ids store registry active registrations loops openPairing stopped stopTx =>
    have hcur : ∀ handle, ¬Current host handle := by
      rintro handle (⟨e, he, -⟩ | hp)
      · rw [store] at he
        exact absurd he List.not_mem_nil
      · unfold pairingHandle at hp
        rw [openPairing] at hp
        cases hp
    have hserves : ∀ u id, ¬Serves { s with host := host } u id := by
      rintro u id h
      obtain ⟨d, -, hmem⟩ := hs.registered u id (h.back (hkept u).runs hfewer)
      have hwaits := h.2
      replace hwaits : host.registry.closes id = .waiting := hwaits
      rw [registry] at hwaits
      have hclosed : (s.host.registry.closeForRevocation ⟨revoked, true⟩).closes id = .revoked :=
        closes_picked hmem rfl
      cases hclosed.symm.trans hwaits
    rcases active with ⟨hsame, -⟩ | ⟨hnone, -⟩
    · exact hi.still hkept (fun _ h => h) hfewer (fun handle hc => absurd hc (hcur handle)) hsame
    · refine hi.fewer hkept hfewer (fun handle hc => absurd hc (hcur handle)) ?_ ?_
      · intro a ha
        cases hnone.symm.trans ha
      · rintro a - (⟨-, hc⟩ | ⟨id, h⟩)
        · exact absurd hc (hcur _)
        · exact absurd h (hserves _ _)

theorem Claimed.stepped (hi : Claimed s) (ho : Owned s) (hs : Sessions s) (h : Stepped s e s') :
    Claimed s' := by
  cases h with
  | advance time => exact ⟨hi.holds, hi.current, hi.serves, hi.apart⟩
  | moved t a s' ht hm => exact hi.moved ho ht hm
  | quiet c host ids hq =>
    have hquiet : Claimed { s with host := host } :=
      hi.still (fun _ => Kept.refl _) (fun _ h => h) (fewer_quiet hq) (fun _ => current_quiet hq)
        hq.active
    exact hquiet.abort ids
  | opened handle host ids hstarted hnew hopen =>
    cases hopen with
    | opened handle host ids store active registry registrations stopped stopTx link pairing =>
      refine Claimed.abort ?_ ids
      refine Claimed.spawn ?_ (ho.beyond s.made (Nat.le_refl _)) rfl
      refine hi.open ho hnew store active registry ?_
      unfold pairingHandle
      rw [pairing]
      rfl
  | revoked e host ids he hr => exact (hi.revoke ho hs hr).abort ids
  | failed request saved rotated loaded hfail =>
    have hempty : Claimed { s with host := { s.host with store := .empty } } :=
      hi.still (fun _ => Kept.refl _) (fun _ h => h) (Fewer.refl _)
        (fun _ => current_fewer (fun _ hx => absurd hx List.not_mem_nil) fun _ hx => hx) rfl
    exact hempty.abort []
  | stop =>
    exact hi.still (fun _ => Kept.refl _) (fun _ h => h) (Fewer.refl _) (fun _ hc => hc) rfl

/-- What holds in every state of a run. -/
structure Fine (s : System) : Prop where
  owned : Owned s
  sessions : Sessions s
  claimed : Claimed s

theorem start_idle (saved : SavedList) (keypair : Keypair) (t : TaskId) :
    ((System.start saved keypair).task t).guard = false ∧
      ((System.start saved keypair).task t).running = none := by
  by_cases h : t = 0
  · subst h
    rw [start_zero]
    obtain ⟨rest, pc, hs, hpc⟩ := startup_cases (saved.store.devices.map PairedDevice.deviceId)
    rw [hs]
    rcases hpc with ⟨rfl, -⟩ | ⟨d, rfl, -⟩
    · exact ⟨rfl, rfl⟩
    · exact ⟨rfl, rfl⟩
  · rw [start_ne saved keypair h]
    exact ⟨rfl, rfl⟩

theorem fine_start (saved : SavedList) (keypair : Keypair) : Fine (.start saved keypair) := by
  have hguard : ∀ t, ¬((System.start saved keypair).task t).guard = true := by
    intro t h
    rw [(start_idle saved keypair t).1] at h
    cases h
  have hrun : ∀ t id, ((System.start saved keypair).task t).running ≠ some id := by
    intro t id h
    rw [(start_idle saved keypair t).2] at h
    cases h
  refine ⟨owned_start saved keypair, ⟨?_, ?_, ?_⟩, ⟨?_, ?_, ?_, ?_⟩⟩
  · exact fun t id h => absurd h (hrun t id)
  · exact fun t id h => absurd h.1 (hrun t id)
  · exact fun t _ id h => absurd h (hrun t id)
  · exact fun a ha => nomatch ha
  · exact fun t h => absurd h (hguard t)
  · exact fun t id h => absurd h.1 (hrun t id)
  · exact fun t id h => absurd h.1 (hrun t id)

theorem Fine.step (hi : Fine s) (h : Tasks.step s e = some s') : Fine s' :=
  ⟨hi.owned.stepped (step_stepped h), hi.sessions.stepped (step_stepped h),
    hi.claimed.stepped hi.owned hi.sessions (step_stepped h)⟩

/-- Nothing that the claims rest on changes. -/
theorem Fine.same (hf : Fine s) {host : HostState} (hstore : host.store = s.host.store)
    (hactive : host.active = s.host.active) (hregistry : host.registry = s.host.registry)
    (hpairing : ∀ handle, pairingHandle host = some handle → pairingHandle s.host = some handle) :
    Fine { s with host := host } := by
  have hfewer : Fewer s.host.registry host.registry := by
    rw [hregistry]
    exact Fewer.refl _
  have hentries : ∀ e ∈ host.store.devices, e ∈ s.host.store.devices := fun e he => hstore ▸ he
  exact ⟨hf.owned.change hentries hpairing, hf.sessions.fewer (fun _ => (Kept.refl _).runs) hfewer,
    hf.claimed.still (fun _ => Kept.refl _) (fun _ h => h) hfewer
      (fun _ => current_fewer hentries hpairing) hactive⟩

theorem fine_run {saved : SavedList} {keypair : Keypair} {es : List Event}
    (hv : Lib.Run.Visits Tasks.step (.start saved keypair) es s) : Fine s :=
  Lib.Run.visits_of_step Fine (fine_start saved keypair) Fine.step hv

end HerdrMobile.Bridge.Claims
