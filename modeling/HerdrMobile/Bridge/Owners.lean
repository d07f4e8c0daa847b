import HerdrMobile.Bridge.Steps

/-!
# Whose a handle is

A handle is minted for one pairing and enrolled for one device. A task keeps the
handle of its device, so two tasks with one handle serve one device.
-/
namespace HerdrMobile.Bridge.Owners

open Bridge.Store Bridge.Host Bridge.Sections Bridge.Tasks Bridge.Steps

set_option autoImplicit false

variable {s s' : System} {t u : TaskId} {d : DeviceId} {pc : Pc} {τ τ' : Task} {handle : Handle}
  {owner owner' : Handle → Option (Option DeviceId)} {e : Event} {host : HostState}
  {ids : List TaskId}

/-- What is known of the device and the handle of a task. -/
structure Known (owner : Handle → Option (Option DeviceId)) (τ : Task) : Prop where
  device : τ.kind = .registration → τ.deviceId ≠ none
  fresh : τ.kind ≠ .registration →
    τ.deviceId = none ∨ (τ.again = false ∧ Pc.late τ.pc = true)
  owned : ∀ d, τ.deviceId = some d → τ.pc ≠ .start → τ.pc ≠ .ended →
    owner τ.handle = some (some d)
  looked : τ.kind = .pairing → Pc.looked τ.pc = true → owner τ.handle ≠ none
  startup : ∀ rest, τ.kind = .startup rest → Pc.starting τ.pc = true
  plain : τ.kind = .registration → Pc.starting τ.pc = true → τ.pc = .ended

structure Owned (s : System) : Prop where
  beyond : ∀ t, s.made ≤ t → (s.task t).pc = .ended
  enrolled : ∀ e ∈ s.host.store.devices, ∀ handle, e.handle = some handle →
    s.owner handle = some (some e.deviceId)
  minted : ∀ handle, pairingHandle s.host = some handle → s.owner handle = some none
  known : ∀ t, Known s.owner (s.task t)

/-- A handle stays minted, and stays with its device. -/
structure Grows (owner owner' : Handle → Option (Option DeviceId)) : Prop where
  device : ∀ handle d, owner handle = some (some d) → owner' handle = some (some d)
  minted : ∀ handle, owner handle ≠ none → owner' handle ≠ none

theorem Known.grow (hk : Known owner τ) (hg : Grows owner owner') : Known owner' τ where
  device := hk.device
  fresh := hk.fresh
  owned := fun d hd hs he => hg.device _ d (hk.owned d hd hs he)
  looked := fun hkind hlook => hg.minted _ (hk.looked hkind hlook)
  startup := hk.startup
  plain := hk.plain

theorem startup_of {kind : Kind} (h : kind ≠ .registration) (h' : kind ≠ .pairing) :
    ∃ rest, kind = .startup rest := by
  cases kind with
  | registration => exact absurd rfl h
  | pairing => exact absurd rfl h'
  | startup rest => exact ⟨rest, rfl⟩

theorem Known.not_startup (hk : Known owner τ) (h : Pc.starting τ.pc = false) (rest : List DeviceId) :
    τ.kind ≠ .startup rest := by
  intro hkind
  rw [hk.startup rest hkind] at h
  cases h

/-- A handle without a device gets one. -/
theorem grows_update {x : Option DeviceId} (h : ∀ d, owner handle ≠ some (some d)) :
    Grows owner (Function.update owner handle (some x)) := by
  constructor
  · intro other d hd
    have hne : other ≠ handle := by
      rintro rfl
      exact h d hd
    rw [Function.update_of_ne hne]
    exact hd
  · intro other hother
    by_cases heq : other = handle
    · subst heq
      rw [Function.update_self]
      exact Option.some_ne_none x
    · rw [Function.update_of_ne heq]
      exact hother

theorem Known.follow (hk : Known owner τ) (hf : Follows τ τ') : Known owner τ' := by
  constructor
  · intro hkind
    rw [hf.deviceId]
    exact hk.device (hf.registration.mp hkind)
  · intro hkind
    rw [hf.deviceId]
    rcases hk.fresh fun h => hkind (hf.registration.mpr h) with hnone | ⟨hagain, hlate⟩
    · exact Or.inl hnone
    · exact Or.inr (hf.settled hagain hlate)
  · intro d hd _ _
    rw [hf.deviceId] at hd
    rw [hf.handle]
    exact hk.owned d hd hf.begun.1 hf.alive
  · intro hkind hlook
    have hkind' := hf.pairing.mp hkind
    rw [hf.handle]
    exact hk.looked hkind' (hf.looked hkind' hlook)
  · intro rest hkind
    have hreg : τ.kind ≠ .registration := by
      intro h
      cases hkind.symm.trans (hf.registration.mpr h)
    have hpair : τ.kind ≠ .pairing := by
      intro h
      cases hkind.symm.trans (hf.pairing.mpr h)
    obtain ⟨rest', hkind'⟩ := startup_of hreg hpair
    exact hf.startup hpair (hk.startup rest' hkind')
  · intro hkind hstarting
    have hkind' := hf.registration.mp hkind
    rcases hf.plain hkind' hstarting with hended | hstarting'
    · exact hended
    · exact absurd (hk.plain hkind' hstarting') hf.alive

/-- The claim goes out of scope. -/
theorem Known.drop (hk : Known owner τ) (hpc : pc = .top ∨ pc = .ended) (halive : τ.pc ≠ .ended)
    (hstart : τ.pc = .start → pc = .ended)
    (htop : pc = .top → τ.kind = .registration ∨ τ.pc = .claimed ∨
      (τ.kind = .pairing ∧ τ.again = true)) : Known owner { τ with pc := pc } := by
  refine ⟨hk.device, ?_, ?_, ?_, ?_, ?_⟩
  · intro hkind
    rcases hk.fresh hkind with hnone | ⟨hagain, hlate⟩
    · exact Or.inl hnone
    · refine Or.inr ⟨hagain, ?_⟩
      rcases hpc with rfl | rfl
      · rcases htop rfl with h | h | ⟨-, h⟩
        · exact absurd h hkind
        · rw [h] at hlate
          cases hlate
        · rw [hagain] at h
          cases h
      · rfl
  · intro d hd _ hended
    refine hk.owned d hd ?_ halive
    intro h
    exact hended (hstart h)
  · intro _ hlook
    rcases hpc with rfl | rfl
    · cases hlook
    · cases hlook
  · intro rest hkind
    rcases hpc with rfl | rfl
    · have hstarting := hk.startup rest hkind
      rcases htop rfl with h | h | ⟨h, -⟩
      · cases hkind.symm.trans h
      · rw [h] at hstarting
        cases hstarting
      · cases hkind.symm.trans h
    · rfl
  · intro _ hstarting
    rcases hpc with rfl | rfl
    · cases hstarting
    · rfl

theorem Owned.set (hi : Owned s) (ht : t < s.made) (hτ : Known s.owner τ) : Owned (s.set t τ) where
  beyond := by
    intro u hu
    rw [set_ne s τ (Nat.ne_of_gt (Nat.lt_of_lt_of_le ht hu))]
    exact hi.beyond u hu
  enrolled := hi.enrolled
  minted := hi.minted
  known := by
    intro u
    by_cases h : u = t
    · subst h
      rw [set_self]
      exact hτ
    · rw [set_ne s τ h]
      exact hi.known u

theorem Owned.abort (hi : Owned s) (ids : List TaskId) : Owned (s.abort ids) where
  beyond := by
    intro u hu
    rw [abort_task]
    exact hi.beyond u hu
  enrolled := hi.enrolled
  minted := hi.minted
  known := by
    intro u
    rw [abort_task]
    exact ⟨(hi.known u).device, (hi.known u).fresh, (hi.known u).owned, (hi.known u).looked,
      (hi.known u).startup, (hi.known u).plain⟩

theorem Owned.change (hi : Owned s)
    (hstore : ∀ e ∈ host.store.devices, e ∈ s.host.store.devices)
    (hpairing : ∀ handle, pairingHandle host = some handle → pairingHandle s.host = some handle) :
    Owned { s with host := host } where
  beyond := hi.beyond
  enrolled := fun e he => hi.enrolled e (hstore e he)
  minted := fun handle hh => hi.minted handle (hpairing handle hh)
  known := hi.known

theorem Owned.quiet (hi : Owned s) (hq : Quiet s.host host) : Owned { s with host := host } :=
  hi.change (fun _ he => hq.store ▸ he) hq.pairing

theorem Owned.spawn (hi : Owned s) (hτ : Known s.owner τ) : Owned (s.spawn τ) where
  beyond := by
    intro u hu
    have hne : u ≠ s.made := Nat.ne_of_gt hu
    rw [spawn_ne s τ hne]
    exact hi.beyond u (Nat.le_of_lt hu)
  enrolled := hi.enrolled
  minted := hi.minted
  known := by
    intro u
    by_cases h : u = s.made
    · subst h
      rw [spawn_self]
      exact hτ
    · rw [spawn_ne s τ h]
      exact hi.known u

theorem Owned.drop (hi : Owned s) (ht : t < s.made) (hτ : Known s.owner { s.task t with pc := pc }) :
    Owned (s.drop t pc) := by
  unfold System.drop
  split
  · have hrest := releaseActive_rest s.host (s.task t).handle
    refine Owned.set (hi.change ?_ ?_) ht hτ
    · rw [hrest.1]
      exact fun _ he => he
    · unfold pairingHandle
      rw [hrest.2.1]
      exact fun _ hh => hh
  · exact hi.set ht hτ

theorem known_new_registration (d : DeviceId) :
    Known owner (.new .registration .start (some d)) where
  device := fun _ => Option.some_ne_none d
  fresh := fun h => absurd rfl h
  owned := fun _ _ h => absurd rfl h
  looked := fun h => nomatch h
  startup := fun _ h => nomatch h
  plain := fun _ h => nomatch h

theorem known_new_pairing : Known owner (.new .pairing .start none) where
  device := fun h => nomatch h
  fresh := fun _ => Or.inl rfl
  owned := fun _ h => nomatch h
  looked := fun _ h => nomatch h
  startup := fun _ h => nomatch h
  plain := fun h => nomatch h

theorem Owned.moved (hi : Owned s) (ht : t < s.made) (hm : Moved s t s') : Owned s' := by
  have hk := hi.known t
  cases hm with
  | goes host τ hq hf heard hand haims =>
    exact Owned.set (hi.quiet hq) ht (hk.follow hf)
  | drops host pc hq hpc hand halive hstart htop =>
    exact Owned.drop (hi.quiet hq) ht (hk.drop hpc halive hstart htop)
  | began τ hstart hkind hdevice haborted hpc hhandle =>
    refine hi.set ht ⟨?_, ?_, ?_, ?_, ?_, ?_⟩
    · rw [hkind, hdevice]
      exact hk.device
    · rw [hkind, hdevice]
      intro h
      refine Or.inl ((hk.fresh h).resolve_right ?_)
      rintro ⟨-, hlate⟩
      rw [hstart] at hlate
      cases hlate
    · intro d hd _ hended
      have hcaptured := hpc.resolve_right hended
      by_cases hreg : τ.kind = .registration
      · obtain ⟨e, hfind, he⟩ := hhandle hcaptured d hd hreg
        obtain ⟨hmem, hid⟩ := find_some hfind
        rw [← hid]
        exact hi.enrolled e hmem _ he
      · rw [hkind] at hreg
        rw [hdevice] at hd
        rcases hk.fresh hreg with hnone | ⟨-, hlate⟩
        · rw [hd] at hnone
          cases hnone
        · rw [hstart] at hlate
          cases hlate
    · intro _ hlook
      rcases hpc with h | h
      · rw [h] at hlook
        cases hlook
      · rw [h] at hlook
        cases hlook
    · intro rest hrest
      rw [hkind] at hrest
      exact absurd hrest (hk.not_startup (by rw [hstart]; rfl) rest)
    · intro _ hstarting
      rcases hpc with h | h
      · rw [h] at hstarting
        cases hstarting
      · exact h
  | looked τ hpc hkind hkind' hdevice haborted hpc' hhandle =>
    have hnone : τ.deviceId = none := by
      rw [hdevice]
      refine (hk.fresh hkind).resolve_right ?_
      rintro ⟨-, hlate⟩
      rw [hpc] at hlate
      cases hlate
    refine hi.set ht ⟨?_, fun _ => Or.inl hnone, ?_, ?_, ?_, ?_⟩
    · rw [hkind']
      exact fun h => absurd h hkind
    · intro d hd
      rw [hnone] at hd
      cases hd
    · intro _ _
      rw [hi.minted _ hhandle]
      exact Option.some_ne_none none
    · intro rest hrest
      rw [hkind'] at hrest
      exact absurd hrest (hk.not_startup (by rw [hpc]; rfl) rest)
    · intro _ hstarting
      rw [hpc'] at hstarting
      cases hstarting
  | destroyed ids hpc hkind =>
    refine Owned.abort (Owned.set (hi.quiet (quiet_closed s.host)) ht ?_) ids
    refine hk.drop (Or.inr rfl) ?_ (fun _ => rfl) Pc.noConfusion
    rw [hpc]
    decide
  | claimed hpc hfree hrun =>
    refine Owned.set (hi.change (fun _ he => he) fun _ hh => hh) ht ⟨hk.device, ?_, ?_, ?_, ?_,
      fun _ h => nomatch h⟩
    · intro h
      refine Or.inl ((hk.fresh h).resolve_right ?_)
      rintro ⟨-, hlate⟩
      rw [hpc] at hlate
      cases hlate
    · intro d hd _ _
      exact hk.owned d hd (by rw [hpc]; decide) (by rw [hpc]; decide)
    · intro hkind _
      exact hk.looked hkind (by rw [hpc]; rfl)
    · intro rest hrest
      exact absurd hrest (hk.not_startup (by rw [hpc]; rfl) rest)
  | entered d e hpc hd hrun hfind hid hhandle =>
    have hbegun : (s.task t).pc ≠ .start ∧ (s.task t).pc ≠ .ended ∧
        Pc.looked (s.task t).pc = true := by
      rcases hpc with ⟨h, -⟩ | h
      · rw [h]
        decide
      · rw [h]
        decide
    refine Owned.set (hi.change (fun _ he => he) fun _ hh => hh) ht ⟨hk.device, ?_, ?_, ?_, ?_,
      fun _ h => nomatch h⟩
    · intro h
      exact (hk.fresh h).imp_right fun hl => ⟨hl.1, rfl⟩
    · intro d hd _ _
      exact hk.owned d hd hbegun.1 hbegun.2.1
    · intro hkind _
      exact hk.looked hkind hbegun.2.2
    · intro rest hrest
      refine absurd hrest (hk.not_startup ?_ rest)
      rcases hpc with ⟨h, -⟩ | h
      · rw [h]
        rfl
      · rw [h]
        rfl
  | enrolFailed d τ hpc hkind hopen hf hpc' =>
    have hremoved : Owned { s with host := (removeRegistration s.host d).1 } :=
      hi.change (fun _ he => he) fun _ hh => hh
    exact (hremoved.set ht (hk.follow hf)).abort _
  | enrolled d entry store τ hpc hkind hentry hopen hstore hτ =>
    have howner := hi.minted _ hopen
    have hgrows : Grows s.owner (Function.update s.owner (s.task t).handle (some (some d))) := by
      refine grows_update fun d' h => ?_
      rw [howner] at h
      cases h
    obtain ⟨hpc', hkind', hdevice, hhandle, haborted, hagain⟩ := hτ
    refine Owned.abort (Owned.set (s := { s with
      host := _, owner := Function.update s.owner (s.task t).handle (some (some d)) }) ?_ ht ?_) _
    · refine ⟨hi.beyond, ?_, ?_, fun u => (hi.known u).grow hgrows⟩
      · intro e he handle hh
        rcases ((add_some hstore).2 e).mp he with ⟨hmem, -⟩ | rfl
        · exact hgrows.device _ _ (hi.enrolled e hmem handle hh)
        · rw [hentry.2] at hh
          obtain rfl := Option.some.inj hh
          rw [hentry.1]
          exact Function.update_self _ _ _
      · intro handle hh
        cases hh
    · refine ⟨?_, fun _ => Or.inr ⟨hagain, by rw [hpc']; rfl⟩, ?_, ?_, ?_, ?_⟩
      · rw [hdevice]
        exact fun _ => Option.some_ne_none d
      · intro d' hd' _ _
        rw [hdevice] at hd'
        rw [hhandle, ← hd']
        exact Function.update_self _ _ _
      · intro _ _
        rw [hhandle]
        show Function.update s.owner (s.task t).handle (some (some d)) (s.task t).handle ≠ none
        rw [Function.update_self]
        exact Option.some_ne_none _
      · intro rest hrest
        cases hkind'.symm.trans hrest
      · intro hreg _
        cases hkind'.symm.trans hreg
  | spawned d hpc =>
    refine Owned.set (hi.spawn (known_new_registration d)) (Nat.lt_succ_of_lt ht) ?_
    rw [spawn_ne s _ (Nat.ne_of_lt ht)]
    refine ⟨hk.device, ?_, ?_, ?_, fun _ _ => rfl, ?_⟩
    · intro h
      exact (hk.fresh h).imp_right fun hl => ⟨hl.1, rfl⟩
    · intro d' hd' _ _
      exact hk.owned d' hd' (by rw [hpc]; exact Pc.noConfusion) (by rw [hpc]; exact Pc.noConfusion)
    · intro hkind _
      exact hk.looked hkind (by rw [hpc]; rfl)
    · intro hkind _
      have hended := hk.plain hkind (by rw [hpc]; rfl)
      rw [hpc] at hended
      cases hended
  | stored d u τ hpc hf hand hrun haims =>
    exact Owned.set (hi.change (fun _ he => he) fun _ hh => hh) ht (hk.follow hf)
  | storedDrops d u pc hpc hpc' htop =>
    refine Owned.drop (hi.change (fun _ he => he) fun _ hh => hh) ht ?_
    refine hk.drop hpc' ?_ ?_ ?_
    · rw [hpc]
      exact Pc.noConfusion
    · rw [hpc]
      exact fun h => nomatch h
    · exact fun h => (htop h).imp_right Or.inr

theorem Owned.stepped (hi : Owned s) (h : Stepped s e s') : Owned s' := by
  cases h with
  | advance time => exact ⟨hi.beyond, hi.enrolled, hi.minted, hi.known⟩
  | moved t a s' ht hm => exact hi.moved ht hm
  | quiet c host ids hq => exact (hi.quiet hq).abort ids
  | opened handle host ids hstarted hnew hopen =>
    have hgrows : Grows s.owner (Function.update s.owner handle (some none)) := by
      refine grows_update fun d h => ?_
      rw [hnew] at h
      cases h
    cases hopen with
    | opened handle host ids store active registry registrations stopped stopTx link pairing =>
      refine Owned.abort (Owned.spawn ?_ known_new_pairing) ids
      refine ⟨hi.beyond, ?_, ?_, fun u => (hi.known u).grow hgrows⟩
      · intro e he x hx
        rw [store] at he
        exact hgrows.device _ _ (hi.enrolled e he x hx)
      · intro x hx
        unfold pairingHandle at hx
        rw [pairing] at hx
        obtain rfl := Option.some.inj hx
        exact Function.update_self _ _ _
  | revoked e host ids he hr =>
    refine Owned.abort (hi.change ?_ ?_) ids
    · cases hr with
      | nothing host hh =>
        rw [hh]
        exact fun _ hx => hx
      | one d host ids found store registry active loops openPairing stopped stopTx =>
        rw [store]
        exact fun _ hx => (mem_without.mp hx).1
      | every revoked host ids store registry active registrations loops openPairing stopped stopTx =>
        rw [store]
        exact fun _ hx => absurd hx List.not_mem_nil
    · cases hr with
      | nothing host hh =>
        rw [hh]
        exact fun _ hx => hx
      | one d host ids found store registry active loops openPairing stopped stopTx =>
        unfold pairingHandle
        rw [openPairing]
        exact fun _ hx => hx
      | every revoked host ids store registry active registrations loops openPairing stopped stopTx =>
        unfold pairingHandle
        rw [openPairing]
        exact fun _ hx => nomatch hx
  | failed request saved rotated loaded hfail =>
    have hempty : Owned { s with host := { s.host with store := .empty } } :=
      hi.change (fun _ hx => absurd hx List.not_mem_nil) fun _ hx => hx
    exact hempty.abort []
  | stop => exact hi.change (fun _ hx => hx) fun _ hx => hx

theorem known_startup (rest : List DeviceId) (h : Pc.starting pc = true) :
    Known owner (.new (.startup rest) pc none) where
  device := fun h => nomatch h
  fresh := fun _ => Or.inl rfl
  owned := fun _ h => nomatch h
  looked := fun h => nomatch h
  startup := fun _ _ => h
  plain := fun h => nomatch h

theorem startup_cases (ids : List DeviceId) :
    ∃ rest pc, startup ids = .new (.startup rest) pc none ∧
      (pc = .ended ∧ ids = [] ∨ ∃ d, pc = .lookUp d ∧ ids = d :: rest) := by
  cases ids with
  | nil => exact ⟨[], .ended, rfl, Or.inl ⟨rfl, rfl⟩⟩
  | cons d rest => exact ⟨rest, .lookUp d, rfl, Or.inr ⟨d, rfl, rfl⟩⟩

/-- The handle of a saved entry finds the entry, since no other one has it. -/
theorem find_saved (saved : SavedList) {x : PairedDevice} (hx : x ∈ saved.store.devices)
    (hh : x.handle = some handle) :
    saved.store.devices.find? (fun entry => entry.handle == some handle) = some x := by
  obtain ⟨pre, post, hsplit⟩ := List.append_of_mem hx
  rw [List.find?_eq_some_iff_append]
  refine ⟨by simp [hh], pre, post, hsplit, ?_⟩
  intro a ha
  have hown := saved.ownHandle
  rw [hsplit, List.pairwise_append] at hown
  cases hself : a.handle == some handle with
  | false => rfl
  | true => exact absurd hh (hown.2.2 a ha x List.mem_cons_self handle (eq_of_beq hself))

theorem start_zero (saved : SavedList) (keypair : Keypair) :
    (System.start saved keypair).task 0 =
      startup (saved.store.devices.map PairedDevice.deviceId) := by
  unfold System.start
  dsimp only
  rw [Function.update_self]

theorem start_ne (saved : SavedList) (keypair : Keypair) (h : t ≠ 0) :
    (System.start saved keypair).task t = .new (.startup []) .ended none := by
  unfold System.start
  dsimp only
  rw [Function.update_of_ne h]

/-- Every task of a new bridge belongs to its start. -/
theorem start_kind (saved : SavedList) (keypair : Keypair) (t : TaskId) :
    ∃ rest, ((System.start saved keypair).task t).kind = .startup rest := by
  by_cases h : t = 0
  · subst h
    obtain ⟨rest, pc, hs, -⟩ := startup_cases (saved.store.devices.map PairedDevice.deviceId)
    exact ⟨rest, by rw [start_zero, hs]; rfl⟩
  · exact ⟨[], by rw [start_ne saved keypair h]; rfl⟩

theorem owned_start (saved : SavedList) (keypair : Keypair) : Owned (.start saved keypair) := by
  refine ⟨?_, ?_, fun _ h => (nomatch h), ?_⟩
  · intro t ht
    rw [start_ne saved keypair (Nat.ne_of_gt ht)]
    rfl
  · intro x hx handle hh
    show ((saved.store.devices.find? fun entry => entry.handle == some handle).map fun entry =>
      some entry.deviceId) = some (some x.deviceId)
    rw [find_saved saved hx hh]
    rfl
  · intro t
    by_cases h : t = 0
    · subst h
      rw [start_zero]
      obtain ⟨rest, pc, hs, hpc⟩ := startup_cases (saved.store.devices.map PairedDevice.deviceId)
      rw [hs]
      refine known_startup rest ?_
      rcases hpc with ⟨rfl, -⟩ | ⟨d, rfl, -⟩
      · rfl
      · rfl
    · rw [start_ne saved keypair h]
      exact known_startup [] rfl

end HerdrMobile.Bridge.Owners
