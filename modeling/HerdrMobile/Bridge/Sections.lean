import HerdrMobile.Bridge.Host

/-!
# What a critical section can do

One lemma for each definition of the shared state: all that it changes, and what
it has checked by then.
-/
namespace HerdrMobile.Bridge.Sections

open Bridge.Store Bridge.Registry Bridge.Host

set_option autoImplicit false

variable {h h' : HostState} {handle : Handle} {d : DeviceId} {t : TaskId} {now : Nat}
  {aborts : List TaskId}

/-- The handle of the open pairing, as long as its phrase lives. -/
def pairingHandle (h : HostState) : Option Handle :=
  h.openPairing.bind fun pairing => pairing.session.liveHandle

/-- Nothing changes but the link, while no session is active, and the open pairing may go. -/
structure Quiet (h h' : HostState) : Prop where
  store : h'.store = h.store
  active : h'.active = h.active
  registry : h'.registry = h.registry
  registrations : h'.registrations = h.registrations
  stopped : h'.stopped = h.stopped
  stopTx : h'.stopTx = h.stopTx
  pairing : ∀ handle, pairingHandle h' = some handle → pairingHandle h = some handle
  link : h'.link = h.link ∨ (h.active = none ∧ h'.link.state ≠ .connected)

theorem Quiet.refl (h : HostState) : Quiet h h :=
  ⟨rfl, rfl, rfl, rfl, rfl, rfl, fun _ hh => hh, Or.inl rfl⟩

theorem quiet_link {link : LinkStatus} (ha : h.active = none) (hl : link.state ≠ .connected) :
    Quiet h { h with link := link } :=
  ⟨rfl, rfl, rfl, rfl, rfl, rfl, fun _ hh => hh, Or.inr ⟨ha, hl⟩⟩

theorem quiet_pairing {pairing : Option OpenPairing}
    (hp : ∀ handle, (pairing.bind fun pairing => pairing.session.liveHandle) = some handle →
      pairingHandle h = some handle) : Quiet h { h with openPairing := pairing } :=
  ⟨rfl, rfl, rfl, rfl, rfl, rfl, hp, Or.inl rfl⟩

theorem quiet_closed (h : HostState) : Quiet h { h with openPairing := none } :=
  quiet_pairing fun _ hh => nomatch hh

theorem liveHandle_of_handle {session : PairingSession} (hh : session.handle now = some handle) :
    session.liveHandle = some handle := by
  unfold PairingSession.handle PairingSession.applyExpiry at hh
  split at hh
  · split at hh
    · cases hh
    · exact hh
  · exact hh

theorem liveHandle_recordFailedAttempt {session : PairingSession}
    (hh : (session.recordFailedAttempt now).liveHandle = some handle) :
    session.liveHandle = some handle := by
  unfold PairingSession.recordFailedAttempt at hh
  split at hh
  · next x generatedAt attempts he =>
    split at hh
    · cases hh
    · have hhandle : session.handle now = some handle := by
        unfold PairingSession.handle
        rw [he]
        exact hh
      exact liveHandle_of_handle hhandle
  · exact liveHandle_of_handle hh

theorem pairingOf_some {pairing : OpenPairing} (hp : pairingOf h handle now = some pairing) :
    h.openPairing = some pairing ∧ pairing.session.handle now = some handle := by
  obtain ⟨ho, hh⟩ := Option.filter_eq_some_iff.mp hp
  exact ⟨ho, eq_of_beq hh⟩

theorem pairingHandle_of_pairingOf {pairing : OpenPairing}
    (hp : pairingOf h handle now = some pairing) : pairingHandle h = some handle := by
  obtain ⟨ho, hh⟩ := pairingOf_some hp
  unfold pairingHandle
  rw [ho]
  exact liveHandle_of_handle hh

theorem setIdle_quiet (h : HostState) : Quiet h (setIdle h) := by
  unfold setIdle
  split
  · next hok =>
    rw [Bool.and_eq_true] at hok
    exact quiet_link (Option.isNone_iff_eq_none.mp hok.1) (by decide)
  · exact Quiet.refl h

theorem setOffline_quiet (h : HostState) (attempt : Nat) (error : String) :
    Quiet h (setOffline h attempt error) := by
  unfold setOffline
  split
  · next hok =>
    rw [Bool.and_eq_true] at hok
    exact quiet_link (Option.isNone_iff_eq_none.mp hok.1) LinkState.noConfusion
  · exact Quiet.refl h

theorem markRegistered_quiet (h : HostState) (handle : Handle) (now : Nat) :
    Quiet h (markRegistered h handle now) := by
  unfold markRegistered
  cases hp : pairingOf h handle now with
  | none => exact Quiet.refl h
  | some pairing =>
    refine quiet_pairing fun x hx => ?_
    unfold pairingHandle
    rw [(pairingOf_some hp).1]
    exact hx

theorem recordFailedAttempt_quiet (h : HostState) (handle : Handle) (now : Nat) :
    Quiet h (recordFailedAttempt h handle now) := by
  unfold recordFailedAttempt
  cases hp : pairingOf h handle now with
  | none => exact Quiet.refl h
  | some pairing =>
    refine quiet_pairing fun x hx => ?_
    unfold pairingHandle
    rw [(pairingOf_some hp).1]
    exact liveHandle_recordFailedAttempt hx

theorem expirePairing_quiet (h : HostState) (handle : Handle) (now : Nat) :
    Quiet h (expirePairing h handle now) := by
  unfold expirePairing
  split
  · exact Quiet.refl h
  · exact quiet_closed h

theorem expireMinted_quiet (h : HostState) (mintedAt : Nat) : Quiet h (expireMinted h mintedAt) := by
  unfold expireMinted
  split
  · exact quiet_closed h
  · exact Quiet.refl h

theorem buildStatus_quiet (h : HostState) (now : Nat) : Quiet h (buildStatus h now).1 := by
  unfold buildStatus
  split
  · exact Quiet.refl h
  · split
    · exact Quiet.refl h
    · exact quiet_closed h

theorem closePairing_quiet (h : HostState) : Quiet h (closePairing h).1 := by
  unfold closePairing
  split
  · exact Quiet.refl h
  · exact quiet_closed h

theorem claimActive_some {deviceId : Option DeviceId}
    (hc : claimActive h deviceId handle t = some h') :
    h.active = none ∧ h.stopped = false ∧
      h' = { h with active := some ⟨deviceId, handle, t⟩, link := linkConnected } := by
  unfold claimActive at hc
  split at hc
  · cases hc
  · next hfree =>
    rw [Bool.or_eq_true, not_or] at hfree
    exact ⟨Option.not_isSome_iff_eq_none.mp hfree.1, Bool.eq_false_iff.mpr hfree.2,
      (Option.some.inj hc).symm⟩

/-- The claim goes with the guard if it has the guard's handle. -/
theorem releaseActive_cases (h : HostState) (handle : Handle) :
    (∃ a, h.active = some a ∧ a.handle = handle ∧
      releaseActive h handle = { h with
        registry := h.registry.unregister handle
        active := none
        link := if h.stopped then linkStopped else linkIdle }) ∨
    ((∀ a, h.active = some a → a.handle ≠ handle) ∧
      releaseActive h handle = { h with registry := h.registry.unregister handle }) := by
  unfold releaseActive
  dsimp only
  split
  · next hany =>
    obtain ⟨a, ha, hh⟩ := (Option.any_eq_true _ _).mp hany
    exact Or.inl ⟨a, ha, eq_of_beq hh, rfl⟩
  · next hany =>
    refine Or.inr ⟨fun a ha heq => hany ?_, rfl⟩
    rw [ha]
    simp [heq]

theorem releaseActive_rest (h : HostState) (handle : Handle) :
    (releaseActive h handle).store = h.store ∧
    (releaseActive h handle).openPairing = h.openPairing ∧
    (releaseActive h handle).registry = h.registry.unregister handle ∧
    (releaseActive h handle).registrations = h.registrations ∧
    (releaseActive h handle).stopped = h.stopped ∧
    (releaseActive h handle).stopTx = h.stopTx := by
  rcases releaseActive_cases h handle with ⟨a, -, -, hr⟩ | ⟨-, hr⟩
  · rw [hr]
    exact ⟨rfl, rfl, rfl, rfl, rfl, rfl⟩
  · rw [hr]
    exact ⟨rfl, rfl, rfl, rfl, rfl, rfl⟩

theorem registerSession_some {hostId : HostId} {id : SessionId}
    (hs : registerSession h hostId handle d = some (id, h')) :
    h.stopped = false ∧
    (∃ e, h.store.find d = some e ∧ e.hostId = hostId ∧ e.handle = some handle) ∧
    id = h.registry.made ∧
    h' = { h with registry := (h.registry.register handle (some d)).2 } := by
  unfold registerSession at hs
  split at hs
  · cases hs
  · next hok =>
    rw [Bool.or_eq_true, not_or, Bool.not_eq_true', Bool.not_eq_false] at hok
    obtain ⟨e, he, hmatch⟩ := (Option.any_eq_true _ _).mp hok.2
    rw [Bool.and_eq_true] at hmatch
    obtain ⟨rfl, rfl⟩ := Prod.mk.inj (Option.some.inj hs)
    exact ⟨Bool.eq_false_iff.mpr hok.1, ⟨e, he, eq_of_beq hmatch.1, eq_of_beq hmatch.2⟩, rfl, rfl⟩

/-- What an enrolment comes to. Where it goes on, the handshake's own pairing is open. -/
inductive Enrolment (h : HostState) (entry : PairedDevice) (handle : Handle) :
    Enrolled × HostState × List TaskId → Prop where
  | refused : Enrolment h entry handle (.refused, h, [])
  | failed (hp : pairingHandle h = some handle) :
      Enrolment h entry handle (.failed, (removeRegistration h entry.deviceId).1,
        (removeRegistration h entry.deviceId).2)
  | paired (hp : pairingHandle h = some handle) (store : DeviceStore)
      (hs : h.store.add entry true = some store) :
      Enrolment h entry handle (.paired,
        { (removeRegistration h entry.deviceId).1 with
          store := store
          openPairing := none
          active := h.active.map fun active =>
            if active.handle == handle then { active with deviceId := some entry.deviceId }
            else active },
        (removeRegistration h entry.deviceId).2)

theorem enrol_cases (h : HostState) (entry : PairedDevice) (handle : Handle) (now deadline : Nat)
    (saved : Bool) : Enrolment h entry handle (enrol h entry handle now deadline saved) := by
  unfold enrol
  split
  · exact .refused
  · next hok =>
    simp only [Bool.or_eq_true, decide_eq_true_eq, not_or] at hok
    cases hp : pairingOf h handle now with
    | none => simp [hp] at hok
    | some pairing =>
      have hhandle := pairingHandle_of_pairingOf hp
      dsimp only
      split
      · exact .failed hhandle
      · next store hs =>
        obtain rfl := (add_some hs).1
        exact .paired hhandle store hs

/-- The loop of `d` is taken out of the map and aborted, unless `d` is the active device. -/
inductive Unregistered (active : Option DeviceId) (registrations : List (DeviceId × TaskId))
    (d : DeviceId) : List (DeviceId × TaskId) → List TaskId → Prop where
  | spared (ha : active = some d) : Unregistered active registrations d registrations []
  | aborted (ha : active ≠ some d) : Unregistered active registrations d
      (registrations.filter fun r => !(r.1 == d))
      ((registrations.filter fun r => r.1 == d).map Prod.snd)

/-- What a revocation does, from either side. `cleared` says whether it takes the claim of
the active device away. -/
inductive Revocation (h : HostState) : HostState → List TaskId → Prop where
  | nothing (h' : HostState) (hh : h' = h) : Revocation h h' []
  | one (d : DeviceId) (h' : HostState) (aborts : List TaskId)
      (found : (h.store.find d).isSome)
      (store : h'.store = h.store.without d)
      (registry : h'.registry = h.registry.closeForRevocation ⟨[d], false⟩)
      (active : (h'.active = h.active ∧ h'.link = h.link) ∨
        (h'.active = none ∧ activeId h = some d ∧
          h'.link = if h.stopped then h.link else linkIdle))
      (loops : Unregistered (activeId h) h.registrations d h'.registrations aborts)
      (openPairing : h'.openPairing = h.openPairing)
      (stopped : h'.stopped = h.stopped) (stopTx : h'.stopTx = h.stopTx) :
      Revocation h h' aborts
  | every (ids : List DeviceId) (h' : HostState) (aborts : List TaskId)
      (store : h'.store = .empty)
      (registry : h'.registry = h.registry.closeForRevocation ⟨ids, true⟩)
      (active : (h'.active = h.active ∧ h'.link = h.link) ∨
        (h'.active = none ∧ h'.link = if h.stopped then h.link else linkIdle))
      (registrations : h'.registrations = [])
      (loops : ∀ d t, (d, t) ∈ h.registrations → some d ≠ activeId h → t ∈ aborts)
      (openPairing : h'.openPairing = none)
      (stopped : h'.stopped = h.stopped) (stopTx : h'.stopTx = h.stopTx) :
      Revocation h h' aborts

theorem idleUnlessStopped_eq (h : HostState) :
    idleUnlessStopped h = { h with link := if h.stopped then h.link else linkIdle } := by
  unfold idleUnlessStopped
  split
  · rfl
  · rfl

theorem closePairing_eq (h : HostState) : (closePairing h).1 = { h with openPairing := none } := by
  unfold closePairing
  split
  · next ho => rw [← ho]
  · rfl

theorem revoke_cases {store : DeviceStore} {saved : Bool} {removed : Option PairedDevice}
    (hr : h.store.revoke d saved = some (removed, store)) :
    (removed = none ∧ store = h.store) ∨
      ∃ e, removed = some e ∧ h.store.find d = some e ∧ store = h.store.without d := by
  unfold DeviceStore.revoke at hr
  split at hr
  · obtain ⟨rfl, rfl⟩ := Prod.mk.inj (Option.some.inj hr)
    exact Or.inl ⟨rfl, rfl⟩
  · next e he =>
    split at hr
    · obtain ⟨rfl, rfl⟩ := Prod.mk.inj (Option.some.inj hr)
      exact Or.inr ⟨e, rfl, he, rfl⟩
    · cases hr

theorem clearAll_some {old store : DeviceStore} {saved : Bool} {cleared : List PairedDevice}
    (hc : old.clearAll saved = some (cleared, store)) :
    saved = true ∧ cleared = old.devices ∧ store = .empty := by
  unfold DeviceStore.clearAll at hc
  split at hc
  · next hs =>
    obtain ⟨rfl, rfl⟩ := Prod.mk.inj (Option.some.inj hc)
    exact ⟨hs, rfl, rfl⟩
  · cases hc

theorem drained_loops (h : HostState) {d : DeviceId} {t : TaskId} (hmem : (d, t) ∈ h.registrations)
    (hne : some d ≠ activeId h) : t ∈ (drainRegistrations h).2 := by
  refine List.mem_map.mpr ⟨(d, t), List.mem_filter.mpr ⟨hmem, ?_⟩, rfl⟩
  simpa using hne

theorem revokeOne_revocation (h : HostState) (d : DeviceId) (saved : Bool) :
    Revocation h (revokeOne h d saved).2.1 (revokeOne h d saved).2.2 := by
  unfold revokeOne
  split
  · exact .nothing h rfl
  · exact .nothing h rfl
  · next e store hr =>
    rcases revoke_cases hr with ⟨hn, -⟩ | ⟨e', -, he, rfl⟩
    · cases hn
    · have hfound : (h.store.find d).isSome := by rw [he]; rfl
      dsimp only
      split
      · next hlive =>
        have ha : activeId h = some d := eq_of_beq hlive
        rw [idleUnlessStopped_eq]
        exact .one d _ [] hfound rfl rfl (Or.inr ⟨rfl, ha, rfl⟩) (.spared ha) rfl rfl rfl
      · next hlive =>
        have ha : activeId h ≠ some d := fun heq => hlive (beq_iff_eq.mpr heq)
        exact .one d _ _ hfound rfl rfl (Or.inl ⟨rfl, rfl⟩) (.aborted ha) rfl rfl rfl

theorem revokeAll_revocation (h : HostState) (saved : Bool) (rotated : Option Keypair) :
    Revocation h (revokeAll h saved rotated).2.1 (revokeAll h saved rotated).2.2 := by
  unfold revokeAll
  split
  · exact .nothing h rfl
  · next cleared store hc =>
    obtain ⟨-, -, rfl⟩ := clearAll_some hc
    dsimp only
    rw [idleUnlessStopped_eq, closePairing_eq]
    refine .every (cleared.map PairedDevice.deviceId) _ _ rfl rfl (Or.inr ⟨rfl, rfl⟩) rfl ?_ rfl rfl
      rfl
    intro d t hmem hne
    exact List.mem_append_left _ (drained_loops _ hmem hne)

/-- The list is cleared and the rotation of the keypair fails. -/
def rotationFails (request : RevokeDevice) (saved rotated : Bool) : Bool :=
  request.deviceId.isNone && request.all == some true && saved && !rotated

theorem closeForRevocation_nobody (r : SessionRegistry) :
    r.closeForRevocation ⟨[], false⟩ = r := by
  have hnames : RevokeResult.names ⟨[], false⟩ = fun _ => false := by
    funext session
    unfold RevokeResult.names
    cases session.deviceId with
    | none => rfl
    | some d => rfl
  have hpicked : ∀ id, r.picked (fun _ => false) id = false := by
    intro id
    unfold SessionRegistry.picked
    simp
  have hcloses : (r.remove (fun _ => false) .revoked).closes = r.closes := by
    funext id
    rw [closes_remove, hpicked, if_neg (by decide)]
  have hsessions : (r.remove (fun _ => false) .revoked).sessions = r.sessions := by
    show r.sessions.filter (fun _ => !false) = r.sessions
    simp
  show r.remove (RevokeResult.names ⟨[], false⟩) .revoked = r
  rw [hnames]
  cases r with
  | mk sessions closes made apart unused numbered later =>
    unfold SessionRegistry.remove at hcloses hsessions ⊢
    simp only [SessionRegistry.mk.injEq]
    exact ⟨hsessions, hcloses, trivial⟩

theorem finishWireRevoke_all (h : HostState) (ids : List DeviceId) (loaded : Option Keypair) :
    ∃ keypair, finishWireRevoke h ⟨ids, true⟩ loaded =
      ({ (closePairing (drainRegistrations h).1).1 with keypair := keypair },
        (drainRegistrations h).2 ++ (closePairing (drainRegistrations h).1).2) :=
  ⟨_, rfl⟩

theorem removeRevoked_one (h : HostState) (d : DeviceId) :
    Unregistered (activeId h) h.registrations d (removeRevoked (activeId h) h [d]).1.registrations
      (removeRevoked (activeId h) h [d]).2 ∧
    ∃ registrations, (removeRevoked (activeId h) h [d]).1 = { h with registrations := registrations } := by
  unfold removeRevoked
  split
  · next ha => exact ⟨.spared (beq_iff_eq.mp ha).symm, _, rfl⟩
  · next ha =>
    dsimp only [removeRevoked]
    rw [List.append_nil]
    exact ⟨.aborted fun heq => ha (beq_iff_eq.mpr heq.symm), _, rfl⟩

theorem wireRevoke_revocation (h : HostState) (request : RevokeDevice) (saved rotated : Bool)
    (loaded : Option Keypair) :
    (rotationFails request saved rotated = true ∧
      wireRevoke h request saved rotated loaded = (.error .keys, { h with store := .empty }, [])) ∨
    Revocation h (wireRevoke h request saved rotated loaded).2.1
      (wireRevoke h request saved rotated loaded).2.2 := by
  unfold wireRevoke revokeDevice
  split
  · next err store hr =>
    split at hr
    · next hnone hall =>
      split at hr
      · obtain ⟨-, rfl⟩ := Prod.mk.inj hr
        exact Or.inr (.nothing _ rfl)
      · next cleared store' hc =>
        obtain ⟨rfl, -, rfl⟩ := clearAll_some hc
        split at hr
        · cases hr
        · next hrot =>
          obtain ⟨herr, rfl⟩ := Prod.mk.inj hr
          obtain rfl := Except.error.inj herr
          refine Or.inl ⟨?_, rfl⟩
          unfold rotationFails
          rw [hnone, hall, Bool.eq_false_iff.mpr hrot]
          rfl
    · split at hr
      · obtain ⟨-, rfl⟩ := Prod.mk.inj hr
        exact Or.inr (.nothing _ rfl)
      · cases hr
    · obtain ⟨-, rfl⟩ := Prod.mk.inj hr
      exact Or.inr (.nothing _ rfl)
  · next result store hr =>
    right
    split at hr
    · split at hr
      · cases hr
      · next cleared store' hc =>
        obtain ⟨-, -, rfl⟩ := clearAll_some hc
        split at hr
        · obtain ⟨hres, rfl⟩ := Prod.mk.inj hr
          obtain rfl := Except.ok.inj hres
          dsimp only
          obtain ⟨keypair, hf⟩ := finishWireRevoke_all { h with
            store := DeviceStore.empty
            registry := h.registry.closeForRevocation ⟨cleared.map PairedDevice.deviceId, true⟩ }
            (cleared.map PairedDevice.deviceId) loaded
          rw [hf]
          rw [closePairing_eq]
          refine .every _ _ _ rfl rfl (Or.inl ⟨rfl, rfl⟩) rfl ?_ rfl rfl rfl
          intro d t hmem hne
          exact List.mem_append_left _ (drained_loops _ hmem hne)
        · cases hr
    · next d hd hall =>
      split at hr
      · cases hr
      · next removed store' hrev =>
        obtain ⟨hres, rfl⟩ := Prod.mk.inj hr
        obtain rfl := Except.ok.inj hres
        rcases revoke_cases hrev with ⟨rfl, rfl⟩ | ⟨e, rfl, he, rfl⟩
        · refine .nothing _ ?_
          show { h with registry := h.registry.closeForRevocation ⟨[], false⟩ } = h
          rw [closeForRevocation_nobody]
        · obtain ⟨-, rfl⟩ := find_some he
          have hfound : (h.store.find e.deviceId).isSome := by rw [he]; rfl
          obtain ⟨hloops, registrations, hfinish⟩ := removeRevoked_one { h with
            store := h.store.without e.deviceId
            registry := h.registry.closeForRevocation ⟨[e.deviceId], false⟩ } e.deviceId
          have hstore := congrArg HostState.store hfinish
          have hregistry := congrArg HostState.registry hfinish
          have hactive := congrArg HostState.active hfinish
          have hlink := congrArg HostState.link hfinish
          have hopen := congrArg HostState.openPairing hfinish
          have hstopped := congrArg HostState.stopped hfinish
          have hstopTx := congrArg HostState.stopTx hfinish
          exact .one e.deviceId _ _ hfound hstore hregistry (Or.inl ⟨hactive, hlink⟩) hloops hopen
            hstopped hstopTx
    · cases hr

/-- What `open_pairing` does: it may be open already, the mint may fail, or a new pairing
with a minted handle is opened, and the bridge leaves the stopped state. -/
inductive Opening (h : HostState) (now : Nat) (task : TaskId) (receivers : Bool) :
    Option Handle → Except ErrorCode Bool × HostState × List TaskId → Prop where
  | already (minted : Option Handle) : Opening h now task receivers minted (.ok false, h, [])
  | failed (h' : HostState) (aborts : List TaskId) (hq : Quiet h h') :
      Opening h now task receivers none (.error .badRequest, h', aborts)
  | opened (handle : Handle) (h' : HostState) (aborts : List TaskId)
      (store : h'.store = h.store) (active : h'.active = h.active)
      (registry : h'.registry = h.registry) (registrations : h'.registrations = h.registrations)
      (stopped : h'.stopped = false)
      (stopTx : h'.stopTx = if h.stopped then h.stopTx.send receivers false else h.stopTx)
      (link : h'.link = h.link ∨ (h.stopped = true ∧ h'.link = linkIdle))
      (pairing : h'.openPairing = some ⟨.live handle now 0, now, false, task⟩) :
      Opening h now task receivers (some handle) (.ok true, h', aborts)

theorem mintPairing_opening (h : HostState) (now : Nat) (minted : Option Handle) (task : TaskId)
    (receivers : Bool) (aborts : List TaskId) {h₀ : HostState} (hq : Quiet h₀ h)
    (hl : h.link = h₀.link) :
    Opening h₀ now task receivers minted ((mintPairing h now minted task receivers).1,
      (mintPairing h now minted task receivers).2, aborts) := by
  cases minted with
  | none => exact .failed h aborts hq
  | some handle =>
    unfold mintPairing
    dsimp only
    cases hs : h.stopped with
    | true =>
      have hs₀ : h₀.stopped = true := hq.stopped.symm.trans hs
      rw [if_pos rfl]
      refine .opened handle _ aborts hq.store hq.active hq.registry hq.registrations rfl ?_
        (Or.inr ⟨hs₀, rfl⟩) rfl
      rw [hs₀, if_pos rfl, ← hq.stopTx]
    | false =>
      have hs₀ : h₀.stopped = false := hq.stopped.symm.trans hs
      rw [if_neg (by decide)]
      refine .opened handle _ aborts hq.store hq.active hq.registry hq.registrations hs ?_
        (Or.inl hl) rfl
      rw [hs₀, if_neg (by decide), ← hq.stopTx]

theorem openPairing_opening (h : HostState) (now : Nat) (minted : Option Handle) (task : TaskId)
    (receivers : Bool) :
    Opening h now task receivers minted (openPairing h now minted task receivers) := by
  unfold openPairing
  split
  · exact mintPairing_opening h now minted task receivers [] (Quiet.refl h) rfl
  · next pairing hp =>
    split
    · exact .already minted
    · exact mintPairing_opening _ now minted task receivers [pairing.task] (quiet_closed h) rfl

end HerdrMobile.Bridge.Sections
