import HerdrMobile.Bridge.Claims
import HerdrMobile.Bridge.Revoke

/-!
# The one active session

What the claim guards, which steps can take it away, and how far the published
link state follows it.
-/
namespace HerdrMobile.Bridge.Active

open Lib.Run Bridge.Store Bridge.Registry Bridge.Host Bridge.Sections Bridge.Tasks Bridge.Steps
open Bridge.Owners Bridge.Claims Bridge.Revoke

set_option autoImplicit false

variable {s s' : System} {h h' : HostState} {t u : TaskId} {id : SessionId} {pc : Pc} {e : Event}

def Connected (h : HostState) : Prop := h.link.state = .connected

def Published (h : HostState) : Prop :=
  Connected h → h.active.isSome = true ∧ h.stopped = false

/-- The link follows the claim, and a stop ends it at once. -/
def Agrees (h : HostState) : Prop :=
  Connected h ↔ h.active.isSome = true ∧ h.stopped = false

/-- What a step other than `stop` and `open_pairing` does to the link and the claim. -/
inductive Relinks (h h' : HostState) : Prop where
  | same (active : h'.active.isSome = h.active.isSome) (stopped : h'.stopped = h.stopped)
      (link : h'.link = h.link ∨ (h.active = none ∧ h'.link.state ≠ .connected))
  | released (active : h'.active = none) (stopped : h'.stopped = h.stopped)
      (link : h'.link.state ≠ .connected ∨ (h.stopped = true ∧ h'.link = h.link))
  | claimed (active : h'.active.isSome = true) (running : h.stopped = false)
      (stopped : h'.stopped = false) (link : Connected h')

/-- What `open_pairing` does to them. -/
structure Reopened (h h' : HostState) : Prop where
  active : h'.active = h.active
  stopped : h'.stopped = false
  link : h'.link = h.link ∨ (h.stopped = true ∧ h'.link = linkIdle)

theorem relinks_refl (h : HostState) : Relinks h h := .same rfl rfl (Or.inl rfl)

theorem relinks_quiet (hq : Quiet h h') : Relinks h h' :=
  .same (by rw [hq.active]) hq.stopped hq.link

theorem Published.relinks (hp : Published h) (hr : Relinks h h') : Published h' := by
  intro hc
  cases hr with
  | same active stopped link =>
    rcases link with hlink | ⟨-, hnot⟩
    · obtain ⟨ha, hs⟩ := hp (by unfold Connected at hc ⊢; rw [← hlink]; exact hc)
      exact ⟨active.trans ha, stopped.trans hs⟩
    · exact absurd hc hnot
  | released active stopped link =>
    rcases link with hnot | ⟨hs, hlink⟩
    · exact absurd hc hnot
    · obtain ⟨-, hs'⟩ := hp (by unfold Connected at hc ⊢; rw [← hlink]; exact hc)
      cases hs.symm.trans hs'
  | claimed active running stopped link => exact ⟨active, stopped⟩

theorem Published.reopened (hp : Published h) (hr : Reopened h h') : Published h' := by
  intro hc
  rcases hr.link with hlink | ⟨-, hlink⟩
  · obtain ⟨ha, -⟩ := hp (by unfold Connected at hc ⊢; rw [← hlink]; exact hc)
    exact ⟨by rw [hr.active]; exact ha, hr.stopped⟩
  · unfold Connected at hc
    rw [hlink] at hc
    cases hc

theorem Agrees.relinks (ha : Agrees h) (hr : Relinks h h') : Agrees h' := by
  cases hr with
  | same active stopped link =>
    rw [Agrees, active, stopped]
    rcases link with hlink | ⟨hnone, hnot⟩
    · unfold Connected
      rw [hlink]
      exact ha
    · rw [hnone]
      exact iff_of_false hnot (by simp)
  | released active stopped link =>
    rw [Agrees, active]
    refine iff_of_false ?_ (by simp)
    rcases link with hnot | ⟨hs, hlink⟩
    · exact hnot
    · intro hc
      unfold Connected at hc
      rw [hlink] at hc
      exact absurd (hs.symm.trans (ha.mp hc).2) (by decide)
  | claimed active running stopped link => exact iff_of_true link ⟨active, stopped⟩

/-- What is opened under a claim of a stopped bridge would make its link idle. -/
theorem Agrees.reopened (ha : Agrees h) (hfree : h.stopped = true → h.active = none)
    (hr : Reopened h h') : Agrees h' := by
  obtain ⟨active, stopped, link⟩ := hr
  rw [Agrees, active, stopped]
  cases hs : h.stopped with
  | true =>
    rw [hfree hs]
    refine iff_of_false ?_ (by simp)
    rcases link with hlink | ⟨-, hlink⟩
    · intro hc
      unfold Connected at hc
      rw [hlink] at hc
      exact absurd (hs.symm.trans (ha.mp hc).2) (by decide)
    · unfold Connected
      rw [hlink]
      decide
  | false =>
    rcases link with hlink | ⟨hs', -⟩
    · rw [Agrees, hs] at ha
      unfold Connected
      rw [hlink]
      exact ha
    · cases hs.symm.trans hs'

theorem agrees_stop (receivers : Bool) : Agrees (stop h receivers) :=
  iff_of_false LinkState.noConfusion fun hc => Bool.noConfusion hc.2

theorem relinks_drop (hl : s.host.link = h.link ∨ (h.active = none ∧ s.host.link.state ≠ .connected))
    (ha : s.host.active = h.active) (hs : s.host.stopped = h.stopped) :
    Relinks h (s.drop t pc).host := by
  cases hguard : (s.task t).guard with
  | false =>
    rw [drop_goto hguard]
    exact .same (by rw [goto_host, ha]) hs hl
  | true =>
    rw [drop_release hguard, goto_host]
    rcases releaseActive_cases s.host (s.task t).handle with ⟨a, -, -, hr⟩ | ⟨-, hr⟩
    · rw [hr]
      refine .released rfl hs (Or.inl ?_)
      show (if s.host.stopped then linkStopped else linkIdle).state ≠ .connected
      split
      · decide
      · decide
    · rw [hr]
      exact .same (by rw [← ha]) hs hl

theorem moved_relinks (hm : Moved s t s') : Relinks s.host s'.host := by
  cases hm with
  | goes host τ hq hf heard hand haims => exact relinks_quiet hq
  | drops host pc hq hpc hand halive hstart htop => exact relinks_drop hq.link hq.active hq.stopped
  | began τ hstart hkind hdevice haborted hpc hhandle => exact relinks_refl _
  | looked τ hpc hkind hkind' hdevice haborted hpc' hhandle => exact relinks_refl _
  | destroyed ids hpc hkind => exact relinks_quiet (quiet_closed s.host)
  | claimed hpc hfree hrun => exact .claimed rfl hrun hrun rfl
  | entered d e hpc hd hrun hfind hid hhandle => exact .same rfl rfl (Or.inl rfl)
  | enrolFailed d τ hpc hkind hopen hf hpc' => exact .same rfl rfl (Or.inl rfl)
  | enrolled d entry store τ hpc hkind hentry hopen hstore hτ =>
    exact .same (Option.isSome_map) rfl (Or.inl rfl)
  | spawned d hpc => exact relinks_refl _
  | stored d u τ hpc hf hand hrun haims => exact .same rfl rfl (Or.inl rfl)
  | storedDrops d u pc hpc hpc' htop => exact relinks_drop (Or.inl rfl) rfl rfl

theorem revocation_relinks {ids : List TaskId} (hr : Revocation h h' ids) : Relinks h h' := by
  have hlink : ∀ link : LinkStatus, link = (if h.stopped then h.link else linkIdle) →
      link.state ≠ .connected ∨ (h.stopped = true ∧ link = h.link) := by
    rintro link rfl
    cases hs : h.stopped with
    | true => exact Or.inr ⟨rfl, rfl⟩
    | false =>
      rw [if_neg (by decide)]
      exact Or.inl (by decide)
  cases hr with
  | nothing h' hh =>
    rw [hh]
    exact relinks_refl h
  | one d h' ids found store registry active loops openPairing stopped stopTx =>
    rcases active with ⟨hsame, hl⟩ | ⟨hnone, -, hl⟩
    · exact .same (by rw [hsame]) stopped (Or.inl hl)
    · exact .released hnone stopped (hlink _ hl)
  | every revoked h' ids store registry active registrations loops openPairing stopped stopTx =>
    rcases active with ⟨hsame, hl⟩ | ⟨hnone, hl⟩
    · exact .same (by rw [hsame]) stopped (Or.inl hl)
    · exact .released hnone stopped (hlink _ hl)

theorem stepped_relinks (h : Stepped s e s') : Relinks s.host s'.host ∨
    (∃ handle, e = .control (.openPairing handle) ∧ Reopened s.host s'.host) ∨
    (e = .control .stop ∧ s'.host = stop s.host s.receivers) := by
  cases h with
  | advance time => exact Or.inl (relinks_refl _)
  | moved t a s' ht hm => exact Or.inl (moved_relinks hm)
  | quiet c host ids hq => exact Or.inl (relinks_quiet hq)
  | opened handle host ids hstarted hnew hopen =>
    cases hopen with
    | opened handle host ids store active registry registrations stopped stopTx link pairing =>
      exact Or.inr (Or.inl ⟨_, rfl, active, stopped, link⟩)
  | revoked e host ids he hr => exact Or.inl (revocation_relinks hr)
  | failed request saved rotated loaded hfail => exact Or.inl (.same rfl rfl (Or.inl rfl))
  | stop => exact Or.inr (Or.inr ⟨rfl, rfl⟩)

theorem published_step (hp : Published s.host) (h : step s e = some s') : Published s'.host := by
  rcases stepped_relinks (step_stepped h) with hr | ⟨-, -, hr⟩ | ⟨-, hhost⟩
  · exact hp.relinks hr
  · exact hp.reopened hr
  · intro hc
    unfold Connected at hc
    rw [hhost] at hc
    cases hc

/-- While no claim is held the link does not say connected, and from there on it follows
the claim, if no pairing is opened while the bridge is stopped under a claim. -/
theorem agrees_run (hp : Published s.host) (hfree : s.host.active = none) {later : List Event}
    (hopen : ∀ r handle r', Occurs step s later r (.control (.openPairing handle)) r' →
      r.host.stopped = true → r.host.active = none)
    (hrun : run step s later = some s') : Agrees s'.host := by
  have hagrees : Agrees s.host := by
    refine ⟨fun hc => hp hc, ?_⟩
    rw [hfree]
    exact fun h => nomatch h.1
  refine visits_invariant (fun s => Agrees s.host) hagrees ?_ (visits_end hrun)
  intro r e r' hi hocc
  rcases stepped_relinks (step_stepped hocc.step_eq) with hr | ⟨handle, rfl, hr⟩ | ⟨-, hhost⟩
  · exact hi.relinks hr
  · exact hi.reopened (hopen r handle r' hocc) hr
  · rw [hhost]
    exact agrees_stop r.receivers

/-- The same claim, for a device that may be known by now. -/
def Persists (b : ActiveSession) (h : HostState) : Prop :=
  ∃ b', h.active = some b' ∧ b'.claimant = b.claimant ∧ b'.handle = b.handle

theorem drop_persists {b : ActiveSession} (ha : s.host.active = some b)
    (hother : (s.task t).guard = true → b.handle ≠ (s.task t).handle) :
    Persists b (s.drop t pc).host := by
  cases hguard : (s.task t).guard with
  | false =>
    rw [drop_goto hguard]
    exact ⟨b, ha, rfl, rfl⟩
  | true =>
    rw [drop_release hguard, goto_host]
    rcases releaseActive_cases s.host (s.task t).handle with ⟨a, ha', hsame, -⟩ | ⟨-, hr⟩
    · rw [ha] at ha'
      obtain rfl := Option.some.inj ha'
      exact absurd hsame (hother hguard)
    · rw [hr]
      exact ⟨b, ha, rfl, rfl⟩

/-- Two loops past their claim on one current handle are one. -/
theorem other_handle {b : ActiveSession} (hi : Claimed s) (ha : s.host.active = some b)
    (hother : b.claimant ≠ t)
    (hhandle : b.handle ≠ (s.task t).handle ∨ Current s.host b.handle)
    (hguard : (s.task t).guard = true) : b.handle ≠ (s.task t).handle := by
  intro hsame
  rcases hhandle with hne | hc
  · exact hne hsame
  · rw [hsame] at hc
    exact hother (Holds.unique ⟨b, ha, rfl⟩ (hi.current t hguard hc))

/-- A step of another loop leaves a claim in place, unless the loop has the claim's
handle and nothing else has it any more. -/
theorem moved_persists {b : ActiveSession} (hi : Claimed s) (hm : Moved s t s')
    (ha : s.host.active = some b) (hother : b.claimant ≠ t)
    (hhandle : b.handle ≠ (s.task t).handle ∨ Current s.host b.handle) : Persists b s'.host := by
  have hne : (s.task t).guard = true → b.handle ≠ (s.task t).handle :=
    other_handle hi ha hother hhandle
  cases hm with
  | goes host τ hq hf heard hand haims => exact ⟨b, hq.active.trans ha, rfl, rfl⟩
  | drops host pc hq hpc hand halive hstart htop =>
    exact drop_persists (hq.active.trans ha) hne
  | began τ hstart hkind hdevice haborted hpc hhandle => exact ⟨b, ha, rfl, rfl⟩
  | looked τ hpc hkind hkind' hdevice haborted hpc' hhandle => exact ⟨b, ha, rfl, rfl⟩
  | destroyed ids hpc hkind => exact ⟨b, ha, rfl, rfl⟩
  | claimed hpc hfree hrun => cases hfree.symm.trans ha
  | entered d e hpc hd hrun hfind hid hhandle => exact ⟨b, ha, rfl, rfl⟩
  | enrolFailed d τ hpc hkind hopen hf hpc' => exact ⟨b, ha, rfl, rfl⟩
  | enrolled d entry store τ hpc hkind hentry hopen hstore hτ =>
    have hmap : (s.host.active.map fun active : ActiveSession =>
        if active.handle == (s.task t).handle then { active with deviceId := some d } else active) =
        some (if b.handle == (s.task t).handle then { b with deviceId := some d } else b) := by
      rw [ha]
      rfl
    refine ⟨_, hmap, ?_⟩
    split
    · exact ⟨rfl, rfl⟩
    · exact ⟨rfl, rfl⟩
  | spawned d hpc => exact ⟨b, ha, rfl, rfl⟩
  | stored d u τ hpc hf hand hrun haims => exact ⟨b, ha, rfl, rfl⟩
  | storedDrops d u pc hpc hpc' htop =>
    exact drop_persists (s := { s with host := { s.host with
      registrations := (d, u) :: s.host.registrations.filter fun r => !(r.1 == d) } }) ha
      hne

theorem published_run {saved : SavedList} {keypair : Keypair} {es : List Event}
    (hv : Visits step (.start saved keypair) es s) : Published s.host := by
  refine visits_of_step (fun s => Published s.host) ?_ published_step hv
  intro hc
  cases hc

/-- In every run at most one session is served that was not told to close, and it holds
the claim; another loop does not release a claim on a current handle; and the link says
connected only under a claim while the bridge is not stopped, and always then, if no pairing
is opened while it is stopped under one. -/
theorem claim_guards_session (saved : SavedList) (keypair : Keypair) (es : List Event) :
    (∀ s, Visits step (.start saved keypair) es s → ∀ t u, Holds s t → Holds s u → t = u) ∧
    (∀ s, Visits step (.start saved keypair) es s → ∀ t id u id', Serves s t id →
      Serves s u id' → t = u ∧ id = id') ∧
    (∀ s, Visits step (.start saved keypair) es s → ∀ t id, (s.task t).running = some id →
      Holds s t ∨ s.host.registry.closes id ≠ .waiting) ∧
    (∀ s t a s' b, Occurs step (.start saved keypair) es s (.task t a) s' →
      s.host.active = some b → b.claimant ≠ t →
      (b.handle ≠ (s.task t).handle ∨ Current s.host b.handle) → Persists b s'.host) ∧
    (∀ s, Visits step (.start saved keypair) es s → Connected s.host →
      s.host.active.isSome = true ∧ s.host.stopped = false) ∧
    (∀ s, Visits step (.start saved keypair) es s → s.host.active = none →
      ∀ later, (∀ r handle r', Occurs step s later r (.control (.openPairing handle)) r' →
          r.host.stopped = true → r.host.active = none) →
        ∀ s', run step s later = some s' →
          (Connected s'.host ↔ s'.host.active.isSome = true ∧ s'.host.stopped = false)) := by
  refine ⟨?_, ?_, ?_, ?_, ?_, ?_⟩
  · intro s _ t u ht hu
    exact ht.unique hu
  · intro s hv t id u id' ht hu
    have hi := fine_run hv
    obtain rfl := (hi.claimed.serves t id ht).unique (hi.claimed.serves u id' hu)
    exact ⟨rfl, Option.some.inj (ht.1.symm.trans hu.1)⟩
  · intro s hv t id hrun
    by_cases hwaits : s.host.registry.closes id = .waiting
    · exact Or.inl ((fine_run hv).claimed.serves t id ⟨hrun, hwaits⟩)
    · exact Or.inr hwaits
  · intro s t a s' b ho ha hother hhandle
    exact moved_persists (fine_run ho.before).claimed (act_moved (step_task ho.step_eq).2) ha hother
      hhandle
  · intro s hv
    exact published_run hv
  · intro s hv hfree later hopen s' hrun
    exact agrees_run (published_run hv) hfree hopen hrun

/-- No phone in the list. -/
def nobody : SavedList where
  store := .empty
  ownHandle := List.Pairwise.nil

/-- A pairing loop comes to a handshake. -/
def handshakes (t : TaskId) : List Event :=
  [.task t .capture, .task t .subscribe, .task t .check, .task t .run, .task t .accepted,
    .task t .shaken]

/-- It enrols the phone and serves it. -/
def pairs (t : TaskId) (host : HostId) : List Event :=
  handshakes t ++ [.task t .claim, .task t (.enrol ['d'] host [] true), .task t .enter,
    .task t .listen]

/-- The phone is paired, revoked, paired again and revoked again. The loop that the first
pairing leaves takes the claim on the second one's handle before the second one ends. -/
def twice : List Event :=
  [.control (.openPairing (some 1))] ++ pairs 1 ['h'] ++ [.control (.revoke ['d'] true)] ++
    [.control (.openPairing (some 2))] ++ pairs 2 ['k'] ++
    [.task 1 .closed, .task 1 .finish, .task 1 .lookUp, .task 1 .spawn, .task 1 .store] ++
    handshakes 3 ++ [.control (.revoke ['d'] true), .task 3 .claim, .task 2 .closed,
      .task 2 .finish]

/-- The link is stopped under a claim, and idle once a pairing is opened; a session told
to close is served without the claim; and a loop releases a later claim on its handle. -/
theorem claim_and_session_part :
    (∃ s, run step (.start phone 0) (startUp ++ serves 1 ++ [.control .stop]) = some s ∧
      Holds s 1 ∧ ¬Connected s.host) ∧
    (∃ s, run step (.start phone 0) (startUp ++ serves 1 ++ [.control .stop,
        .control (.openPairing (some 2))]) = some s ∧
      Holds s 1 ∧ s.host.stopped = false ∧ ¬Connected s.host) ∧
    (∃ s, run step (.start phone 0) (startUp ++ serves 1 ++ [.control (.revoke ['d'] true)]) =
        some s ∧ (s.task 1).running = some 0 ∧ ¬Holds s 1 ∧ (step s (.task 1 .dispatch)).isSome) ∧
    (∃ s s', run step (.start nobody 0) twice = some s ∧ Holds s 3 ∧
      step s (.task 2 .lookUp) = some s' ∧ s'.host.active = none) := by
  refine ⟨⟨_, rfl, ⟨_, rfl, rfl⟩, ?_⟩, ⟨_, rfl, ⟨_, rfl, rfl⟩, rfl, ?_⟩,
    ⟨_, rfl, rfl, ?_, rfl⟩, ⟨_, _, rfl, ⟨_, rfl, rfl⟩, rfl, rfl⟩⟩
  · exact LinkState.noConfusion
  · exact LinkState.noConfusion
  · rintro ⟨a, ha, -⟩
    cases ha

end HerdrMobile.Bridge.Active
