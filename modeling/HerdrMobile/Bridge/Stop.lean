import HerdrMobile.Bridge.Claims
import HerdrMobile.Bridge.Revoke

/-!
# The stop signal

A session subscribes to the signal after it is registered, and a subscriber counts
what was sent before as seen. A `stop` in between is missed.
-/
namespace HerdrMobile.Bridge.Stop

open Lib.Run Bridge.Store Bridge.Registry Bridge.Host Bridge.Sections Bridge.Tasks Bridge.Steps
open Bridge.Owners Bridge.Claims Bridge.Revoke

set_option autoImplicit false

variable {s s' : System} {t u : TaskId} {id : SessionId} {seen : Nat} {pc : Pc} {e : Event}
  {version : Nat} {τ τ' : Task}

/-- The session of the task listens, and a stop it has not seen is on the channel. -/
def Told (s : System) (t : TaskId) : Prop :=
  ∃ id seen, (s.task t).pc = .serving id seen ∧ seen ≠ s.host.stopTx.version

/-- No session has seen more than was sent. -/
def Heeds (s : System) : Prop :=
  ∀ t id seen, (s.task t).pc = .serving id seen → seen ≤ s.host.stopTx.version

theorem heard_refl (version : Nat) (τ : Task) : Heard version τ τ :=
  ⟨fun _ h => h, fun _ _ h => Or.inl h⟩

theorem heard_set (h : Heard version (s.task t) τ) (u : TaskId) :
    Heard version (s.task u) ((s.set t τ).task u) := by
  by_cases heq : u = t
  · subst heq
    rw [set_self]
    exact h
  · rw [set_ne s τ heq]
    exact heard_refl version _

theorem heard_abort (ids : List TaskId) (h : Heard version τ (s.task u)) :
    Heard version τ ((s.abort ids).task u) := by
  rw [abort_task]
  exact h

theorem heard_spawn (hτ : τ.running = none) (u : TaskId) :
    Heard version (s.task u) ((s.spawn τ).task u) := by
  by_cases h : u = s.made
  · subst h
    rw [spawn_self]
    exact heard_of hτ
  · rw [spawn_ne s τ h]
    exact heard_refl version _

theorem spawn_serving (hτ : τ.running = none) (h : ((s.spawn τ).task u).pc = .serving id seen) :
    (s.task u).pc = .serving id seen := by
  by_cases heq : u = s.made
  · subst heq
    rw [spawn_self] at h
    unfold Task.running at hτ
    rw [h] at hτ
    cases hτ
  · rw [spawn_ne s τ heq] at h
    exact h

theorem heard_drop (hpc : pc = .top ∨ pc = .ended) (u : TaskId) :
    Heard version (s.task u) ((s.drop t pc).task u) := by
  by_cases h : u = t
  · subst h
    refine heard_of (running_free ?_)
    rw [drop_pc]
    exact free_gone hpc
  · rw [drop_ne s pc h]
    exact heard_refl version _

theorem drop_stop (s : System) (t : TaskId) (pc : Pc) :
    (s.drop t pc).host.stopTx = s.host.stopTx ∧ (s.drop t pc).host.stopped = s.host.stopped := by
  unfold System.drop
  split
  · obtain ⟨-, -, -, -, hstopped, hstopTx⟩ := releaseActive_rest s.host (s.task t).handle
    exact ⟨hstopTx, hstopped⟩
  · exact ⟨rfl, rfl⟩

/-- What a step does to the sessions and the stop, as long as none is registered. -/
structure Hears (s s' : System) : Prop where
  heard : ∀ u, Heard s.host.stopTx.version (s.task u) (s'.task u)
  stopTx : s'.host.stopTx = s.host.stopTx
  stopped : s'.host.stopped = s.host.stopped

theorem moved_hears (hm : Moved s t s') : Hears s s' ∨
    (s.host.stopped = false ∧ s'.host.stopTx = s.host.stopTx ∧
      ∀ u id seen, (s'.task u).pc = .serving id seen → (s.task u).pc = .serving id seen) := by
  cases hm with
  | goes host τ hq hf heard hand haims => exact Or.inl ⟨heard_set heard, hq.stopTx, hq.stopped⟩
  | drops host pc hq hpc hand halive hstart htop =>
    obtain ⟨hstopTx, hstopped⟩ := drop_stop { s with host := host } t pc
    exact Or.inl ⟨heard_drop hpc, hstopTx.trans hq.stopTx, hstopped.trans hq.stopped⟩
  | began τ hstart hkind hdevice haborted hpc hhandle =>
    refine Or.inl ⟨heard_set (heard_of (running_free ?_)), rfl, rfl⟩
    rcases hpc with h | h
    · rw [h]
      rfl
    · rw [h]
      rfl
  | looked τ hpc hkind hkind' hdevice haborted hpc' hhandle =>
    refine Or.inl ⟨heard_set (heard_of (running_free ?_)), rfl, rfl⟩
    rw [hpc']
    rfl
  | destroyed ids hpc hkind =>
    exact Or.inl ⟨fun u => heard_abort ids (heard_set (heard_of rfl) u), rfl, rfl⟩
  | claimed hpc hfree hrun => exact Or.inl ⟨heard_set (heard_of rfl), rfl, rfl⟩
  | entered d e hpc hd hrun hfind hid hhandle =>
    refine Or.inr ⟨hrun, rfl, ?_⟩
    intro u id seen h
    by_cases heq : u = t
    · subst heq
      rw [goto_self] at h
      cases h
    · rw [goto_ne _ _ heq] at h
      exact h
  | enrolFailed d τ hpc hkind hopen hf hpc' =>
    refine Or.inl ⟨fun u => heard_abort _ (heard_set (heard_of ?_) u), rfl, rfl⟩
    unfold Task.running
    rw [hpc']
  | enrolled d entry store τ hpc hkind hentry hopen hstore hτ =>
    refine Or.inl ⟨fun u => heard_abort _ (heard_set (heard_of ?_) u), rfl, rfl⟩
    unfold Task.running
    rw [hτ.1]
  | spawned d hpc =>
    refine Or.inl ⟨fun u => ?_, rfl, rfl⟩
    by_cases h : u = t
    · subst h
      rw [goto_self]
      exact heard_of rfl
    · rw [goto_ne _ _ h]
      exact heard_spawn rfl u
  | stored d u τ hpc hf hand hrun haims => exact Or.inl ⟨heard_set (heard_of hrun), rfl, rfl⟩
  | storedDrops d u pc hpc hpc' htop =>
    obtain ⟨hstopTx, hstopped⟩ := drop_stop { s with host := { s.host with
      registrations := (d, u) :: s.host.registrations.filter fun r => !(r.1 == d) } } t pc
    exact Or.inl ⟨heard_drop hpc', hstopTx, hstopped⟩

theorem revocation_stop {h h' : HostState} {ids : List TaskId} (hr : Revocation h h' ids) :
    h'.stopTx = h.stopTx ∧ h'.stopped = h.stopped := by
  cases hr with
  | nothing h' hh =>
    rw [hh]
    exact ⟨rfl, rfl⟩
  | one d h' ids found store registry active loops openPairing stopped stopTx =>
    exact ⟨stopTx, stopped⟩
  | every revoked h' ids store registry active registrations loops openPairing stopped stopTx =>
    exact ⟨stopTx, stopped⟩

theorem send_version (c : StopChannel) (receivers value : Bool) :
    c.version ≤ (c.send receivers value).version := by
  unfold StopChannel.send
  split
  · exact Nat.le_succ _
  · exact Nat.le_refl _

theorem Heeds.later (hi : Heeds s)
    (hpc : ∀ u id seen, (s'.task u).pc = .serving id seen → (s.task u).pc = .serving id seen)
    (hv : s.host.stopTx.version ≤ s'.host.stopTx.version) : Heeds s' :=
  fun u id seen h => Nat.le_trans (hi u id seen (hpc u id seen h)) hv

theorem Heeds.hears (hi : Heeds s) (hh : Hears s s') : Heeds s' := by
  intro u id seen h
  rw [hh.stopTx]
  rcases (hh.heard u).2 id seen h with hold | ⟨-, hnew⟩
  · exact hi u id seen hold
  · exact Nat.le_of_eq hnew

theorem Heeds.step (hi : Heeds s) (h : Tasks.step s e = some s') : Heeds s' := by
  cases step_stepped h with
  | advance time => exact hi
  | moved t a s' ht hm =>
    rcases moved_hears hm with hh | ⟨-, hstopTx, hpc⟩
    · exact hi.hears hh
    · exact hi.later hpc (Nat.le_of_eq (by rw [hstopTx]))
  | quiet c host ids hq =>
    exact hi.hears ⟨fun _ => heard_abort ids (heard_refl _ _), hq.stopTx, hq.stopped⟩
  | opened handle host ids hstarted hnew hopen =>
    cases hopen with
    | opened handle host ids store active registry registrations stopped stopTx link pairing =>
      refine Heeds.later hi ?_ ?_
      · intro u id seen h
        rw [abort_task] at h
        exact spawn_serving (s := { s with
          host := host, owner := Function.update s.owner handle (some none) }) rfl h
      · show s.host.stopTx.version ≤ host.stopTx.version
        rw [stopTx]
        split
        · exact send_version _ _ _
        · exact Nat.le_refl _
  | revoked e host ids he hr =>
    obtain ⟨hstopTx, hstopped⟩ := revocation_stop hr
    exact hi.hears ⟨fun _ => heard_abort ids (heard_refl _ _), hstopTx, hstopped⟩
  | failed request saved rotated loaded hfail =>
    exact hi.hears ⟨fun _ => heard_abort [] (heard_refl _ _), rfl, rfl⟩
  | stop => exact hi.later (fun _ _ _ h => h) (send_version _ _ _)

theorem heeds_run {saved : SavedList} {keypair : Keypair} {es : List Event}
    (hv : Visits step (.start saved keypair) es s) : Heeds s := by
  refine visits_of_step Heeds ?_ Heeds.step hv
  intro t id seen h
  have hidle := (start_idle saved keypair t).2
  unfold Task.running at hidle
  rw [h] at hidle
  cases hidle

/-- The bridge is stopped, no session is about to subscribe, and each one that listens
has a stop before it. -/
structure Stopped (s : System) : Prop where
  stopped : s.host.stopped = true
  joined : ∀ t id, (s.task t).pc ≠ .joined id
  pending : ∀ t id seen, (s.task t).pc = .serving id seen → seen < s.host.stopTx.version

theorem Stopped.hears (hi : Stopped s) (hh : Hears s s') : Stopped s' where
  stopped := hh.stopped.trans hi.stopped
  joined := fun t id h => hi.joined t id ((hh.heard t).1 id h)
  pending := by
    intro t id seen h
    rw [hh.stopTx]
    rcases (hh.heard t).2 id seen h with hold | ⟨hnew, -⟩
    · exact hi.pending t id seen hold
    · exact absurd hnew (hi.joined t id)

theorem Stopped.step (hi : Stopped s) (h : Tasks.step s e = some s')
    (hopen : ∀ minted, e ≠ .control (.openPairing minted)) : Stopped s' := by
  cases step_stepped h with
  | advance time => exact ⟨hi.stopped, hi.joined, hi.pending⟩
  | moved t a s' ht hm =>
    rcases moved_hears hm with hh | ⟨hrun, -, -⟩
    · exact hi.hears hh
    · cases hi.stopped.symm.trans hrun
  | quiet c host ids hq =>
    exact hi.hears ⟨fun _ => heard_abort ids (heard_refl _ _), hq.stopTx, hq.stopped⟩
  | opened handle host ids hstarted hnew hopened => exact absurd rfl (hopen _)
  | revoked e host ids he hr =>
    obtain ⟨hstopTx, hstopped⟩ := revocation_stop hr
    exact hi.hears ⟨fun _ => heard_abort ids (heard_refl _ _), hstopTx, hstopped⟩
  | failed request saved rotated loaded hfail =>
    exact hi.hears ⟨fun _ => heard_abort [] (heard_refl _ _), rfl, rfl⟩
  | stop =>
    refine ⟨rfl, hi.joined, ?_⟩
    intro t id seen h
    exact Nat.lt_of_lt_of_le (hi.pending t id seen h) (send_version _ _ _)

theorem Stopped.told (hi : Stopped s) (hrun : (s.task t).running = some id) : Told s t := by
  unfold Task.running at hrun
  split at hrun
  · next x hpc => exact absurd hpc (hi.joined t x)
  · next x seen hpc => exact ⟨x, seen, hpc, Nat.ne_of_lt (hi.pending t x seen hpc)⟩
  · cases hrun

theorem stop_eq (h : step s (.control .stop) = some s') :
    s' = { s with host := stop s.host s.receivers } :=
  (Option.some.inj (step_control h).2).symm

/-- A session that listens keeps a receiver of the channel. -/
theorem serving_receives (ho : Owned s) (h : (s.task t).pc = .serving id seen) :
    s.receivers = true := by
  unfold System.receivers
  rw [List.any_eq_true]
  have ht : t < s.made := by
    by_contra hnot
    rw [ho.beyond t (Nat.le_of_not_lt hnot)] at h
    cases h
  refine ⟨t, List.mem_range.mpr ht, ?_⟩
  unfold Task.listens
  rw [h]
  cases hkind : (s.task t).kind with
  | registration => rfl
  | pairing => rfl
  | startup rest =>
    have hstarting := (ho.known t).startup rest hkind
    rw [h] at hstarting
    cases hstarting

theorem stopped_after (ho : Owned s) (hi : Heeds s) (hjoined : ∀ t id, (s.task t).pc ≠ .joined id) :
    Stopped { s with host := stop s.host s.receivers } where
  stopped := rfl
  joined := hjoined
  pending := by
    intro t id seen h
    have hreceives := serving_receives ho h
    have hsent : (stop s.host s.receivers).stopTx.version = s.host.stopTx.version + 1 := by
      unfold stop StopChannel.send
      rw [hreceives]
      rfl
    show seen < (stop s.host s.receivers).stopTx.version
    rw [hsent]
    exact Nat.lt_succ_of_le (hi t id seen h)

/-- Until a pairing is opened again every session that runs has the stop before it, if
and only if no session was registered and not yet listening when it was commanded. -/
theorem stop_reaches_iff (saved : SavedList) (keypair : Keypair) (es : List Event) {s s₁ : System}
    (hr : run step (.start saved keypair) es = some s)
    (hs : step s (.control .stop) = some s₁) :
    (∀ later s', run step s₁ later = some s' →
      (∀ e ∈ later, ∀ minted, e ≠ .control (.openPairing minted)) →
      ∀ t id, (s'.task t).running = some id → Told s' t) ↔
    ∀ t id, (s.task t).pc ≠ .joined id := by
  have hv : Visits step (.start saved keypair) es s := visits_end hr
  obtain rfl := stop_eq hs
  constructor
  · intro htold t id hpc
    have hrun : (s.task t).running = some id := by
      unfold Task.running
      rw [hpc]
    obtain ⟨x, seen, hserving, -⟩ := htold [] _ rfl (fun _ h => absurd h List.not_mem_nil) t id hrun
    cases hpc.symm.trans hserving
  · intro hjoined later s' hlater hopen t id hrun
    have hstopped := stopped_after (fine_run hv).owned (heeds_run hv) hjoined
    have hend : Stopped s' := by
      refine visits_invariant Stopped hstopped ?_ (visits_end hlater)
      rintro r e r' hi ⟨pre, post, heq, -, hstep⟩
      refine hi.step hstep (hopen e ?_)
      rw [heq]
      exact List.mem_append_right pre List.mem_cons_self
    exact hend.told hrun

/-- The phone is served when the stop comes, so it is told. -/
theorem stop_reaches_served :
    ∃ s s₁, run step (.start phone 0) (startUp ++ serves 1) = some s ∧
      step s (.control .stop) = some s₁ ∧
      ((∀ later s', run step s₁ later = some s' →
        (∀ e ∈ later, ∀ minted, e ≠ .control (.openPairing minted)) →
        ∀ t id, (s'.task t).running = some id → Told s' t) ↔
      ∀ t id, (s.task t).pc ≠ .joined id) :=
  ⟨_, _, rfl, rfl, stop_reaches_iff phone 0 (startUp ++ serves 1) rfl rfl⟩

/-- A stop between the registration and the subscription is missed: the bridge is stopped
and the phone goes on being served. -/
theorem stop_before_listening_missed :
    ∃ s, run step (.start phone 0) (startUp ++ (serves 1).dropLast ++
        [.control .stop, .task 1 .listen]) = some s ∧
      s.host.stopped = true ∧ (s.task 1).running = some 0 ∧ ¬Told s 1 ∧
      (step s (.task 1 .stopped)).isNone ∧ (step s (.task 1 .dispatch)).isSome := by
  refine ⟨_, rfl, rfl, rfl, ?_, rfl, rfl⟩
  rintro ⟨id, seen, hpc, hne⟩
  cases hpc
  exact hne rfl

end HerdrMobile.Bridge.Stop
