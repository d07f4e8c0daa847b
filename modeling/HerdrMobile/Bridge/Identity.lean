import HerdrMobile.Bridge.Claims
import HerdrMobile.Bridge.Revoke

/-!
# The identity of a session

A session starts only for an entry of the list, with the entry's own Host id and
handle, and as long as it is not told to close the entry stays as it is. The one
exception is a revocation of every device that clears the list and then fails.
-/
namespace HerdrMobile.Bridge.Identity

open Lib.Run Bridge.Store Bridge.Registry Bridge.Host Bridge.Sections Bridge.Tasks Bridge.Steps
open Bridge.Owners Bridge.Claims Bridge.Revoke

set_option autoImplicit false

variable {s s' r : System} {t u : TaskId} {d : DeviceId} {id : SessionId} {e : Event}

/-- The entry of the task's device is the one the task serves. -/
def Matches (s : System) (t : TaskId) : Prop :=
  ∃ d entry, (s.task t).deviceId = some d ∧ s.host.store.find d = some entry ∧
    entry.hostId = (s.task t).hostId ∧ entry.handle = some (s.task t).handle

def Listed (s : System) : Prop := ∀ t id, Serves s t id → Matches s t

/-- The wire command clears the list and fails to rotate the keypair. -/
def Event.clearsAndFails : Event → Bool
  | .wire request saved rotated _ => rotationFails request saved rotated
  | _ => false

theorem Matches.same (hm : Matches s t) (hs : Same (s.task t) (s'.task t))
    (hstore : s'.host.store = s.host.store) : Matches s' t := by
  obtain ⟨d, entry, hd, hfind, hid, hhandle⟩ := hm
  refine ⟨d, entry, hs.1.trans hd, ?_, ?_, ?_⟩
  · rw [hstore]
    exact hfind
  · rw [hs.2.1]
    exact hid
  · rw [hs.2.2]
    exact hhandle

theorem same_goto (s : System) (u : TaskId) (pc : Pc) (t : TaskId) :
    Same (s.task t) ((s.goto u pc).task t) := by
  by_cases h : t = u
  · subst h
    rw [goto_self]
    exact ⟨rfl, rfl, rfl⟩
  · rw [goto_ne _ _ h]
    exact ⟨rfl, rfl, rfl⟩

theorem Listed.still (hi : Listed s) (hk : ∀ u, Runs (s.task u) (s'.task u))
    (hr : Fewer s.host.registry s'.host.registry) (hstore : s'.host.store = s.host.store) :
    Listed s' := by
  intro t id h
  exact (hi t id (h.back (hk t) hr)).same (hk t id h.1).2 hstore

theorem Listed.moved (hi : Listed s) (hf : Fine s) (hm : Moved s t s') : Listed s' := by
  rcases moved_proceeds hm with hp | ⟨d, entry, hd, hfind, hid, hhandle, rfl⟩
  · rcases hp.store with hstore | ⟨hguard, hrun, hopen⟩
    · exact hi.still hp.runs hp.registry hstore
    · -- The enrolling loop holds the claim, so no session is served.
      intro u id h
      have hback := h.back (hp.runs u) hp.registry
      have hholds := hf.claimed.current t hguard (Or.inr hopen)
      obtain rfl := (hf.claimed.serves u id hback).unique hholds
      cases hrun.symm.trans hback.1
  · rintro u id ⟨hrun, hwaits⟩
    by_cases h : u = t
    · subst h
      exact Matches.same ⟨d, entry, hd, hfind, hid, hhandle⟩ (same_goto s _ _ _) rfl
    · rw [goto_ne _ _ h] at hrun
      exact (hi u id ⟨hrun, (fewer_remove (by decide)).waiting id hwaits⟩).same (same_goto s _ _ _)
        rfl

/-- A session that outlives a revocation is of a device that stays in the list. -/
theorem revoke_keeps (hs : Sessions s) {host : HostState} {ids : List TaskId}
    (hr : Revocation s.host host ids) (h : Serves { s with host := host } t id)
    (hd : (s.task t).deviceId = some d) : host.store.find d = s.host.store.find d := by
  have hback : Serves s t id := h.back (Kept.refl _).runs (fewer_revocation hr)
  obtain ⟨d', hd', hmem⟩ := hs.registered t id hback
  obtain rfl : d' = d := Option.some.inj (hd'.symm.trans hd)
  have hwaits : host.registry.closes id = .waiting := h.2
  cases hr with
  | nothing host hh => rw [hh]
  | one x host ids found store registry active loops openPairing stopped stopTx =>
    rw [registry] at hwaits
    rw [store]
    refine find_without ?_
    rintro rfl
    have hclosed : (s.host.registry.closeForRevocation ⟨[d'], false⟩).closes id = .revoked :=
      closes_picked hmem (by simp [RevokeResult.names])
    cases hclosed.symm.trans hwaits
  | every revoked host ids store registry active registrations loops openPairing stopped stopTx =>
    rw [registry] at hwaits
    have hclosed : (s.host.registry.closeForRevocation ⟨revoked, true⟩).closes id = .revoked :=
      closes_picked hmem rfl
    cases hclosed.symm.trans hwaits

theorem Listed.stepped (hi : Listed s) (hf : Fine s) (h : Stepped s e s')
    (hrot : Event.clearsAndFails e = false) : Listed s' := by
  cases h with
  | advance time => exact hi
  | moved t a s' ht hm => exact hi.moved hf hm
  | quiet c host ids hq =>
    exact hi.still (fun _ => runs_abort ids (Kept.refl _).runs) (fewer_quiet hq) hq.store
  | opened handle host ids hstarted hnew hopen =>
    cases hopen with
    | opened handle host ids store active registry registrations stopped stopTx link pairing =>
      refine hi.still (fun u => runs_abort ids (kept_spawn (s := { s with
        host := host, owner := Function.update s.owner handle (some none) }) rfl u).runs) ?_ store
      show Fewer s.host.registry host.registry
      rw [registry]
      exact Fewer.refl _
  | revoked e host ids he hr =>
    have hrevoked : Listed { s with host := host } := by
      intro t id h
      have hback : Serves s t id := h.back (Kept.refl _).runs (fewer_revocation hr)
      obtain ⟨d, entry, hd, hfind, hid, hhandle⟩ := hi t id hback
      exact ⟨d, entry, hd, (revoke_keeps hf.sessions hr h hd).trans hfind, hid, hhandle⟩
    exact hrevoked.still (fun _ => runs_abort ids (Kept.refl _).runs) (Fewer.refl _) rfl
  | failed request saved rotated loaded hfail => cases hrot.symm.trans hfail
  | stop => exact hi

/-- A device leaves the list only by a revocation. -/
theorem removed_revoked (h : Stepped s e s') (hrot : Event.clearsAndFails e = false)
    (hr : Removed s s' d) :
    ∃ host ids, s' = { s with host := host }.abort ids ∧ Revocation s.host host ids := by
  have hnot : (s'.host.store.find d).isSome →
      ∃ host ids, s' = { s with host := host }.abort ids ∧ Revocation s.host host ids := by
    intro hsome
    rw [hr.2] at hsome
    cases hsome
  cases h with
  | advance time => exact hnot hr.1
  | moved t a s' ht hm =>
    rcases moved_proceeds hm with hp | ⟨x, entry, -, -, -, -, rfl⟩
    · exact hnot (hp.listed d hr.1)
    · exact hnot hr.1
  | quiet c host ids hq =>
    refine hnot ?_
    show (host.store.find d).isSome
    rw [hq.store]
    exact hr.1
  | opened handle host ids hstarted hnew hopen =>
    cases hopen with
    | opened handle host ids store active registry registrations stopped stopTx link pairing =>
      refine hnot ?_
      show (host.store.find d).isSome
      rw [store]
      exact hr.1
  | revoked e host ids he hrevoked => exact ⟨host, ids, rfl, hrevoked⟩
  | failed request saved rotated loaded hfail => cases hrot.symm.trans hfail
  | stop => exact hnot hr.1

/-- The device of a revocation is the one that left the list. -/
theorem removed_one {h h' : HostState} {x : DeviceId} (hstore : h'.store = h.store.without x)
    (hbefore : (h.store.find d).isSome) (hafter : h'.store.find d = none) : x = d := by
  by_cases heq : x = d
  · exact heq
  · rw [hstore, find_without (Ne.symm heq)] at hafter
    exact absurd hbefore (by rw [hafter]; decide)

/-- It closes the sessions of the device. -/
theorem removed_closes (h : Stepped s e s') (hrot : Event.clearsAndFails e = false)
    {session : RegisteredSession} (hmem : session ∈ s.host.registry.sessions)
    (hd : session.deviceId = some d) (hr : Removed s s' d) :
    s'.host.registry.closes session.close = .revoked := by
  obtain ⟨host, ids, rfl, hrevoked⟩ := removed_revoked h hrot hr
  have hgone : host.store.find d = none := hr.2
  show host.registry.closes session.close = .revoked
  cases hrevoked with
  | nothing host hh =>
    rw [hh] at hgone
    exact absurd hr.1 (by rw [hgone]; decide)
  | one x host ids found store registry active loops openPairing stopped stopTx =>
    obtain rfl := removed_one store hr.1 hgone
    rw [registry]
    refine closes_picked hmem ?_
    simp [RevokeResult.names, hd]
  | every revoked host ids store registry active registrations loops openPairing stopped stopTx =>
    rw [registry]
    exact closes_picked hmem rfl

/-- The number of the session is taken, and no task runs it. -/
def Over (s : System) (id : SessionId) : Prop :=
  id < s.host.registry.made ∧ ∀ t, (s.task t).running ≠ some id

theorem Over.still (hi : Over s id) (hk : ∀ u, Runs (s.task u) (s'.task u))
    (hr : Fewer s.host.registry s'.host.registry) : Over s' id := by
  refine ⟨?_, fun u h => hi.2 u (hk u id h).1⟩
  rw [hr.made]
  exact hi.1

/-- A session that is over is not taken up again. -/
theorem Over.stepped (hi : Over s id) (h : Stepped s e s') : Over s' id := by
  cases h with
  | advance time => exact hi
  | moved t a s' ht hm =>
    rcases moved_proceeds hm with hp | ⟨x, entry, -, -, -, -, rfl⟩
    · exact hi.still hp.runs hp.registry
    · refine ⟨Nat.lt_succ_of_lt hi.1, ?_⟩
      intro u hu
      by_cases h : u = t
      · subst h
        rw [goto_self] at hu
        have hnew : s.host.registry.made = id := Option.some.inj hu
        exact absurd hi.1 (by rw [hnew]; exact Nat.lt_irrefl id)
      · rw [goto_ne _ _ h] at hu
        exact hi.2 u hu
  | quiet c host ids hq =>
    exact hi.still (fun _ => runs_abort ids (Kept.refl _).runs) (fewer_quiet hq)
  | opened handle host ids hstarted hnew hopen =>
    cases hopen with
    | opened handle host ids store active registry registrations stopped stopTx link pairing =>
      refine hi.still (fun u => runs_abort ids (kept_spawn (s := { s with
        host := host, owner := Function.update s.owner handle (some none) }) rfl u).runs) ?_
      show Fewer s.host.registry host.registry
      rw [registry]
      exact Fewer.refl _
  | revoked e host ids he hr =>
    exact hi.still (fun _ => runs_abort ids (Kept.refl _).runs) (fewer_revocation hr)
  | failed request saved rotated loaded hfail =>
    exact hi.still (fun _ => runs_abort [] (Kept.refl _).runs) (Fewer.refl _)
  | stop => exact hi

/-- The session whose close signal a task observes is over. -/
theorem closed_over (hs : Sessions s) (h : step s (.task t .closed) = some s')
    (hrun : (s.task t).running = some id) : Over s' id := by
  obtain ⟨-, hact⟩ := step_task h
  have hnumber := hs.numbered t id hrun
  unfold Task.running at hrun
  split at hrun
  · next x hpc =>
    simp only [act, hpc] at hact
    cases hact
  · next x seen hpc =>
    obtain rfl := Option.some.inj hrun
    simp only [act, hpc] at hact
    split at hact
    · cases hact
    · obtain rfl := Option.some.inj hact
      refine ⟨hnumber, ?_⟩
      intro u hu
      by_cases h : u = t
      · subst h
        rw [goto_self] at hu
        cases (show none = some x from hu)
      · rw [goto_ne _ _ h] at hu
        refine h (hs.alone u t x hu ?_)
        unfold Task.running
        rw [hpc]
  · cases hrun

/-- A session that `enter` starts matches its entry. -/
theorem enter_matches (h : step s (.task t .enter) = some s') (hpc : (s'.task t).pc = .joined id) :
    Matches s' t := by
  have hact : ∃ d, (s.task t).deviceId = some d ∧ enter s t d = s' := by
    obtain ⟨-, hact⟩ := step_task h
    cases hplace : (s.task t).pc <;> simp only [act, hplace] at hact <;> try cases hact
    · split at hact
      · exact Option.map_eq_some_iff.mp hact
      · cases hact
    · exact Option.map_eq_some_iff.mp hact
  obtain ⟨d, hd, rfl⟩ := hact
  unfold enter at hpc ⊢
  split at hpc
  · next x host hs =>
    obtain ⟨-, ⟨entry, hfind, hid, hhandle⟩, rfl, rfl⟩ := registerSession_some hs
    exact Matches.same ⟨d, entry, hd, hfind, hid, hhandle⟩ (same_goto s _ _ _) rfl
  · unfold served at hpc
    split at hpc
    · rw [drop_pc] at hpc
      cases hpc
    · rw [goto_self] at hpc
      cases hpc

theorem listed_run {saved : SavedList} {keypair : Keypair} {es : List Event}
    (hrot : ∀ s e s', Occurs step (.start saved keypair) es s e s' →
      Event.clearsAndFails e = false) (hv : Visits step (.start saved keypair) es s) :
    Listed s := by
  have hboth : Fine s ∧ Listed s := by
    refine visits_invariant (fun s => Fine s ∧ Listed s) ⟨fine_start saved keypair, ?_⟩ ?_ hv
    · rintro t id ⟨hrun, -⟩
      rw [(start_idle saved keypair t).2] at hrun
      cases hrun
    · intro s e s' hi ho
      exact ⟨hi.1.step ho.step_eq, hi.2.stepped hi.1 (step_stepped ho.step_eq) (hrot s e s' ho)⟩
  exact hboth.2

/-- In every run without such a failed revocation, a session starts for the entry of its
device, is served only as long as that entry stays, is closed when its device is removed,
and is not served again once it has observed that. -/
theorem sessions_follow_list (saved : SavedList) (keypair : Keypair) (es : List Event)
    (hrot : ∀ s e s', Occurs step (.start saved keypair) es s e s' →
      Event.clearsAndFails e = false) :
    (∀ s t s' id, Occurs step (.start saved keypair) es s (.task t .enter) s' →
      (s'.task t).pc = .joined id → Matches s' t) ∧
    (∀ s, Visits step (.start saved keypair) es s → ∀ t id, Serves s t id → Matches s t) ∧
    (∀ s e s', Occurs step (.start saved keypair) es s e s' →
      ∀ session ∈ s.host.registry.sessions, ∀ d, session.deviceId = some d → Removed s s' d →
        s'.host.registry.closes session.close = .revoked) ∧
    (∀ s t s' id, Occurs step (.start saved keypair) es s (.task t .closed) s' →
      (s.task t).running = some id → ∀ later r, run step s' later = some r →
        ∀ u, (r.task u).running ≠ some id) := by
  refine ⟨?_, ?_, ?_, ?_⟩
  · intro s t s' id ho hpc
    exact enter_matches ho.step_eq hpc
  · intro s hv
    exact listed_run hrot hv
  · intro s e s' ho session hmem d hd hr
    exact removed_closes (step_stepped ho.step_eq) (hrot s e s' ho) hmem hd hr
  · intro s t s' id ho hrun later r hlater
    have hover : Over s' id := closed_over (fine_run ho.before).sessions ho.step_eq hrun
    have hend : Over r id :=
      visits_of_step (Over · id) hover (fun hi h => hi.stepped (step_stepped h)) (visits_end hlater)
    exact hend.2

/-- The phone is served, and serving it is all the run does. -/
theorem sessions_follow_list_served :
    ∃ s, run step (.start phone 0) (startUp ++ serves 1) = some s ∧ Serves s 1 0 ∧ Matches s 1 := by
  have hquiet : ∀ e ∈ startUp ++ serves 1, Event.clearsAndFails e = false := by decide
  have hfollow := (sessions_follow_list phone 0 (startUp ++ serves 1) (by
    rintro s e s' ⟨pre, post, hes, -, -⟩
    apply hquiet e
    rw [hes]
    exact List.mem_append_right pre List.mem_cons_self)).2.1
  refine ⟨_, rfl, ⟨rfl, ?_⟩, ?_⟩
  · decide
  · exact hfollow _ (visits_end rfl) 1 0 ⟨rfl, by decide⟩

/-- After the failed revocation of the phone its session is not closed and goes on. -/
theorem failed_rotation_dispatches :
    ∃ s s', run step (.start phone 0) (startUp ++ serves 1) = some s ∧
      step s (.wire revokeEvery true false none) = some s' ∧
      (∃ session ∈ s.host.registry.sessions, session.deviceId = some ['d'] ∧
        Removed s s' ['d'] ∧ s'.host.registry.closes session.close ≠ .revoked) ∧
      (step s' (.task 1 .dispatch)).isSome := by
  refine ⟨_, _, rfl, rfl, ⟨_, List.mem_cons_self, rfl, ⟨rfl, rfl⟩, ?_⟩, rfl⟩
  decide

end HerdrMobile.Bridge.Identity
