import HerdrMobile.Bridge.Sections
import HerdrMobile.Bridge.Tasks

/-!
# What a step of a task can do

One inversion of `act`: the task goes on over a quiet section, or it captures,
claims, registers, enrols, spawns, or drops its claim.
-/
namespace HerdrMobile.Bridge.Steps

open Proto.Codes Bridge.Store Bridge.Registry Bridge.Host Bridge.Sections Bridge.Tasks

set_option autoImplicit false

variable {s s' : System} {t u : TaskId} {d : DeviceId} {id : SessionId} {pc : Pc}

@[simp] theorem set_self (s : System) (t : TaskId) (task : Task) : (s.set t task).task t = task :=
  Function.update_self _ _ _

theorem set_ne (s : System) (task : Task) (h : u ≠ t) : (s.set t task).task u = s.task u :=
  Function.update_of_ne h _ _

@[simp] theorem set_task (s : System) (t : TaskId) : s.set t (s.task t) = s := by
  unfold System.set
  rw [Function.update_eq_self]

@[simp] theorem goto_host (s : System) (t : TaskId) (pc : Pc) : (s.goto t pc).host = s.host := rfl

@[simp] theorem goto_self (s : System) (t : TaskId) (pc : Pc) :
    (s.goto t pc).task t = { s.task t with pc := pc } := set_self s t _

theorem goto_ne (s : System) (pc : Pc) (h : u ≠ t) : (s.goto t pc).task u = s.task u :=
  set_ne s _ h

@[simp] theorem spawn_self (s : System) (τ : Task) : (s.spawn τ).task s.made = τ :=
  Function.update_self _ _ _

theorem spawn_ne (s : System) (τ : Task) (h : u ≠ s.made) : (s.spawn τ).task u = s.task u :=
  Function.update_of_ne h _ _

theorem drop_goto (h : (s.task t).guard = false) : s.drop t pc = s.goto t pc := by
  unfold System.drop
  rw [h, if_neg (by decide)]

theorem drop_release (h : (s.task t).guard = true) :
    s.drop t pc = { s with host := releaseActive s.host (s.task t).handle }.goto t pc := by
  unfold System.drop
  rw [h, if_pos rfl]

/-- The places of a pairing loop past its check of the open pairing. -/
def Pc.looked : Pc → Bool
  | .start | .captured | .top | .ended => false
  | _ => true

/-- The places of a pairing loop past the enrolment of its device. -/
def Pc.late : Pc → Bool
  | .enrolled | .joined _ | .serving _ _ | .ending _ | .lookUp _ | .usable _ | .spawned _ _
  | .ended => true
  | _ => false

/-- The places of the start of the bridge. -/
def Pc.starting : Pc → Bool
  | .lookUp _ | .usable _ | .spawned _ _ | .ended => true
  | _ => false

/-- The devices whose loops the task is going to spawn. -/
def aims (τ : Task) : List DeviceId :=
  match τ.kind, τ.pc with
  | .startup rest, .lookUp d | .startup rest, .usable d | .startup rest, .spawned d _ => d :: rest
  | .pairing, .lookUp d | .pairing, .usable d | .pairing, .spawned d _ => [d]
  | .pairing, .enrolled | .pairing, .joined _ | .pairing, .serving _ _ | .pairing, .ending _ =>
    τ.deviceId.toList
  | _, _ => []

/-- The task goes on, with its claim if it has one, and comes to run no session. -/
structure Follows (τ τ' : Task) : Prop where
  registration : τ'.kind = .registration ↔ τ.kind = .registration
  pairing : τ'.kind = .pairing ↔ τ.kind = .pairing
  deviceId : τ'.deviceId = τ.deviceId
  hostId : τ'.hostId = τ.hostId
  handle : τ'.handle = τ.handle
  aborted : τ'.aborted = τ.aborted
  guard : τ'.guard = τ.guard
  begun : τ.pc ≠ .start ∧ τ'.pc ≠ .start
  alive : τ.pc ≠ .ended
  looked : τ.kind = .pairing → Pc.looked τ'.pc = true → Pc.looked τ.pc = true
  settled : τ.again = false → Pc.late τ.pc = true → τ'.again = false ∧ Pc.late τ'.pc = true
  startup : τ.kind ≠ .pairing → Pc.starting τ.pc = true → Pc.starting τ'.pc = true
  plain : τ.kind = .registration → Pc.starting τ'.pc = true →
    τ'.pc = .ended ∨ Pc.starting τ.pc = true
  running : ∀ id, τ'.running = some id → τ.running = some id

/-- The task comes to aim at no other device. -/
def Aims (τ τ' : Task) : Prop :=
  Pc.starting τ.pc = true ∨ τ.kind = .pairing → (aims τ').Sublist (aims τ)

/-- A session that runs has heard of every `stop` since it subscribed. -/
def Heard (version : Nat) (τ τ' : Task) : Prop :=
  (∀ id, τ'.pc = .joined id → τ.pc = .joined id) ∧
  ∀ id seen, τ'.pc = .serving id seen →
    τ.pc = .serving id seen ∨ (τ.pc = .joined id ∧ seen = version)

inductive Moved (s : System) (t : TaskId) : System → Prop where
  | goes (host : HostState) (τ : Task) (hq : Quiet s.host host) (hf : Follows (s.task t) τ)
      (heard : Heard s.host.stopTx.version (s.task t) τ)
      (hand : ∀ d u, τ.pc = .spawned d u ↔ (s.task t).pc = .spawned d u)
      (haims : Aims (s.task t) τ) : Moved s t ({ s with host := host }.set t τ)
  | drops (host : HostState) (pc : Pc) (hq : Quiet s.host host) (hpc : pc = .top ∨ pc = .ended)
      (hand : ∀ d u, (s.task t).pc ≠ .spawned d u) (halive : (s.task t).pc ≠ .ended)
      (hstart : (s.task t).pc = .start → pc = .ended)
      (htop : pc = .top → (s.task t).kind = .registration ∨ (s.task t).pc = .claimed ∨
        ((s.task t).kind = .pairing ∧ (s.task t).again = true)) :
      Moved s t ({ s with host := host }.drop t pc)
  | began (τ : Task) (hstart : (s.task t).pc = .start) (hkind : τ.kind = (s.task t).kind)
      (hdevice : τ.deviceId = (s.task t).deviceId) (haborted : τ.aborted = (s.task t).aborted)
      (hpc : τ.pc = .captured ∨ τ.pc = .ended)
      (hhandle : τ.pc = .captured → ∀ d, τ.deviceId = some d → τ.kind = .registration →
        ∃ e, s.host.store.find d = some e ∧ e.handle = some τ.handle) :
      Moved s t (s.set t τ)
  | looked (τ : Task) (hpc : (s.task t).pc = .top) (hkind : (s.task t).kind ≠ .registration)
      (hkind' : τ.kind = (s.task t).kind) (hdevice : τ.deviceId = (s.task t).deviceId)
      (haborted : τ.aborted = (s.task t).aborted) (hpc' : τ.pc = .waiting)
      (hhandle : pairingHandle s.host = some τ.handle) : Moved s t (s.set t τ)
  | destroyed (ids : List TaskId) (hpc : (s.task t).pc = .top)
      (hkind : (s.task t).kind ≠ .registration) :
      Moved s t (({ s with host := { s.host with openPairing := none } }.goto t .ended).abort ids)
  | claimed (hpc : (s.task t).pc = .connected) (hfree : s.host.active = none)
      (hrun : s.host.stopped = false) :
      Moved s t ({ s with host := { s.host with
        active := some ⟨(s.task t).deviceId, (s.task t).handle, t⟩
        link := linkConnected } }.goto t .claimed)
  | entered (d : DeviceId) (e : PairedDevice) (hpc : (s.task t).pc = .claimed ∧
        (s.task t).kind = .registration ∨ (s.task t).pc = .enrolled)
      (hd : (s.task t).deviceId = some d) (hrun : s.host.stopped = false)
      (hfind : s.host.store.find d = some e) (hid : e.hostId = (s.task t).hostId)
      (hhandle : e.handle = some (s.task t).handle) :
      Moved s t ({ s with host := { s.host with
        registry := (s.host.registry.register (s.task t).handle (some d)).2 } }.goto t
          (.joined s.host.registry.made))
  | enrolFailed (d : DeviceId) (τ : Task) (hpc : (s.task t).pc = .claimed)
      (hkind : (s.task t).kind = .pairing) (hopen : pairingHandle s.host = some (s.task t).handle)
      (hf : Follows (s.task t) τ) (hpc' : τ.pc = .lookUp d) :
      Moved s t (({ s with host := (removeRegistration s.host d).1 }.set t τ).abort
        (removeRegistration s.host d).2)
  | enrolled (d : DeviceId) (entry : PairedDevice) (store : DeviceStore) (τ : Task)
      (hpc : (s.task t).pc = .claimed) (hkind : (s.task t).kind = .pairing)
      (hentry : entry.deviceId = d ∧ entry.handle = some (s.task t).handle)
      (hopen : pairingHandle s.host = some (s.task t).handle)
      (hstore : s.host.store.add entry true = some store)
      (hτ : τ.pc = .enrolled ∧ τ.kind = .pairing ∧ τ.deviceId = some d ∧
        τ.handle = (s.task t).handle ∧ τ.aborted = (s.task t).aborted ∧ τ.again = false) :
      Moved s t (({ s with
        host := { (removeRegistration s.host d).1 with
          store := store
          openPairing := none
          active := s.host.active.map fun active : ActiveSession =>
            if active.handle == (s.task t).handle then { active with deviceId := some d }
            else active }
        owner := Function.update s.owner (s.task t).handle (some (some d)) }.set t τ).abort
          (removeRegistration s.host d).2)
  | spawned (d : DeviceId) (hpc : (s.task t).pc = .usable d) :
      Moved s t ((s.spawn (.new .registration .start (some d))).goto t (.spawned d s.made))
  | stored (d : DeviceId) (u : TaskId) (τ : Task) (hpc : (s.task t).pc = .spawned d u)
      (hf : Follows (s.task t) τ) (hand : ∀ d u, τ.pc ≠ .spawned d u) (hrun : τ.running = none)
      (haims : aims (s.task t) = d :: aims τ) :
      Moved s t ({ s with host := { s.host with
        registrations := (d, u) :: s.host.registrations.filter fun r => !(r.1 == d) } }.set t τ)
  | storedDrops (d : DeviceId) (u : TaskId) (pc : Pc) (hpc : (s.task t).pc = .spawned d u)
      (hpc' : pc = .top ∨ pc = .ended) (htop : pc = .top → (s.task t).kind = .registration ∨
        ((s.task t).kind = .pairing ∧ (s.task t).again = true)) :
      Moved s t ({ s with host := { s.host with
        registrations := (d, u) :: s.host.registrations.filter fun r => !(r.1 == d) } }.drop t pc)

section Places

variable {τ : Task}

/-- Where no loop holds its claim. -/
def Pc.free : Pc → Bool
  | .claimed | .enrolled | .joined _ | .serving _ _ | .ending _ | .lookUp _ | .usable _
  | .spawned _ _ => false
  | _ => true

theorem guard_free (h : Pc.free τ.pc = true) : τ.guard = false := by
  obtain ⟨kind, pc, _, _, _, _, _, _, _, _⟩ := τ
  cases pc <;> cases kind <;> first | rfl | cases h

theorem running_free (h : Pc.free τ.pc = true) : τ.running = none := by
  obtain ⟨kind, pc, _, _, _, _, _, _, _, _⟩ := τ
  cases pc <;> first | rfl | cases h

theorem free_begun (h : pc = .captured ∨ pc = .ended) : Pc.free pc = true := by
  rcases h with rfl | rfl <;> rfl

theorem starting_entering {P : Prop} (h : pc = .claimed ∧ P ∨ pc = .enrolled) :
    Pc.starting pc = false := by
  rcases h with ⟨rfl, -⟩ | rfl <;> rfl

theorem starting_free (h : Pc.free pc = true) (halive : pc ≠ .ended) : Pc.starting pc = false := by
  cases pc <;> first | cases h <;> rfl | exact absurd rfl halive

theorem starting_free_ended (h : Pc.free pc = true) (hs : Pc.starting pc = true) : pc = .ended := by
  by_cases halive : pc = .ended
  · exact halive
  · rw [starting_free h halive] at hs
    cases hs

theorem aims_free (h : Pc.free τ.pc = true) : aims τ = [] := by
  obtain ⟨kind, pc, _, _, _, _, _, _, _, _⟩ := τ
  cases pc <;> cases kind <;> first | rfl | cases h

theorem late_free (h : Pc.free pc = true) (halive : pc ≠ .ended) : Pc.late pc = false := by
  cases pc <;> first | cases h <;> rfl | exact absurd rfl halive

/-- From a place without a claim to another one. -/
theorem follows_free {τ' : Task} (h : Pc.free τ.pc = true) (h' : Pc.free τ'.pc = true)
    (hsame : τ'.kind = τ.kind ∧ τ'.deviceId = τ.deviceId ∧ τ'.hostId = τ.hostId ∧
      τ'.handle = τ.handle ∧ τ'.aborted = τ.aborted)
    (hbegun : τ.pc ≠ .start ∧ τ'.pc ≠ .start) (halive : τ.pc ≠ .ended)
    (hlook : τ.kind = .pairing → Pc.looked τ'.pc = true → Pc.looked τ.pc = true) :
    Follows τ τ' := by
  obtain ⟨hkind, hdevice, hhost, hhandle, haborted⟩ := hsame
  refine ⟨by rw [hkind], by rw [hkind], hdevice, hhost, hhandle, haborted, ?_, hbegun, halive, hlook,
    ?_, ?_, fun _ hs => Or.inl (starting_free_ended h' hs), ?_⟩
  · rw [guard_free h, guard_free h']
  · intro _ hlate
    rw [late_free h halive] at hlate
    cases hlate
  · intro _ hstarting
    rw [starting_free h halive] at hstarting
    cases hstarting
  · intro id hid
    rw [running_free h'] at hid
    cases hid

theorem heard_of {τ' : Task} {version : Nat} (h : τ'.running = none) : Heard version τ τ' := by
  constructor
  · intro id hpc
    unfold Task.running at h
    rw [hpc] at h
    cases h
  · intro id seen hpc
    unfold Task.running at h
    rw [hpc] at h
    cases h

theorem hand_free {τ' : Task} (h : Pc.free τ.pc = true) (h' : Pc.free τ'.pc = true) (d : DeviceId)
    (u : TaskId) : τ'.pc = .spawned d u ↔ τ.pc = .spawned d u := by
  constructor
  · intro hpc
    rw [hpc] at h'
    cases h'
  · intro hpc
    rw [hpc] at h
    cases h

end Places

/-- A quiet step between two places without a claim. -/
theorem moved_free {host : HostState} {τ : Task} (hq : Quiet s.host host)
    (h : Pc.free (s.task t).pc = true) (h' : Pc.free τ.pc = true)
    (hsame : τ.kind = (s.task t).kind ∧ τ.deviceId = (s.task t).deviceId ∧
      τ.hostId = (s.task t).hostId ∧ τ.handle = (s.task t).handle ∧
      τ.aborted = (s.task t).aborted)
    (hbegun : (s.task t).pc ≠ .start ∧ τ.pc ≠ .start) (halive : (s.task t).pc ≠ .ended)
    (hlook : (s.task t).kind = .pairing → Pc.looked τ.pc = true →
      Pc.looked (s.task t).pc = true) : Moved s t ({ s with host := host }.set t τ) :=
  .goes host τ hq (follows_free h h' hsame hbegun halive hlook) (heard_of (running_free h'))
    (hand_free h h') fun _ => by
      rw [aims_free h']
      exact List.nil_sublist _

/-- The same for a step that only moves. -/
theorem moved_goto {host : HostState} (hq : Quiet s.host host)
    (h : Pc.free (s.task t).pc = true) (h' : Pc.free pc = true)
    (hbegun : (s.task t).pc ≠ .start ∧ pc ≠ .start) (halive : (s.task t).pc ≠ .ended)
    (hlook : (s.task t).kind = .pairing → Pc.looked pc = true → Pc.looked (s.task t).pc = true) :
    Moved s t ({ s with host := host }.goto t pc) :=
  moved_free hq h h' ⟨rfl, rfl, rfl, rfl, rfl⟩ hbegun halive hlook

/-- A change of the stop signal sends a task that waits back to the top of its loop. -/
theorem changed_moved (hfree : Pc.free (s.task t).pc = true) (hbegun : (s.task t).pc ≠ .start)
    (halive : (s.task t).pc ≠ .ended) :
    Moved s t (s.set t { s.task t with seen := s.host.stopTx.version, pc := .top }) :=
  moved_free (Quiet.refl _) hfree rfl ⟨rfl, rfl, rfl, rfl, rfl⟩ ⟨hbegun, Pc.noConfusion⟩ halive
    fun _ h => nomatch h

theorem capture_moved (hpc : (s.task t).pc = .start) : Moved s t (capture s t) := by
  unfold capture
  dsimp only
  split
  · next hkind =>
    split
    · next hostId handle d key hfind =>
      refine .began _ hpc rfl rfl rfl (Or.inl rfl) ?_
      intro _ d' hd' _
      rw [hd'] at hfind
      exact ⟨_, hfind, rfl⟩
    · exact .began _ hpc rfl rfl rfl (Or.inr rfl) (fun h => nomatch h)
  · next hkind =>
    exact .began _ hpc rfl rfl rfl (Or.inl rfl) (fun _ _ _ h => absurd h hkind)

theorem check_moved (hpc : (s.task t).pc = .top) : Moved s t (check s t) := by
  have hfree : Pc.free (s.task t).pc = true := by rw [hpc]; rfl
  have hbegun : (s.task t).pc ≠ .start := by rw [hpc]; decide
  have halive : (s.task t).pc ≠ .ended := by rw [hpc]; decide
  unfold check
  dsimp only
  split
  · next hkind =>
    split
    · exact moved_goto (Quiet.refl _) hfree rfl ⟨hbegun, by decide⟩ halive
        fun h => nomatch hkind.symm.trans h
    · exact moved_goto (Quiet.refl _) hfree rfl ⟨hbegun, by decide⟩ halive fun _ h => nomatch h
  · next hkind =>
    split
    · exact moved_goto (Quiet.refl _) hfree rfl ⟨hbegun, by decide⟩ halive fun _ h => nomatch h
    · next pairing hp =>
      split
      · next handle hh =>
        refine .looked _ hpc hkind rfl rfl rfl rfl ?_
        unfold pairingHandle
        rw [hp]
        exact liveHandle_of_handle hh
      · exact .destroyed _ hpc hkind

theorem accepted_moved (hpc : (s.task t).pc = .registering) : Moved s t (accepted s t) := by
  have hfree : Pc.free (s.task t).pc = true := by rw [hpc]; rfl
  have hbegun : (s.task t).pc ≠ .start := by rw [hpc]; decide
  have halive : (s.task t).pc ≠ .ended := by rw [hpc]; decide
  have hlook : ∀ pc : Pc, (s.task t).kind = .pairing → Pc.looked pc = true →
      Pc.looked (s.task t).pc = true := fun _ _ _ => by rw [hpc]; rfl
  unfold accepted
  dsimp only
  split
  · exact moved_goto (setIdle_quiet _) hfree rfl ⟨hbegun, by decide⟩ halive (hlook _)
  · exact moved_goto (markRegistered_quiet _ _ _) hfree rfl ⟨hbegun, by decide⟩ halive (hlook _)

theorem unshaken_moved (hpc : (s.task t).pc = .registered) (attempt : Nat) (error : String) :
    Moved s t (unshaken s t attempt error) := by
  have hfree : Pc.free (s.task t).pc = true := by rw [hpc]; rfl
  have hbegun : (s.task t).pc ≠ .start := by rw [hpc]; decide
  have halive : (s.task t).pc ≠ .ended := by rw [hpc]; decide
  have hlook : ∀ pc : Pc, (s.task t).kind = .pairing → Pc.looked pc = true →
      Pc.looked (s.task t).pc = true := fun _ _ _ => by rw [hpc]; rfl
  unfold unshaken
  dsimp only
  split
  · exact moved_goto (setOffline_quiet _ _ _) hfree rfl ⟨hbegun, by decide⟩ halive (hlook _)
  · exact moved_goto (recordFailedAttempt_quiet _ _ _) hfree rfl ⟨hbegun, by decide⟩ halive (hlook _)

theorem claim_moved (hpc : (s.task t).pc = .connected) : Moved s t (claim s t) := by
  unfold claim
  split
  · next host hc =>
    obtain ⟨hnone, hrun, rfl⟩ := claimActive_some hc
    exact .claimed hpc hnone hrun
  · have hfree : Pc.free (s.task t).pc = true := by rw [hpc]; rfl
    exact moved_goto (Quiet.refl _) hfree rfl ⟨by rw [hpc]; decide, by decide⟩
      (by rw [hpc]; decide) fun _ _ => by rw [hpc]; rfl

/-- The claim is kept on the way to another place that has it. -/
theorem follows_guarded {τ : Task} (hbegun : τ.pc ≠ .start ∧ pc ≠ .start) (halive : τ.pc ≠ .ended)
    (hguard : ({ τ with pc := pc } : Task).guard = τ.guard) (hlook : Pc.looked τ.pc = true)
    (hlate : Pc.late pc = true ∧ Pc.starting pc = true)
    (hplain : τ.kind = .registration → Pc.starting τ.pc = true)
    (hrun : ∀ id, ({ τ with pc := pc } : Task).running = some id → τ.running = some id) :
    Follows τ { τ with pc := pc } :=
  ⟨Iff.rfl, Iff.rfl, rfl, rfl, rfl, rfl, hguard, hbegun, halive, fun _ _ => hlook,
    fun hagain _ => ⟨hagain, hlate.1⟩, fun _ _ => hlate.2, fun hkind _ => Or.inr (hplain hkind),
    hrun⟩

theorem drops_moved {host : HostState} (hq : Quiet s.host host) (hpc' : pc = .top ∨ pc = .ended)
    (hand : ∀ d u, (s.task t).pc ≠ .spawned d u) (halive : (s.task t).pc ≠ .ended)
    (hstart : (s.task t).pc ≠ .start) (htop : pc = .top → (s.task t).kind = .registration ∨
      (s.task t).pc = .claimed ∨ ((s.task t).kind = .pairing ∧ (s.task t).again = true)) :
    Moved s t ({ s with host := host }.drop t pc) :=
  .drops host pc hq hpc' hand halive (fun h => absurd h hstart) htop

theorem enrolDevice_moved (hpc : (s.task t).pc = .claimed) (hkind : (s.task t).kind = .pairing)
    (d : DeviceId) (hostId : HostId) (key : Bytes) (saved : Bool) :
    Moved s t (enrolDevice s t d hostId key saved) := by
  unfold enrolDevice
  dsimp only
  have hcases := enrol_cases s.host ⟨hostId, some (s.task t).handle, d, key⟩ (s.task t).handle s.now
    ((s.task t).mintedAt + phraseLifetime) saved
  generalize enrol s.host ⟨hostId, some (s.task t).handle, d, key⟩ (s.task t).handle s.now
    ((s.task t).mintedAt + phraseLifetime) saved = out at hcases
  cases hcases with
  | refused =>
    refine drops_moved (Quiet.refl _) (Or.inl rfl) ?_ ?_ ?_ fun _ => Or.inr (Or.inl hpc)
    · intro d u h
      rw [hpc] at h
      cases h
    · rw [hpc]
      decide
    · rw [hpc]
      decide
  | failed hp =>
    refine .enrolFailed d _ hpc hkind hp ?_ rfl
    refine ⟨Iff.rfl, Iff.rfl, rfl, rfl, rfl, rfl, ?_, ⟨by rw [hpc]; decide, Pc.noConfusion⟩,
      by rw [hpc]; decide, fun _ _ => by rw [hpc]; rfl, ?_, fun h => absurd hkind h,
      fun h => absurd (hkind.symm.trans h) Kind.noConfusion, fun id h => nomatch h⟩
    · unfold Task.guard
      rw [hkind, hpc]
    · intro _ hlate
      rw [hpc] at hlate
      cases hlate
  | paired hp store hs =>
    exact .enrolled d ⟨hostId, some (s.task t).handle, d, key⟩ store _ hpc hkind ⟨rfl, rfl⟩ hp hs
      ⟨rfl, hkind, rfl, rfl, rfl, rfl⟩

theorem served_moved (hpc : (s.task t).pc = .claimed ∧ (s.task t).kind = .registration ∨
      (s.task t).pc = .enrolled ∨ ∃ id, (s.task t).pc = .ending id)
    (hd : (s.task t).deviceId = some d) : Moved s t (served s t d) := by
  have hbegun : (s.task t).pc ≠ .start := by
    rcases hpc with ⟨h, -⟩ | h | ⟨id, h⟩ <;> rw [h] <;> exact Pc.noConfusion
  have halive : (s.task t).pc ≠ .ended := by
    rcases hpc with ⟨h, -⟩ | h | ⟨id, h⟩ <;> rw [h] <;> exact Pc.noConfusion
  have hand : ∀ d u, (s.task t).pc ≠ .spawned d u := by
    intro d u
    rcases hpc with ⟨h, -⟩ | h | ⟨id, h⟩ <;> rw [h] <;> exact Pc.noConfusion
  have hlook : Pc.looked (s.task t).pc = true := by
    rcases hpc with ⟨h, -⟩ | h | ⟨id, h⟩ <;> rw [h] <;> rfl
  unfold served
  split
  · next hkind => exact drops_moved (Quiet.refl _) (Or.inl rfl) hand halive hbegun fun _ => Or.inl hkind
  · next hkind =>
    refine .goes s.host _ (Quiet.refl _) (follows_guarded ⟨hbegun, Pc.noConfusion⟩ halive ?_ hlook
      ⟨rfl, rfl⟩ (fun h => absurd h hkind) (fun id h => nomatch h)) (heard_of rfl) ?_ ?_
    · cases hk : (s.task t).kind with
      | registration => exact absurd hk hkind
      | pairing =>
        unfold Task.guard
        rcases hpc with ⟨h, -⟩ | h | ⟨id, h⟩ <;> rw [hk, h]
      | startup rest =>
        unfold Task.guard
        rw [hk]
    · intro d' u
      exact iff_of_false Pc.noConfusion (hand d' u)
    · rintro (hstarting | hpair)
      · rcases hpc with ⟨h, -⟩ | h | ⟨id, h⟩ <;> rw [h] at hstarting <;> cases hstarting
      · unfold aims
        rcases hpc with ⟨-, hreg⟩ | h | ⟨id, h⟩
        · exact absurd hreg hkind
        · rw [hpair, h, hd]
          exact List.Sublist.refl _
        · rw [hpair, h, hd]
          exact List.Sublist.refl _

theorem enter_moved (hpc : (s.task t).pc = .claimed ∧ (s.task t).kind = .registration ∨
      (s.task t).pc = .enrolled) {d : DeviceId} (hd : (s.task t).deviceId = some d) :
    Moved s t (enter s t d) := by
  unfold enter
  split
  · next id host hs =>
    obtain ⟨hrun, ⟨e, hfind, hid, hhandle⟩, rfl, rfl⟩ := registerSession_some hs
    exact .entered d e hpc hd hrun hfind hid hhandle
  · exact served_moved (hpc.imp_right Or.inl) hd

/-- After `spawn_registration` the start takes the next device, and a loop goes on
without its claim. -/
theorem after_cases (s : System) (t : TaskId) :
    (∃ pc, (pc = .top ∨ pc = .ended) ∧ (pc = .top → (s.task t).kind = .registration ∨
        ((s.task t).kind = .pairing ∧ (s.task t).again = true)) ∧
      s.after t = s.drop t pc) ∨
    ∃ d rest, (s.task t).kind = .startup (d :: rest) ∧
      s.after t = s.set t { s.task t with kind := .startup rest, pc := .lookUp d } := by
  unfold System.after
  split
  · next hkind =>
    refine Or.inl ⟨.ended, Or.inr rfl, Pc.noConfusion, ?_⟩
    rw [drop_goto]
    unfold Task.guard
    rw [hkind]
  · next d rest hkind => exact Or.inr ⟨d, rest, hkind, rfl⟩
  · next hnil hcons =>
    refine Or.inl ⟨_, ?_, ?_, rfl⟩
    · split
      · exact Or.inl rfl
      · exact Or.inr rfl
    · split
      · next hagain =>
        intro _
        cases hkind : (s.task t).kind with
        | registration => exact Or.inl rfl
        | pairing => exact Or.inr ⟨rfl, hagain⟩
        | startup rest =>
          cases rest with
          | nil => exact absurd hkind hnil
          | cons d rest => exact absurd hkind (hcons d rest)
      · exact Pc.noConfusion

theorem follows_startup {τ : Task} {d : DeviceId} {rest : List DeviceId}
    (hkind : τ.kind = .startup (d :: rest)) (hbegun : τ.pc ≠ .start) (halive : τ.pc ≠ .ended) :
    Follows τ { τ with kind := .startup rest, pc := .lookUp d } := by
  refine ⟨?_, ?_, rfl, rfl, rfl, rfl, ?_, ⟨hbegun, Pc.noConfusion⟩, halive, ?_,
    fun hagain _ => ⟨hagain, rfl⟩, fun _ _ => rfl, ?_, fun id h => nomatch h⟩
  · rw [hkind]
    exact iff_of_false Kind.noConfusion Kind.noConfusion
  · rw [hkind]
    exact iff_of_false Kind.noConfusion Kind.noConfusion
  · unfold Task.guard
    rw [hkind]
  · intro h
    cases hkind.symm.trans h
  · intro h
    cases hkind.symm.trans h

/-- The start goes on with the next device. -/
theorem aims_startup {τ : Task} {x d : DeviceId} {rest : List DeviceId}
    (hkind : τ.kind = .startup (d :: rest))
    (hpc : τ.pc = .lookUp x ∨ ∃ u, τ.pc = .spawned x u) :
    aims τ = x :: aims { τ with kind := .startup rest, pc := .lookUp d } := by
  unfold aims
  rcases hpc with h | ⟨u, h⟩
  · rw [hkind, h]
  · rw [hkind, h]

theorem lookUp_moved (hpc : (s.task t).pc = .lookUp d) : Moved s t (lookUp s t d) := by
  have hbegun : (s.task t).pc ≠ .start := by rw [hpc]; exact Pc.noConfusion
  have halive : (s.task t).pc ≠ .ended := by rw [hpc]; exact Pc.noConfusion
  have hand : ∀ d u, (s.task t).pc ≠ .spawned d u := by
    intro d u
    rw [hpc]
    exact Pc.noConfusion
  unfold lookUp
  split
  · refine .goes s.host _ (Quiet.refl _) (follows_guarded ⟨hbegun, Pc.noConfusion⟩ halive ?_
      (by rw [hpc]; rfl) ⟨rfl, rfl⟩ (fun _ => by rw [hpc]; rfl) (fun id h => nomatch h))
      (heard_of rfl) (fun d' u => iff_of_false Pc.noConfusion (hand d' u)) fun _ => ?_
    · unfold Task.guard
      rw [hpc]
      cases (s.task t).kind with
      | registration => rfl
      | pairing => rfl
      | startup rest => rfl
    · unfold aims
      rw [hpc]
      cases (s.task t).kind with
      | registration => exact List.Sublist.refl _
      | pairing => exact List.Sublist.refl _
      | startup rest => exact List.Sublist.refl _
  · rcases after_cases s t with ⟨pc, hpc', htop, ha⟩ | ⟨d', rest, hkind, ha⟩
    · rw [ha]
      exact drops_moved (Quiet.refl _) hpc' hand halive hbegun fun h =>
        (htop h).imp_right Or.inr
    · rw [ha]
      exact .goes s.host _ (Quiet.refl _) (follows_startup hkind hbegun halive) (heard_of rfl)
        (fun d' u => iff_of_false Pc.noConfusion (hand d' u)) fun _ => by
          rw [aims_startup hkind (Or.inl hpc)]
          exact List.sublist_cons_self _ _

theorem storeRegistration_moved (hpc : (s.task t).pc = .spawned d u) :
    Moved s t (storeRegistration s t d u) := by
  unfold storeRegistration
  dsimp only
  rcases after_cases { s with host := { s.host with
    registrations := (d, u) :: s.host.registrations.filter fun r => !(r.1 == d) } } t with
    ⟨pc, hpc', htop, ha⟩ | ⟨d', rest, hkind, ha⟩
  · rw [ha]
    exact .storedDrops d u pc hpc hpc' htop
  · rw [ha]
    refine .stored d u _ hpc (follows_startup hkind ?_ ?_) (fun _ _ => Pc.noConfusion) rfl
      (aims_startup hkind (Or.inr ⟨u, hpc⟩))
    · show (s.task t).pc ≠ .start
      rw [hpc]
      exact Pc.noConfusion
    · show (s.task t).pc ≠ .ended
      rw [hpc]
      exact Pc.noConfusion

/-- A step inside `serve_session` keeps the claim. -/
theorem moved_session {τ : Task} (hsame : τ.kind = (s.task t).kind ∧
      τ.deviceId = (s.task t).deviceId ∧ τ.hostId = (s.task t).hostId ∧
      τ.handle = (s.task t).handle ∧ τ.aborted = (s.task t).aborted ∧ τ.again = (s.task t).again)
    (hpc : (∃ id, (s.task t).pc = .joined id ∧ τ.pc = .serving id s.host.stopTx.version) ∨
      ∃ id seen, (s.task t).pc = .serving id seen ∧
        (τ.pc = .serving id seen ∨ τ.pc = .ending id)) :
    Moved s t (s.set t τ) := by
  obtain ⟨hkind, hdevice, hhost, hhandle, haborted, hagain⟩ := hsame
  have hguard : τ.guard = (s.task t).guard := by
    unfold Task.guard
    rw [hkind]
    rcases hpc with ⟨id, h, h'⟩ | ⟨id, seen, h, h' | h'⟩ <;> rw [h, h'] <;> cases (s.task t).kind <;> rfl
  have hlook : Pc.looked (s.task t).pc = true := by
    rcases hpc with ⟨id, h, -⟩ | ⟨id, seen, h, -⟩ <;> rw [h] <;> rfl
  refine .goes s.host τ (Quiet.refl _) ⟨by rw [hkind], by rw [hkind], hdevice, hhost, hhandle,
    haborted, hguard, ?_, ?_, fun _ _ => hlook, ?_, ?_, ?_, ?_⟩ ⟨?_, ?_⟩ ?_ ?_
  · rcases hpc with ⟨id, h, h'⟩ | ⟨id, seen, h, h' | h'⟩ <;> rw [h, h'] <;>
      exact ⟨Pc.noConfusion, Pc.noConfusion⟩
  · rcases hpc with ⟨id, h, -⟩ | ⟨id, seen, h, -⟩ <;> rw [h] <;> exact Pc.noConfusion
  · intro hagain' _
    refine ⟨hagain.trans hagain', ?_⟩
    rcases hpc with ⟨id, -, h'⟩ | ⟨id, seen, -, h' | h'⟩ <;> rw [h'] <;> rfl
  · intro _ hstarting
    rcases hpc with ⟨id, h, -⟩ | ⟨id, seen, h, -⟩ <;> rw [h] at hstarting <;> cases hstarting
  · intro _ hstarting
    rcases hpc with ⟨id, -, h'⟩ | ⟨id, seen, -, h' | h'⟩ <;> rw [h'] at hstarting <;> cases hstarting
  · intro x hx
    unfold Task.running at hx ⊢
    rcases hpc with ⟨id, h, h'⟩ | ⟨id, seen, h, h' | h'⟩
    · rw [h'] at hx
      rw [h]
      exact hx
    · rw [h'] at hx
      rw [h]
      exact hx
    · rw [h'] at hx
      cases hx
  · intro x hx
    rcases hpc with ⟨id, h, h'⟩ | ⟨id, seen, h, h' | h'⟩ <;> rw [h'] at hx <;> cases hx
  · intro x seen' hx
    rcases hpc with ⟨id, h, h'⟩ | ⟨id, seen, h, h' | h'⟩
    · rw [h'] at hx
      cases hx
      exact Or.inr ⟨h, rfl⟩
    · rw [h'] at hx
      exact Or.inl (h.trans hx)
    · rw [h'] at hx
      cases hx
  · intro d u
    rcases hpc with ⟨id, h, h'⟩ | ⟨id, seen, h, h' | h'⟩ <;> rw [h, h'] <;>
      exact iff_of_false Pc.noConfusion Pc.noConfusion
  · intro _
    unfold aims
    rw [hkind, hdevice]
    rcases hpc with ⟨id, h, h'⟩ | ⟨id, seen, h, h' | h'⟩ <;> rw [h, h'] <;>
      cases (s.task t).kind <;> exact List.Sublist.refl _

theorem act_moved {a : Act} (h : act s t a = some s') : Moved s t s' := by
  unfold act at h
  dsimp only at h
  split at h
  · next hpc =>
    obtain rfl := Option.some.inj h
    exact capture_moved hpc
  · next hpc =>
    obtain rfl := Option.some.inj h
    exact moved_free (Quiet.refl _) (by rw [hpc]; rfl) rfl ⟨rfl, rfl, rfl, rfl, rfl⟩
      ⟨by rw [hpc]; decide, Pc.noConfusion⟩ (by rw [hpc]; decide) fun _ h => nomatch h
  · next hpc =>
    obtain rfl := Option.some.inj h
    exact check_moved hpc
  · next hpc =>
    split at h
    · cases h
    · obtain rfl := Option.some.inj h
      exact moved_goto (Quiet.refl _) (by rw [hpc]; rfl) rfl ⟨by rw [hpc]; decide, by decide⟩
        (by rw [hpc]; decide) fun _ _ => by rw [hpc]; rfl
  · next hpc =>
    split at h
    · cases h
    · obtain rfl := Option.some.inj h
      exact moved_free (Quiet.refl _) (by rw [hpc]; rfl) (by rw [hpc]; rfl)
        ⟨rfl, rfl, rfl, rfl, rfl⟩ ⟨by rw [hpc]; decide, by rw [hpc]; decide⟩ (by rw [hpc]; decide)
        fun _ _ => by rw [hpc]; rfl
  · next hpc =>
    split at h
    · cases h
    · obtain rfl := Option.some.inj h
      exact changed_moved (by rw [hpc]; rfl) (by rw [hpc]; decide) (by rw [hpc]; decide)
  · next hpc =>
    split at h
    · cases h
    · obtain rfl := Option.some.inj h
      exact changed_moved (by rw [hpc]; rfl) (by rw [hpc]; decide) (by rw [hpc]; decide)
  · next hpc =>
    split at h
    · cases h
    · obtain rfl := Option.some.inj h
      exact changed_moved (by rw [hpc]; rfl) (by rw [hpc]; decide) (by rw [hpc]; decide)
  · next hpc =>
    obtain rfl := Option.some.inj h
    exact accepted_moved hpc
  · next attempt error hpc =>
    obtain rfl := Option.some.inj h
    exact moved_goto (setOffline_quiet _ attempt error) (by rw [hpc]; rfl) rfl
      ⟨by rw [hpc]; decide, by decide⟩ (by rw [hpc]; decide) fun _ _ => by rw [hpc]; rfl
  · next hpc =>
    obtain rfl := Option.some.inj h
    exact moved_goto (Quiet.refl _) (by rw [hpc]; rfl) rfl ⟨by rw [hpc]; decide, by decide⟩
      (by rw [hpc]; decide) fun _ _ => by rw [hpc]; rfl
  · next attempt error hpc =>
    obtain rfl := Option.some.inj h
    exact unshaken_moved hpc attempt error
  · next hpc =>
    split at h
    · obtain rfl := Option.some.inj h
      exact moved_goto (expirePairing_quiet _ _ _) (by rw [hpc]; rfl) rfl
        ⟨by rw [hpc]; decide, by decide⟩ (by rw [hpc]; decide) fun _ _ => by rw [hpc]; rfl
    · cases h
  · next hpc =>
    obtain rfl := Option.some.inj h
    exact moved_goto (Quiet.refl _) (by rw [hpc]; rfl) rfl ⟨by rw [hpc]; decide, by decide⟩
      (by rw [hpc]; decide) fun _ _ => by rw [hpc]; rfl
  · next hpc =>
    obtain rfl := Option.some.inj h
    exact claim_moved hpc
  · next hpc =>
    obtain rfl := Option.some.inj h
    exact drops_moved (Quiet.refl _) (Or.inl rfl) (fun d u heq => nomatch hpc.symm.trans heq)
      (by rw [hpc]; decide) (by rw [hpc]; decide) fun _ => Or.inr (Or.inl hpc)
  · next hpc =>
    split at h
    · obtain rfl := Option.some.inj h
      exact drops_moved (expireMinted_quiet _ _) (Or.inl rfl)
        (fun d u heq => nomatch hpc.symm.trans heq) (by rw [hpc]; decide) (by rw [hpc]; decide)
        fun _ => Or.inr (Or.inl hpc)
    · cases h
  · next d hostId key saved hpc =>
    split at h
    · next hkind =>
      obtain rfl := Option.some.inj h
      exact enrolDevice_moved hpc hkind d hostId key saved
    · cases h
  · next hpc =>
    split at h
    · next hkind =>
      obtain ⟨d, hd, rfl⟩ := Option.map_eq_some_iff.mp h
      exact enter_moved (Or.inl ⟨hpc, hkind⟩) hd
    · cases h
  · next hpc =>
    obtain ⟨d, hd, rfl⟩ := Option.map_eq_some_iff.mp h
    exact enter_moved (Or.inr hpc) hd
  · next id hpc =>
    obtain rfl := Option.some.inj h
    exact moved_session ⟨rfl, rfl, rfl, rfl, rfl, rfl⟩ (Or.inl ⟨id, hpc, rfl⟩)
  · next id seen hpc =>
    obtain rfl := Option.some.inj h
    have hsame := moved_session (s := s) (t := t) ⟨rfl, rfl, rfl, rfl, rfl, rfl⟩
      (Or.inr ⟨id, seen, hpc, Or.inl hpc⟩)
    rwa [set_task] at hsame
  · next id seen hpc =>
    split at h
    · cases h
    · obtain rfl := Option.some.inj h
      exact moved_session ⟨rfl, rfl, rfl, rfl, rfl, rfl⟩ (Or.inr ⟨id, seen, hpc, Or.inr rfl⟩)
  · next id seen hpc =>
    split at h
    · cases h
    · obtain rfl := Option.some.inj h
      exact moved_session ⟨rfl, rfl, rfl, rfl, rfl, rfl⟩ (Or.inr ⟨id, seen, hpc, Or.inr rfl⟩)
  · next id seen hpc =>
    obtain rfl := Option.some.inj h
    exact moved_session ⟨rfl, rfl, rfl, rfl, rfl, rfl⟩ (Or.inr ⟨id, seen, hpc, Or.inr rfl⟩)
  · next id hpc =>
    obtain ⟨d, hd, rfl⟩ := Option.map_eq_some_iff.mp h
    exact served_moved (Or.inr (Or.inr ⟨id, hpc⟩)) hd
  · next d hpc =>
    obtain rfl := Option.some.inj h
    exact lookUp_moved hpc
  · next d hpc =>
    obtain rfl := Option.some.inj h
    exact .spawned d hpc
  · next d u hpc =>
    obtain rfl := Option.some.inj h
    exact storeRegistration_moved hpc
  · next pc hpc =>
    split at h
    · next hok =>
      obtain rfl := Option.some.inj h
      rw [Bool.and_eq_true] at hok
      refine .drops s.host .ended (Quiet.refl _) (Or.inr rfl) ?_ ?_ (fun _ => rfl) Pc.noConfusion
      · intro d u heq
        rw [heq] at hok
        cases hok.2
      · intro heq
        rw [heq] at hok
        cases hok.2
    · cases h
  · cases h

theorem abort_task (s : System) (ids : List TaskId) (u : TaskId) :
    (s.abort ids).task u =
      { s.task u with aborted := (s.task u).aborted || decide (u ∈ ids) } := by
  show (if u ∈ ids then { s.task u with aborted := true } else s.task u) = _
  by_cases h : u ∈ ids
  · rw [if_pos h, decide_eq_true h, Bool.or_true]
  · rw [if_neg h, decide_eq_false h, Bool.or_false]

theorem step_task {a : Act} (h : step s (.task t a) = some s') :
    t < s.made ∧ act s t a = some s' := by
  replace h : (if t < s.made then act s t a else none) = some s' := h
  split at h
  · next ht => exact ⟨ht, h⟩
  · cases h

theorem step_control {c : Command} (h : step s (.control c) = some s') :
    (s.task 0).pc = .ended ∧ Tasks.control s c = some s' := by
  simp only [step] at h
  split at h
  · next hstarted => exact ⟨hstarted, h⟩
  · cases h

/-- The events that revoke devices. -/
def Event.revokes : Event → Bool
  | .control (.revoke _ _) | .control (.revokeAll _ _) | .wire _ _ _ _ => true
  | _ => false

inductive Stepped (s : System) : Event → System → Prop where
  | advance (time : Nat) : Stepped s (.advance time) { s with now := s.now + time }
  | moved (t : TaskId) (a : Act) (s' : System) (ht : t < s.made) (hm : Moved s t s') :
      Stepped s (.task t a) s'
  | quiet (c : Command) (host : HostState) (ids : List TaskId) (hq : Quiet s.host host) :
      Stepped s (.control c) ({ s with host := host }.abort ids)
  | opened (handle : Handle) (host : HostState) (ids : List TaskId)
      (hstarted : (s.task 0).pc = .ended) (hnew : s.owner handle = none)
      (hopen : Opening s.host s.now s.made s.receivers (some handle) (.ok true, host, ids)) :
      Stepped s (.control (.openPairing (some handle)))
        (({ s with host := host, owner := Function.update s.owner handle (some none) }.spawn
          (.new .pairing .start none)).abort ids)
  | revoked (e : Event) (host : HostState) (ids : List TaskId) (he : Event.revokes e = true)
      (hr : Revocation s.host host ids) : Stepped s e ({ s with host := host }.abort ids)
  | failed (request : RevokeDevice) (saved rotated : Bool) (loaded : Option Keypair)
      (hfail : rotationFails request saved rotated = true) :
      Stepped s (.wire request saved rotated loaded)
        ({ s with host := { s.host with store := .empty } }.abort [])
  | stop : Stepped s (.control .stop) { s with host := stop s.host s.receivers }

theorem control_stepped {c : Command} (hstarted : (s.task 0).pc = .ended)
    (h : control s c = some s') : Stepped s (.control c) s' := by
  cases c with
  | status =>
    obtain rfl := Option.some.inj h
    exact .quiet _ _ _ (buildStatus_quiet s.host s.now)
  | closePairing =>
    obtain rfl := Option.some.inj h
    exact .quiet _ _ _ (closePairing_quiet s.host)
  | revoke d saved =>
    obtain rfl := Option.some.inj h
    exact .revoked _ _ _ rfl (revokeOne_revocation s.host d saved)
  | revokeAll saved rotated =>
    obtain rfl := Option.some.inj h
    exact .revoked _ _ _ rfl (revokeAll_revocation s.host saved rotated)
  | stop =>
    obtain rfl := Option.some.inj h
    exact .stop
  | openPairing minted =>
    replace h : (if fresh s minted then some (openPairingCommand s minted) else none) = some s' := h
    split at h
    · next hfresh =>
      obtain rfl := Option.some.inj h
      have hopen := openPairing_opening s.host s.now minted s.made s.receivers
      unfold openPairingCommand
      generalize hout : openPairing s.host s.now minted s.made s.receivers = out at hopen
      cases hopen with
      | already => exact .quiet _ _ _ (Quiet.refl s.host)
      | failed host ids hq => exact .quiet _ _ _ hq
      | opened handle host ids store active registry registrations stopped stopTx link pairing =>
        exact .opened handle host ids hstarted (Option.isNone_iff_eq_none.mp hfresh)
          (.opened handle host ids store active registry registrations stopped stopTx link pairing)
    · cases h

theorem step_stepped {e : Event} (h : step s e = some s') : Stepped s e s' := by
  cases e with
  | advance time =>
    obtain rfl := Option.some.inj h
    exact .advance time
  | task t a =>
    obtain ⟨ht, hact⟩ := step_task h
    exact .moved t a s' ht (act_moved hact)
  | control c =>
    obtain ⟨hstarted, hc⟩ := step_control h
    exact control_stepped hstarted hc
  | wire request saved rotated loaded =>
    have heq : s' = { s with host := (wireRevoke s.host request saved rotated loaded).2.1 }.abort
      (wireRevoke s.host request saved rotated loaded).2.2 := (Option.some.inj h).symm
    rcases wireRevoke_revocation s.host request saved rotated loaded with ⟨hfail, hw⟩ | hr
    · rw [heq, hw]
      exact .failed request saved rotated loaded hfail
    · rw [heq]
      exact .revoked _ _ _ rfl hr

end HerdrMobile.Bridge.Steps
