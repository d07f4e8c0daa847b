import Mathlib.Tactic.ByContra
import HerdrMobile.Bridge.Tasks

/-!
# A revocation of every device that fails midway

The wire command clears the list, rotates the keypair and only then closes the
sessions and aborts the loops. The control command closes them before it rotates.
-/
namespace HerdrMobile.Bridge.Revoke

open Bridge.Store Bridge.Registry Bridge.Host Bridge.Tasks

set_option autoImplicit false

variable {s s' : System} {d : DeviceId} {t : TaskId} {session : RegisteredSession}

/-- A registration loop that serves `d` and whose handle was not aborted. -/
def LoopOf (s : System) (d : DeviceId) (t : TaskId) : Prop :=
  t < s.made ∧ (s.task t).kind = .registration ∧ (s.task t).deviceId = some d ∧
    (s.task t).pc ≠ .ended ∧ (s.task t).aborted = false

/-- The list had an entry for `d`, and has none any more. -/
def Removed (s s' : System) (d : DeviceId) : Prop :=
  (s.host.store.find d).isSome ∧ s'.host.store.find d = none

/-- A session of `d` was sent its close signal. -/
def Told (s s' : System) (d : DeviceId) : Prop :=
  ∃ session ∈ s.host.registry.sessions, session.deviceId = some d ∧
    s'.host.registry.closes session.close = .revoked

/-- Nothing of a removed device goes on, and nothing was closed for no removal. -/
structure Ended (s s' : System) : Prop where
  sessions : ∀ session ∈ s.host.registry.sessions, ∀ d, session.deviceId = some d →
    Removed s s' d → s'.host.registry.closes session.close = .revoked
  loops : ∀ d t, LoopOf s d t → Removed s s' d → (s'.task t).aborted = true ∨ Told s s' d
  untouched : s'.host.store = s.host.store → s'.host.registry = s.host.registry

/-- The call that fails. -/
inductive Failure where
  | clearAll
  | rotate

def Failure.saved : Failure → Bool
  | .clearAll => false
  | .rotate => true

def revokeEvery : RevokeDevice := ⟨none, some true⟩

/-- No paired device has a session or a loop. -/
def Vacant (s : System) : Prop :=
  (∀ session ∈ s.host.registry.sessions, ∀ d, session.deviceId = some d →
    s.host.store.find d = none) ∧
  ∀ d t, LoopOf s d t → s.host.store.find d = none

/-- A failed command returns early: it aborts nothing and closes nothing. -/
theorem wire_failed (s : System) (failure : Failure) (loaded : Option Keypair) :
    step s (.wire revokeEvery failure.saved false loaded) =
      some { s with host := { s.host with
        store := match failure with
          | .clearAll => s.host.store
          | .rotate => .empty } } := by
  cases failure with
  | clearAll => rfl
  | rotate => rfl

theorem not_told (hs : s'.host.registry = s.host.registry) : ¬Told s s' d := by
  rintro ⟨session, hmem, -, hclosed⟩
  rw [hs, s.host.registry.unused session hmem] at hclosed
  exact absurd hclosed (by decide)

/-- Where the wire command fails, nothing of a removed device goes on if and only if it
failed before it cleared the list, or no paired device had anything going on. -/
theorem wire_failure_iff (s : System) (failure : Failure) (loaded : Option Keypair) :
    (∃ s', step s (.wire revokeEvery failure.saved false loaded) = some s' ∧ Ended s s') ↔
      failure = .clearAll ∨ Vacant s := by
  rw [wire_failed]
  cases failure with
  | clearAll =>
    refine iff_of_true ⟨s, rfl, ?_, ?_, fun _ => rfl⟩ (Or.inl rfl)
    · intro session _ d _ ⟨hsome, hnone⟩
      rw [hnone] at hsome
      cases hsome
    · intro d t _ ⟨hsome, hnone⟩
      rw [hnone] at hsome
      cases hsome
  | rotate =>
    have hremoved : ∀ d, s.host.store.find d ≠ none →
        Removed s { s with host := { s.host with store := .empty } } d :=
      fun d hne => ⟨Option.isSome_iff_ne_none.mpr hne, rfl⟩
    constructor
    · rintro ⟨s', hs', hended⟩
      obtain rfl := Option.some.inj hs'
      right
      constructor
      · intro session hmem d hd
        by_contra hne
        have hclosed := hended.sessions session hmem d hd (hremoved d hne)
        exact not_told rfl ⟨session, hmem, hd, hclosed⟩
      · intro d t hloop
        by_contra hne
        cases hended.loops d t hloop (hremoved d hne) with
        | inl haborted => exact absurd (hloop.2.2.2.2.symm.trans haborted) (by decide)
        | inr htold => exact not_told rfl htold
    · rintro (h | ⟨hsessions, hloops⟩)
      · cases h
      · refine ⟨_, rfl, ?_, ?_, fun _ => rfl⟩
        · intro session hmem d hd hr
          exact absurd (hsessions session hmem d hd) (Option.isSome_iff_ne_none.mp hr.1)
        · intro d t hloop hr
          exact absurd (hloops d t hloop) (Option.isSome_iff_ne_none.mp hr.1)

/-- One phone in the list. -/
def phone : SavedList where
  store := ⟨[⟨['h'], some 1, ['d'], []⟩], List.pairwise_singleton _ _⟩
  ownHandle := List.pairwise_singleton _ _

/-- The start spawns the loop of the phone, task 1. -/
def startUp : List Event := [.task 0 .lookUp, .task 0 .spawn, .task 0 .store]

/-- A registration loop comes to serve its Device. -/
def serves (t : TaskId) : List Event :=
  [.task t .capture, .task t .subscribe, .task t .check, .task t .run, .task t .accepted,
    .task t .shaken, .task t .claim, .task t .enter, .task t .listen]

/-- The phone is served and asks to revoke every device, and the rotation fails. -/
theorem rotation_failure_leaves_session :
    ∃ s, Lib.Run.run step (.start phone 0) (startUp ++ serves 1) = some s ∧
      ¬∃ s', step s (.wire revokeEvery Failure.rotate.saved false none) = some s' ∧ Ended s s' := by
  refine ⟨_, rfl, ?_⟩
  rintro ⟨s', hs', hended⟩
  obtain rfl := Option.some.inj hs'
  have hclosed := hended.sessions ⟨1, some ['d'], 0⟩ List.mem_cons_self ['d'] rfl ⟨rfl, rfl⟩
  exact absurd hclosed (by decide)

end HerdrMobile.Bridge.Revoke
