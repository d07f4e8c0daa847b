import Mathlib.Data.List.Pairwise
import HerdrMobile.Bridge.Store

/-!
# The live sessions by handle

A registered session holds the sender of a one-shot channel. Its receiver is with
the session, and it resolves when the sender is used or dropped.
-/
namespace HerdrMobile.Bridge.Registry

open Proto.Messages Bridge.Store

set_option autoImplicit false

/-- The number of the registration that made the one-shot channel. -/
abbrev SessionId := Nat

/-- What the receiver of a session finds. -/
inductive CloseState where
  | waiting
  | revoked
  | dropped
  deriving DecidableEq

structure RegisteredSession where
  handle : Handle
  deviceId : Option DeviceId
  close : SessionId

structure RevokeResult where
  revoked : List DeviceId
  all : Bool

def RevokeResult.names (result : RevokeResult) (session : RegisteredSession) : Bool :=
  result.all || session.deviceId.any fun id => result.revoked.contains id

def Apart (a b : RegisteredSession) : Prop := a.handle ≠ b.handle ∧ a.close ≠ b.close

instance : Std.Symm Apart := ⟨fun _ _ h => ⟨h.1.symm, h.2.symm⟩⟩

/-- The sender of an entry has not been used, and no two entries share a handle. -/
structure SessionRegistry where
  sessions : List RegisteredSession
  closes : SessionId → CloseState
  made : SessionId
  apart : sessions.Pairwise Apart
  unused : ∀ session ∈ sessions, closes session.close = .waiting
  numbered : ∀ session ∈ sessions, session.close < made
  later : ∀ id, made ≤ id → closes id = .waiting

namespace SessionRegistry

def new : SessionRegistry where
  sessions := []
  closes := fun _ => .waiting
  made := 0
  apart := List.Pairwise.nil
  unused := fun _ h => absurd h List.not_mem_nil
  numbered := fun _ h => absurd h List.not_mem_nil
  later := fun _ _ => rfl

/-- The channels of the entries that `out` picks. -/
def picked (r : SessionRegistry) (out : RegisteredSession → Bool) (id : SessionId) : Bool :=
  r.sessions.any fun session => out session && session.close == id

theorem picked_iff (r : SessionRegistry) (out : RegisteredSession → Bool) (id : SessionId) :
    r.picked out id = true ↔ ∃ session ∈ r.sessions, out session = true ∧ session.close = id := by
  unfold picked
  simp

theorem same_entry (r : SessionRegistry) {a b : RegisteredSession} (ha : a ∈ r.sessions)
    (hb : b ∈ r.sessions) (h : a.close = b.close) : a = b := by
  by_cases heq : a = b
  · exact heq
  · exact absurd h (r.apart.forall ha hb heq).2

/-- The entries that `out` picks leave, and their senders end in `reason`. -/
def remove (r : SessionRegistry) (out : RegisteredSession → Bool) (reason : CloseState) :
    SessionRegistry where
  sessions := r.sessions.filter fun session => !out session
  closes := fun id => if r.picked out id then reason else r.closes id
  made := r.made
  apart := r.apart.sublist List.filter_sublist
  unused := by
    intro session hs
    obtain ⟨hmem, hout⟩ := List.mem_filter.mp hs
    have hnot : ¬r.picked out session.close = true := by
      rw [picked_iff]
      rintro ⟨other, hother, ho, hc⟩
      obtain rfl := r.same_entry hother hmem hc
      simp [ho] at hout
    rw [if_neg hnot]
    exact r.unused session hmem
  numbered := fun session hs => r.numbered session (List.mem_filter.mp hs).1
  later := by
    intro id hid
    have hnot : ¬r.picked out id = true := by
      rw [picked_iff]
      rintro ⟨session, hmem, -, rfl⟩
      exact Nat.not_lt.mpr hid (r.numbered session hmem)
    rw [if_neg hnot]
    exact r.later id hid

/-- An entry under the same handle is overwritten and its sender is dropped. -/
def register (r : SessionRegistry) (handle : Handle) (deviceId : Option DeviceId) :
    SessionId × SessionRegistry :=
  let kept := r.remove (fun session => session.handle == handle) .dropped
  (r.made,
    { kept with
      sessions := ⟨handle, deviceId, r.made⟩ :: kept.sessions
      made := r.made + 1
      apart := by
        rw [List.pairwise_cons]
        refine ⟨?_, kept.apart⟩
        intro session hs
        have hlt : session.close < r.made := kept.numbered session hs
        have hne : session.handle ≠ handle := by simpa using (List.mem_filter.mp hs).2
        exact ⟨hne.symm, (Nat.ne_of_lt hlt).symm⟩
      unused := by
        intro session hs
        rcases List.mem_cons.mp hs with rfl | hs
        · exact kept.later r.made (Nat.le_refl _)
        · exact kept.unused session hs
      numbered := by
        intro session hs
        rcases List.mem_cons.mp hs with rfl | hs
        · exact Nat.lt_succ_self _
        · exact Nat.lt_succ_of_lt (kept.numbered session hs)
      later := fun id hid => kept.later id (Nat.le_of_succ_le hid) })

def unregister (r : SessionRegistry) (handle : Handle) : SessionRegistry :=
  r.remove (fun session => session.handle == handle) .dropped

def closeForRevocation (r : SessionRegistry) (result : RevokeResult) : SessionRegistry :=
  r.remove result.names .revoked

end SessionRegistry

variable {r : SessionRegistry} {out : RegisteredSession → Bool} {reason : CloseState}
  {session : RegisteredSession} {id : SessionId} {handle : Handle} {deviceId : Option DeviceId}

@[simp] theorem mem_remove :
    session ∈ (r.remove out reason).sessions ↔ session ∈ r.sessions ∧ out session = false := by
  unfold SessionRegistry.remove
  simp

theorem closes_remove :
    (r.remove out reason).closes id = if r.picked out id then reason else r.closes id := rfl

theorem closes_picked (h : session ∈ r.sessions) (ho : out session = true) :
    (r.remove out reason).closes session.close = reason := by
  rw [closes_remove, if_pos]
  exact (r.picked_iff out _).mpr ⟨session, h, ho, rfl⟩

/-- A channel that still waits was not picked. -/
theorem waiting_remove (hr : reason ≠ .waiting)
    (h : (r.remove out reason).closes id = .waiting) :
    r.closes id = .waiting ∧ r.picked out id = false := by
  rw [closes_remove] at h
  cases hp : r.picked out id with
  | true =>
    rw [hp, if_pos rfl] at h
    exact absurd h hr
  | false =>
    rw [hp, if_neg (by decide)] at h
    exact ⟨h, rfl⟩

/-- An entry whose channel still waits has stayed. -/
theorem kept_of_waiting (hr : reason ≠ .waiting) (hs : session ∈ r.sessions)
    (h : (r.remove out reason).closes session.close = .waiting) :
    session ∈ (r.remove out reason).sessions := by
  refine (mem_remove).mpr ⟨hs, ?_⟩
  cases ho : out session with
  | false => rfl
  | true => exact absurd ((closes_picked hs ho).symm.trans h) hr

end HerdrMobile.Bridge.Registry
