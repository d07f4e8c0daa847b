import HerdrMobile.Lib.Latest
import HerdrMobile.Proto.Envelope

/-!
# Outgoing messages

The transport takes everything that the bridge thread has queued for the Device as one batch, and
of the frames in it sends the last of each pane.
-/
namespace HerdrMobile.Host.Outgoing

open HerdrMobile.Lib.Latest HerdrMobile.Proto.Envelope
open HerdrMobile.Proto.Messages (PaneId Text)

set_option autoImplicit false

variable {F : Type}

/-- A message with the correlation id that it echoes. -/
abbrev Queued (F : Type) := Message F × Option Text

/-- The pane of a `pane_frame`. -/
def framePane : Queued F → Option PaneId
  | (⟨.paneFrame, frame⟩, _) => some frame.paneId
  | _ => none

/-- `rx` is what the channel has when `first` has been taken from it. -/
def drainOutgoing (first : Queued F) (rx : List (Queued F)) : List (Queued F) :=
  let batch := first :: rx
  (retain framePane [] batch.reverse).reverse

/-- Nothing but frames is dropped, and of a pane's frames all but the last. -/
structure Coalesced (queued sent : List (Queued F)) : Prop where
  sublist : sent.Sublist queued
  others : (sent.filter fun m => m.1.kind ≠ .paneFrame) =
    queued.filter fun m => m.1.kind ≠ .paneFrame
  frames : ∀ paneId, (sent.filter fun m => framePane m = some paneId) =
    (queued.filter fun m => framePane m = some paneId).getLast?.toList

theorem framePane_none (m : Queued F) : framePane m = none ↔ m.1.kind ≠ .paneFrame := by
  obtain ⟨⟨kind, payload⟩, corr⟩ := m
  cases kind with
  | paneFrame => exact iff_of_false nofun fun h => h rfl
  | _ => exact iff_of_true rfl nofun

theorem unkeyed_framePane (queued : List (Queued F)) :
    unkeyed framePane queued = queued.filter fun m => m.1.kind ≠ .paneFrame := by
  unfold unkeyed
  refine List.filter_congr fun m _ => ?_
  exact decide_eq_decide.mpr (framePane_none m)

/-- Whatever is queued, for any panes and of any kinds. -/
theorem drainOutgoing_coalesces (first : Queued F) (rx : List (Queued F)) :
    Coalesced (first :: rx) (drainOutgoing first rx) where
  sublist := latest_sublist (first :: rx)
  others := by
    rw [← unkeyed_framePane, ← unkeyed_framePane]
    exact unkeyed_latest (first :: rx)
  frames paneId := withKey_latest paneId (first :: rx)

end HerdrMobile.Host.Outgoing
