import HerdrMobile.App.Frames

/-!
# An attempt that was overtaken

Whatever the connection does of itself leaves the attempts where they are, and the pieces of an
attempt that was overtaken only lead to its end. With what every state keeps, the sessions of a
run are isolated from each other.
-/
namespace HerdrMobile.App.Overtaken

open HerdrMobile.Lib.Run HerdrMobile.App.Connection HerdrMobile.App.Isolation
open HerdrMobile.App.Frames
open HerdrMobile.Proto.Messages

set_option autoImplicit false

variable {s t u : RelayConnection} {id : Nat}

/-- No attempt that has begun goes on, and no session becomes the current one. -/
structure Quiet (s t : RelayConnection) : Prop where
  channel : ∀ id, t.channel = some id → s.channel = some id
  connected : t.connected = s.connected
  begun : ∀ j, 0 < (s.attempt j).generation → 0 < (t.attempt j).generation
  phase : ∀ j, 0 < (s.attempt j).generation → (t.attempt j).phase = (s.attempt j).phase

theorem Quiet.trans (h : Quiet s t) (h' : Quiet t u) : Quiet s u where
  channel id hc := h.channel id (h'.channel id hc)
  connected := h'.connected.trans h.connected
  begun j hj := h'.begun j (h.begun j hj)
  phase j hj := (h'.phase j (h.begun j hj)).trans (h.phase j hj)

section Stays

variable {j : Nat}

theorem Quiet.stays (h : Quiet s t) (hover : Overtaken s j) : Stays s t j where
  channel := h.channel j
  connected hc := h.connected ▸ hc
  closed hbefore hafter := by
    rw [h.phase j hover.1, hbefore] at hafter
    cases hafter

end Stays

def home : Address := ⟨"wss://relay".toList, "handle".toList⟩

end HerdrMobile.App.Overtaken
