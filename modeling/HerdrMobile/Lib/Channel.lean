import Mathlib.Data.List.Basic

/-!
# A bounded multi-producer queue with fair permits

Space is counted in permits. A sender that finds none waits its turn. The
receiver hands the permit of a message it takes to the oldest waiting sender
and only with nobody waiting returns it to the pool, so a free slot in `queue`
is not yet a free permit: it can belong to a sender that has not run since.
-/
namespace HerdrMobile.Lib.Channel

set_option autoImplicit false

/-- Every permit of an open queue is held by a queued message, by a sender it
was handed to, or by the pool; the pool is empty while anybody waits. -/
structure Chan (cap : Nat) (τ μ : Type*) where
  queue : List μ
  free : Nat
  waiting : List τ
  granted : List τ
  closed : Bool
  accounted : closed = false → queue.length + granted.length + free = cap
  fair : 0 < free → waiting = []

inductive Polled where
  | delivered
  | refused
  | pending
  deriving DecidableEq

namespace Chan

variable {cap : Nat} {τ μ : Type*} {c c' : Chan cap τ μ} {t : τ} {m : μ}
  {r : Polled}

def bounded (cap : Nat) (τ μ : Type*) : Chan cap τ μ where
  queue := []
  free := cap
  waiting := []
  granted := []
  closed := false
  accounted := by simp
  fair := by simp

/-- Push with a permit taken from the pool. -/
def push (c : Chan cap τ μ) (m : μ) (h : 0 < c.free) : Chan cap τ μ :=
  { c with
    queue := c.queue ++ [m]
    free := c.free - 1
    accounted := by
      intro hc
      have ha := c.accounted hc
      simp only [List.length_append, List.length_singleton]
      omega
    fair := fun hf => c.fair (by omega) }

/-- A send that never waits: it fails on a full queue and on a closed one. -/
def trySend (c : Chan cap τ μ) (m : μ) : Option (Chan cap τ μ) :=
  if c.closed then none
  else if h : 0 < c.free then some (c.push m h)
  else none

/-- The first poll of a waiting send. -/
def send (c : Chan cap τ μ) (t : τ) (m : μ) : Polled × Chan cap τ μ :=
  if c.closed then (.refused, c)
  else if h : 0 < c.free then (.delivered, c.push m h)
  else (.pending, { c with waiting := c.waiting ++ [t], fair := fun hf => absurd hf h })

/-- A later poll: the sender pushes with the permit it was handed. -/
def resume [DecidableEq τ] (c : Chan cap τ μ) (t : τ) (m : μ) : Polled × Chan cap τ μ :=
  if c.closed then (.refused, c)
  else if h : t ∈ c.granted then
    (.delivered, { c with
      queue := c.queue ++ [m]
      granted := c.granted.erase t
      accounted := by
        intro hc
        have ha := c.accounted hc
        have hl := List.length_erase_of_mem h
        have hp := List.length_pos_of_mem h
        simp only [List.length_append, List.length_singleton]
        omega })
  else (.pending, c)

/-- The receiver takes the oldest message and passes its permit on. -/
def recv (c : Chan cap τ μ) : Option (μ × Chan cap τ μ) :=
  match hq : c.queue with
  | [] => none
  | m :: queue =>
    match hw : c.waiting with
    | [] => some (m, { c with
        queue := queue
        free := c.free + 1
        accounted := by
          intro hc
          have ha := c.accounted hc
          simp only [hq, List.length_cons] at ha
          omega
        fair := fun _ => hw })
    | t :: waiting => some (m, { c with
        queue := queue
        waiting := waiting
        granted := c.granted ++ [t]
        accounted := by
          intro hc
          have ha := c.accounted hc
          simp only [hq, List.length_cons] at ha
          simp only [List.length_append, List.length_singleton]
          omega
        fair := by
          intro hf
          have hn := c.fair hf
          rw [hw] at hn
          cases hn })

/-- The receiver is gone: what was queued is lost and every send is refused. -/
def close (c : Chan cap τ μ) : Chan cap τ μ :=
  { c with queue := [], closed := true, accounted := by simp, fair := c.fair }

@[simp] theorem bounded_closed : (bounded cap τ μ).closed = false := rfl
@[simp] theorem bounded_queue : (bounded cap τ μ).queue = [] := rfl
@[simp] theorem bounded_waiting : (bounded cap τ μ).waiting = [] := rfl
@[simp] theorem bounded_granted : (bounded cap τ μ).granted = [] := rfl
@[simp] theorem close_closed (c : Chan cap τ μ) : c.close.closed = true := rfl
@[simp] theorem close_waiting (c : Chan cap τ μ) : c.close.waiting = c.waiting := rfl
@[simp] theorem close_granted (c : Chan cap τ μ) : c.close.granted = c.granted := rfl
@[simp] theorem push_queue (h : 0 < c.free) : (c.push m h).queue = c.queue ++ [m] := rfl
@[simp] theorem push_closed (h : 0 < c.free) : (c.push m h).closed = c.closed := rfl
@[simp] theorem push_waiting (h : 0 < c.free) : (c.push m h).waiting = c.waiting := rfl
@[simp] theorem push_granted (h : 0 < c.free) : (c.push m h).granted = c.granted := rfl

theorem trySend_eq_some : c.trySend m = some c' ↔
    c.closed = false ∧ ∃ h : 0 < c.free, c' = c.push m h := by
  unfold trySend
  by_cases hc : c.closed = true
  · simp [hc]
  · by_cases hf : 0 < c.free
    · simp [hc, hf, eq_comm]
    · simp [hc, hf]

theorem trySend_eq_none : c.trySend m = none ↔ c.closed = true ∨ c.free = 0 := by
  unfold trySend
  by_cases hc : c.closed = true
  · simp [hc]
  · by_cases hf : 0 < c.free
    · simp [hc, hf]
      omega
    · simp [hc, hf]
      omega

/-- What a try-send leaves behind: the queue with the message, or the queue as it was. -/
def attempt (c : Chan cap τ μ) (m : μ) : Chan cap τ μ := (c.trySend m).getD c

theorem attempt_cases (c : Chan cap τ μ) (m : μ) :
    (c.attempt m = c ∧ (c.closed = true ∨ c.free = 0)) ∨
    (c.closed = false ∧ ∃ h : 0 < c.free, c.attempt m = c.push m h) := by
  unfold attempt
  cases h : c.trySend m with
  | none => exact Or.inl ⟨rfl, (trySend_eq_none).mp h⟩
  | some c' => exact Or.inr ((trySend_eq_some).mp h)

@[simp] theorem attempt_closed (c : Chan cap τ μ) (m : μ) : (c.attempt m).closed = c.closed := by
  rcases attempt_cases c m with ⟨h, _⟩ | ⟨_, _, h⟩ <;> rw [h]
  rfl

@[simp] theorem attempt_waiting (c : Chan cap τ μ) (m : μ) :
    (c.attempt m).waiting = c.waiting := by
  rcases attempt_cases c m with ⟨h, _⟩ | ⟨_, _, h⟩ <;> rw [h]
  rfl

@[simp] theorem attempt_granted (c : Chan cap τ μ) (m : μ) :
    (c.attempt m).granted = c.granted := by
  rcases attempt_cases c m with ⟨h, _⟩ | ⟨_, _, h⟩ <;> rw [h]
  rfl

theorem attempt_queue (c : Chan cap τ μ) (m : μ) :
    (c.attempt m).queue = c.queue ∨ (c.attempt m).queue = c.queue ++ [m] := by
  rcases attempt_cases c m with ⟨h, _⟩ | ⟨_, _, h⟩ <;> rw [h]
  · exact Or.inl rfl
  · exact Or.inr rfl

theorem send_cases (h : c.send t m = (r, c')) :
    (r = .refused ∧ c.closed = true ∧ c' = c) ∨
    (r = .delivered ∧ c.closed = false ∧ ∃ hf : 0 < c.free, c' = c.push m hf) ∨
    (r = .pending ∧ c.closed = false ∧ c.free = 0 ∧ c'.queue = c.queue ∧ c'.free = 0 ∧
      c'.waiting = c.waiting ++ [t] ∧ c'.granted = c.granted ∧ c'.closed = false) := by
  unfold send at h
  by_cases hc : c.closed = true
  · rw [if_pos hc] at h
    cases h
    exact Or.inl ⟨rfl, hc, rfl⟩
  · rw [if_neg hc] at h
    have hc : c.closed = false := by simpa using hc
    by_cases hf : 0 < c.free
    · rw [dif_pos hf] at h
      cases h
      exact Or.inr (Or.inl ⟨rfl, hc, hf, rfl⟩)
    · rw [dif_neg hf] at h
      cases h
      exact Or.inr (Or.inr ⟨rfl, hc, by omega, rfl, by simp; omega, rfl, rfl, hc⟩)

theorem resume_cases [DecidableEq τ] (h : c.resume t m = (r, c')) :
    (r = .refused ∧ c.closed = true ∧ c' = c) ∨
    (r = .delivered ∧ c.closed = false ∧ t ∈ c.granted ∧ c'.queue = c.queue ++ [m] ∧
      c'.free = c.free ∧ c'.waiting = c.waiting ∧ c'.granted = c.granted.erase t ∧
      c'.closed = false) ∨
    (r = .pending ∧ c.closed = false ∧ t ∉ c.granted ∧ c' = c) := by
  unfold resume at h
  by_cases hc : c.closed = true
  · rw [if_pos hc] at h
    cases h
    exact Or.inl ⟨rfl, hc, rfl⟩
  · rw [if_neg hc] at h
    have hc : c.closed = false := by simpa using hc
    by_cases hg : t ∈ c.granted
    · rw [dif_pos hg] at h
      cases h
      exact Or.inr (Or.inl ⟨rfl, hc, hg, rfl, rfl, rfl, rfl, hc⟩)
    · rw [dif_neg hg] at h
      cases h
      exact Or.inr (Or.inr ⟨rfl, hc, hg, rfl⟩)

theorem recv_cases (h : c.recv = some (m, c')) :
    c.queue = m :: c'.queue ∧ c'.closed = c.closed ∧
    ((c.waiting = [] ∧ c'.waiting = [] ∧ c'.granted = c.granted ∧ c'.free = c.free + 1) ∨
      (∃ t, c.waiting = t :: c'.waiting ∧ c'.granted = c.granted ++ [t] ∧ c'.free = c.free)) := by
  unfold recv at h
  split at h
  · cases h
  · rename_i m' queue hq
    split at h
    · rename_i hw
      cases h
      exact ⟨hq, rfl, Or.inl ⟨hw, hw, rfl, rfl⟩⟩
    · rename_i t waiting hw
      cases h
      exact ⟨hq, rfl, Or.inr ⟨t, hw, rfl, rfl⟩⟩

end Chan

end HerdrMobile.Lib.Channel
