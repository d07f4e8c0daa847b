import Mathlib.Data.Option.Basic

/-!
# Replaying changes over their own result

Changes to one cell that put a value there, or empty it if it holds one of a kind.
Replaying them in their order over the result they had leads to that result again: so
changes that are still on their way do no harm to a copy taken after them.
-/
namespace HerdrMobile.Lib.Replay

set_option autoImplicit false

variable {α : Type*}

inductive Op (α : Type*) where
  | put (a : α)
  | drop (kind : α → Bool)

namespace Op

/-- The cell is left alone. -/
def keep : Op α := .drop fun _ => false

def apply : Op α → Option α → Option α
  | .put a, _ => some a
  | .drop kind, x => x.filter fun a => !kind a

@[simp] theorem apply_keep (x : Option α) : keep.apply x = x := by
  cases x with
  | none => rfl
  | some a => rfl

end Op

def replay (ops : List (Op α)) (x : Option α) : Option α := ops.foldl (fun x op => op.apply x) x

theorem filter_filter (p q : α → Bool) (x : Option α) :
    (x.filter p).filter q = x.filter fun a => p a && q a := by
  cases x with
  | none => rfl
  | some a => cases hp : p a <;> cases hq : q a <;> simp [Option.filter, hp, hq]

/-- A replay forgets the cell, or it only ever empties it. -/
theorem replay_cases (ops : List (Op α)) :
    (∃ y, ∀ x, replay ops x = y) ∨ ∃ p : α → Bool, ∀ x, replay ops x = x.filter p := by
  induction ops with
  | nil =>
    refine Or.inr ⟨fun _ => true, ?_⟩
    intro x
    cases x with
    | none => rfl
    | some a => rfl
  | cons op ops ih =>
    have hcons : ∀ x, replay (op :: ops) x = replay ops (op.apply x) := fun _ => rfl
    cases ih with
    | inl h =>
      obtain ⟨y, hy⟩ := h
      exact Or.inl ⟨y, fun x => (hcons x).trans (hy _)⟩
    | inr h =>
      obtain ⟨p, hp⟩ := h
      cases op with
      | put a => exact Or.inl ⟨(some a).filter p, fun x => (hcons x).trans (hp _)⟩
      | drop kind =>
        refine Or.inr ⟨fun a => !kind a && p a, ?_⟩
        intro x
        rw [hcons, hp]
        exact filter_filter _ p x

theorem replay_replay (ops : List (Op α)) (x : Option α) :
    replay ops (replay ops x) = replay ops x := by
  cases replay_cases ops with
  | inl h =>
    obtain ⟨y, hy⟩ := h
    rw [hy, hy]
  | inr h =>
    obtain ⟨p, hp⟩ := h
    rw [hp, hp, filter_filter]
    simp only [Bool.and_self]

end HerdrMobile.Lib.Replay
