import Mathlib.Order.Basic

/-!
# A receiver that drops what is older

A sender numbers its items and puts them on an in-order channel; the receiver keeps
the number of the best item so far and drops every item below it. A base announces the
number that the items after it start from. None is dropped as long as the numbers on
the channel rise from what the receiver has to what the sender sent last.
-/
namespace HerdrMobile.Lib.Newest

set_option autoImplicit false

variable {α : Type*}

inductive Mark (α : Type*) where
  | base (a : α)
  | item (a : α)

def Mark.value : Mark α → α
  | .base a => a
  | .item a => a

/-- The number that the last mark leaves behind. -/
def bound (b : Option α) (ms : List (Mark α)) : Option α := ms.foldl (fun _ m => some m.value) b

theorem bound_snoc (b : Option α) (ms : List (Mark α)) (m : Mark α) :
    bound b (ms ++ [m]) = some m.value := by
  unfold bound
  rw [List.foldl_append]
  rfl

section Order

variable [Preorder α] {a : α} {b b' b₁ last last' : Option α} {ms : List (Mark α)}

/-- No number is below every number. -/
def Below (b b' : Option α) : Prop := ∀ x ∈ b, ∃ y ∈ b', x ≤ y

theorem below_none : Below none b := fun _ hx => nomatch hx

theorem below_refl (b : Option α) : Below b b := fun x hx => ⟨x, hx, le_refl x⟩

theorem Below.trans (h : Below b b₁) (h' : Below b₁ b') : Below b b' := by
  intro x hx
  obtain ⟨y, hy, hxy⟩ := h x hx
  obtain ⟨z, hz, hyz⟩ := h' y hy
  exact ⟨z, hz, le_trans hxy hyz⟩

theorem below_some : Below b (some a) ↔ ∀ x ∈ b, x ≤ a := by
  constructor
  · intro h x hx
    obtain ⟨y, hy, hxy⟩ := h x hx
    cases hy
    exact hxy
  · intro h x hx
    exact ⟨a, rfl, h x hx⟩

/-- Every item is at or above the mark before it. -/
@[grind =]
def Rising : Option α → List (Mark α) → Prop
  | _, [] => True
  | _, .base a :: ms => Rising (some a) ms
  | b, .item a :: ms => Below b (some a) ∧ Rising (some a) ms

theorem rising_mono (hb : Below b b') (h : Rising b' ms) : Rising b ms := by
  cases ms with
  | nil => trivial
  | cons m ms =>
    cases m with
    | base a => exact h
    | item a => exact ⟨hb.trans h.1, h.2⟩

theorem bound_mono (hb : Below b b') : Below (bound b ms) (bound b' ms) := by
  cases ms with
  | nil => exact hb
  | cons m ms => exact below_refl _

theorem rising_snoc_base (h : Rising b ms) : Rising b (ms ++ [.base a]) := by
  induction ms generalizing b with
  | nil => trivial
  | cons m ms ih =>
    cases m with
    | base a => exact ih h
    | item a => exact ⟨h.1, ih h.2⟩

theorem rising_snoc_item (h : Rising b ms) (ha : Below (bound b ms) (some a)) :
    Rising b (ms ++ [.item a]) := by
  induction ms generalizing b with
  | nil => exact ⟨ha, trivial⟩
  | cons m ms ih =>
    cases m with
    | base a => exact ih h ha
    | item a => exact ⟨h.1, ih h.2 ha⟩

/-- The receiver has `best`, `ms` is on its way, and the sender sent `last` last. -/
structure InOrder (best : Option α) (ms : List (Mark α)) (last : Option α) : Prop where
  rising : Rising best ms
  reached : Below (bound best ms) last

namespace InOrder

theorem weaken (hb : Below b b') (h : InOrder b' ms last) : InOrder b ms last :=
  ⟨rising_mono hb h.rising, (bound_mono hb).trans h.reached⟩

theorem sendBase (h : InOrder b ms last) : InOrder b (ms ++ [.base a]) (some a) := by
  refine ⟨rising_snoc_base h.rising, ?_⟩
  rw [bound_snoc]
  exact below_refl _

theorem sendItem (h : InOrder b ms last) (ha : Below last (some a)) :
    InOrder b (ms ++ [.item a]) (some a) := by
  refine ⟨rising_snoc_item h.rising (h.reached.trans ha), ?_⟩
  rw [bound_snoc]
  exact below_refl _

/-- The receiver does not drop the item that arrives. -/
theorem takeItem (h : InOrder b (.item a :: ms) last) :
    Below b (some a) ∧ InOrder (some a) ms last := ⟨h.rising.1, h.rising.2, h.reached⟩

theorem takeBase (h : InOrder b (.base a :: ms) last) (hb : Below b' (some a)) :
    InOrder b' ms last := weaken hb ⟨h.rising, h.reached⟩

end InOrder

end Order

end HerdrMobile.Lib.Newest
