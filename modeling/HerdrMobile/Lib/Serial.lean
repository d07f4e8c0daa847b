import Mathlib.Data.List.Basic

/-!
# Changes in order

The changes of a list of calls, one after the other, where a call may change nothing. A change
that comes late can stand in its place if it commutes with those behind it.
-/
namespace HerdrMobile.Lib.Serial

set_option autoImplicit false

variable {σ : Type*}

def applied (changes : List (Option (σ → σ))) (x : σ) : σ :=
  changes.foldl (fun x change => change.elim x fun f => f x) x

theorem applied_cons (change : Option (σ → σ)) (changes : List (Option (σ → σ))) (x : σ) :
    applied (change :: changes) x = applied changes (change.elim x fun f => f x) := rfl

theorem applied_append (changes more : List (Option (σ → σ))) (x : σ) :
    applied (changes ++ more) x = applied more (applied changes x) :=
  List.foldl_append

/-- A change that commutes with all changes can come before them. -/
theorem applied_comm {changes : List (Option (σ → σ))} {f : σ → σ}
    (h : ∀ g, some g ∈ changes → ∀ x, g (f x) = f (g x)) (x : σ) :
    applied changes (f x) = f (applied changes x) := by
  induction changes generalizing x with
  | nil => rfl
  | cons change changes ih =>
    have hrest : ∀ g, some g ∈ changes → ∀ x, g (f x) = f (g x) := fun g hg =>
      h g (List.mem_cons_of_mem _ hg)
    rw [applied_cons, applied_cons]
    cases change with
    | none => exact ih hrest x
    | some g =>
      rw [Option.elim_some, Option.elim_some, h g List.mem_cons_self x]
      exact ih hrest (g x)

/-- A change put where none was. -/
theorem applied_set {changes : List (Option (σ → σ))} {i : Nat} {f : σ → σ}
    (hi : changes[i]? = some none)
    (hlater : ∀ j g, i < j → changes[j]? = some (some g) → ∀ x, g (f x) = f (g x)) (x : σ) :
    applied (changes.set i (some f)) x = f (applied changes x) := by
  induction changes generalizing i x with
  | nil => cases hi
  | cons change changes ih =>
    cases i with
    | zero =>
      cases hi
      rw [List.set_cons_zero, applied_cons, applied_cons]
      apply applied_comm
      intro g hg
      obtain ⟨j, hj⟩ := List.mem_iff_getElem?.mp hg
      exact hlater (j + 1) g (Nat.succ_pos j) hj
    | succ i =>
      rw [List.set_cons_succ, applied_cons, applied_cons]
      apply ih hi
      intro j g hij hj
      exact hlater (j + 1) g (Nat.succ_lt_succ hij) hj

end HerdrMobile.Lib.Serial
