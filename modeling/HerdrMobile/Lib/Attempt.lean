/-!
# Actions that may throw

An action changes a state and returns a value or throws. What it has changed before it throws
stays changed, and a handler goes on from there.
-/
namespace HerdrMobile.Lib

set_option autoImplicit false

structure Attempt (σ α : Type) where
  run : σ → σ × Option α

namespace Attempt

variable {σ α β : Type}

instance : Monad (Attempt σ) where
  pure a := ⟨fun s => (s, some a)⟩
  bind x f := ⟨fun s =>
    match x.run s with
    | (t, some a) => (f a).run t
    | (t, none) => (t, none)⟩

def throw : Attempt σ α := ⟨fun s => (s, none)⟩

/-- `try` with one handler for whatever is thrown. -/
def catching (x handler : Attempt σ α) : Attempt σ α :=
  ⟨fun s =>
    match x.run s with
    | (t, some a) => (t, some a)
    | (t, none) => handler.run t⟩

def get : Attempt σ σ := ⟨fun s => (s, some s)⟩

def update (f : σ → σ) : Attempt σ Unit := ⟨fun s => (f s, some ())⟩

variable {x : Attempt σ α} {f : α → Attempt σ β} {handler : Attempt σ α} {s t : σ} {a : α}

@[simp] theorem run_pure (a : α) (s : σ) : (pure a : Attempt σ α).run s = (s, some a) := rfl

@[simp] theorem run_get_bind (g : σ → Attempt σ β) (s : σ) :
    (get >>= g).run s = (g s).run s := rfl

@[simp] theorem run_update_bind (g : σ → σ) (h : Unit → Attempt σ β) (s : σ) :
    (update g >>= h).run s = (h ()).run (g s) := rfl

theorem bind_some (h : x.run s = (t, some a)) : (x >>= f).run s = (f a).run t := by
  show (match x.run s with
    | (t, some a) => (f a).run t
    | (t, none) => (t, none)) = _
  rw [h]

theorem bind_none (h : x.run s = (t, none)) : (x >>= f).run s = (t, none) := by
  show (match x.run s with
    | (t, some a) => (f a).run t
    | (t, none) => (t, none)) = _
  rw [h]

theorem catching_some (h : x.run s = (t, some a)) : (catching x handler).run s = (t, some a) := by
  show (match x.run s with
    | (t, some a) => (t, some a)
    | (t, none) => handler.run t) = _
  rw [h]

theorem catching_none (h : x.run s = (t, none)) :
    (catching x handler).run s = handler.run t := by
  show (match x.run s with
    | (t, some a) => (t, some a)
    | (t, none) => handler.run t) = _
  rw [h]

theorem run_bind_assoc {γ : Type} (g : β → Attempt σ γ) :
    ((x >>= f) >>= g).run s = (x >>= fun a => f a >>= g).run s := by
  cases hx : x.run s with
  | mk t value =>
    cases value with
    | some a =>
      rw [bind_some hx]
      cases hf : (f a).run t with
      | mk u value =>
        have hboth : (x >>= f).run s = (u, value) := (bind_some hx).trans hf
        cases value with
        | some b => rw [bind_some hboth, bind_some hf]
        | none => rw [bind_none hboth, bind_none hf]
    | none =>
      rw [bind_none hx]
      exact bind_none (bind_none hx)

/-- What is caught depends on how the action ends only. -/
theorem catching_congr {y : Attempt σ α} (h : x.run s = y.run t) :
    (catching x handler).run s = (catching y handler).run t := by
  show (match x.run s with
    | (t, some a) => (t, some a)
    | (t, none) => handler.run t) = _
  rw [h]
  rfl

end Attempt

end HerdrMobile.Lib
