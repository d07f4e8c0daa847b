import HerdrMobile.Lib.Run

/-!
# What a run adds up to

Each step of a run comes with a number. A stock that every step moves by what it gains and what
it loses is balanced by the totals of the two.
-/
namespace HerdrMobile.Lib.Run

set_option autoImplicit false

variable {σ ε : Type*} {step : σ → ε → Option σ} {s₀ s t : σ} {e : ε} {es : List ε}

/-- What the steps of a run add up to. -/
def total (step : σ → ε → Option σ) (amount : σ → ε → Nat) : σ → List ε → Nat
  | _, [] => 0
  | s, e :: es => amount s e + (step s e).elim 0 fun t => total step amount t es

theorem total_add {f g : σ → ε → Nat} :
    total step (fun s e => f s e + g s e) s₀ es = total step f s₀ es + total step g s₀ es := by
  induction es generalizing s₀ with
  | nil => rfl
  | cons e rest ih =>
    simp only [total]
    cases step s₀ e with
    | none => rfl
    | some t =>
      simp only [Option.elim_some, ih]
      exact Nat.add_add_add_comm ..

theorem total_snoc {amount : σ → ε → Nat} (h : run step s₀ es = some s) :
    total step amount s₀ (es ++ [e]) = total step amount s₀ es + amount s e := by
  induction es generalizing s₀ with
  | nil =>
    obtain rfl : s₀ = s := Option.some.inj h
    simp only [List.nil_append, total, Nat.zero_add]
    cases step s₀ e with
    | none => exact Nat.add_zero _
    | some t => exact Nat.add_zero _
  | cons first rest ih =>
    obtain ⟨t, ht, hr⟩ := Option.bind_eq_some_iff.mp h
    simp only [List.cons_append, total, ht, Option.elim_some, ih hr]
    exact (Nat.add_assoc _ _ _).symm

/-- A stock that each step moves by what comes in and what goes out is balanced over a run. -/
theorem total_balance {stock : σ → Nat} {gain loss : σ → ε → Nat}
    (hstep : ∀ {pre s e t}, run step s₀ pre = some s → step s e = some t →
      stock t + loss s e = stock s + gain s e)
    (hr : run step s₀ es = some s) :
    stock s + total step loss s₀ es = stock s₀ + total step gain s₀ es := by
  induction es using List.reverseRecOn generalizing s with
  | nil =>
    cases hr
    rfl
  | append_singleton init e ih =>
    obtain ⟨r, hi, hs⟩ := run_snoc_inv hr
    have hbalance := ih hi
    have hlast := hstep hi hs
    rw [total_snoc hi, total_snoc hi]
    omega

end HerdrMobile.Lib.Run
