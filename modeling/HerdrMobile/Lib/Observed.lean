import HerdrMobile.Lib.Run

/-!
# What an observer sees of a run

A view that a step either leaves as it is or changes by what the view itself shows depends on the
events of the second kind alone. Two runs that have these in common look the same.
-/
namespace HerdrMobile.Lib.Observed

open HerdrMobile.Lib.Run

set_option autoImplicit false

variable {σ ε ν : Type*} {step : σ → ε → Option σ} {s₀ s₀' s s' : σ} {es es' : List ε}

/-- The view goes on with the events that the observer sees. -/
def Sees (step : σ → ε → Option σ) (s₀ : σ) (es : List ε) (Inv : σ → Prop) (view : σ → ν)
    (sees : ε → Bool) (act : ν → ε → ν) : Prop :=
  ∀ s e t, Inv s → Occurs step s₀ es s e t →
    Inv t ∧ view t = if sees e then act (view s) e else view s

variable {Inv : σ → Prop} {view : σ → ν} {sees : ε → Bool} {act : ν → ε → ν}

theorem view_run (hsees : Sees step s₀ es Inv view sees act) (h₀ : Inv s₀)
    (hr : run step s₀ es = some s) : view s = (es.filter sees).foldl act (view s₀) := by
  suffices hall : ∀ pre post, es = pre ++ post → ∀ s, run step s₀ pre = some s →
      Inv s ∧ view s = (pre.filter sees).foldl act (view s₀) from
    (hall es [] (List.append_nil es).symm s hr).2
  intro pre
  induction pre using List.reverseRecOn with
  | nil =>
    intro post hes s hs
    cases hs
    exact ⟨h₀, rfl⟩
  | append_singleton pre e ih =>
    intro post hes s hs
    obtain ⟨r, hbefore, hlast⟩ := run_snoc_inv hs
    rw [List.append_assoc] at hes
    obtain ⟨hinv, hview⟩ := ih ([e] ++ post) hes r hbefore
    obtain ⟨hinv', hview'⟩ := hsees r e s hinv ⟨pre, post, hes, hbefore, hlast⟩
    refine ⟨hinv', ?_⟩
    rw [hview', List.filter_append, List.foldl_append, ← hview]
    cases hseen : sees e with
    | true => rw [List.filter_cons_of_pos hseen, if_pos rfl, List.filter_nil, List.foldl_cons,
        List.foldl_nil]
    | false => rw [List.filter_cons_of_neg (Bool.eq_false_iff.mp hseen),
        if_neg Bool.false_ne_true, List.filter_nil, List.foldl_nil]

/-- What two runs do not have in common is not seen. -/
theorem view_eq (hsees : Sees step s₀ es Inv view sees act)
    (hsees' : Sees step s₀' es' Inv view sees act) (h₀ : Inv s₀) (h₀' : Inv s₀')
    (hview : view s₀ = view s₀') (hsame : es.filter sees = es'.filter sees)
    (hr : run step s₀ es = some s) (hr' : run step s₀' es' = some s') : view s = view s' := by
  rw [view_run hsees h₀ hr, view_run hsees' h₀' hr', hview, hsame]

end HerdrMobile.Lib.Observed
