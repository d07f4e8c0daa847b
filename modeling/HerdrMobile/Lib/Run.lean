import Mathlib.Data.Option.Basic
import Mathlib.Data.List.Induction

/-!
# Runs of a partial step function

A component is a state type, an event type and a step that is undefined where
the event cannot happen. A run feeds a list of events. Facts about runs are
stated over the steps that occur in it and over the states it visits, and every
one of them comes from what a single step preserves.
-/
namespace HerdrMobile.Lib.Run

set_option autoImplicit false

variable {σ ε : Type*} {step : σ → ε → Option σ} {s₀ s t : σ} {e : ε} {es fs : List ε}

def run (step : σ → ε → Option σ) : σ → List ε → Option σ
  | s, [] => some s
  | s, e :: es => (step s e).bind fun t => run step t es

/-- The run of `es` from `s₀` passes through `s`. -/
def Visits (step : σ → ε → Option σ) (s₀ : σ) (es : List ε) (s : σ) : Prop :=
  ∃ pre post, es = pre ++ post ∧ run step s₀ pre = some s

/-- The run of `es` from `s₀` takes the step from `s` by `e` to `t`. -/
def Occurs (step : σ → ε → Option σ) (s₀ : σ) (es : List ε) (s : σ) (e : ε) (t : σ) : Prop :=
  ∃ pre post, es = pre ++ e :: post ∧ run step s₀ pre = some s ∧ step s e = some t

theorem run_append : run step s₀ (es ++ fs) = (run step s₀ es).bind fun s => run step s fs := by
  induction es generalizing s₀ with
  | nil => rfl
  | cons e es ih =>
    simp only [List.cons_append, run]
    cases step s₀ e with
    | none => rfl
    | some s => exact ih

theorem run_snoc (h : run step s₀ es = some s) (hs : step s e = some t) :
    run step s₀ (es ++ [e]) = some t := by
  rw [run_append, h]
  simp [run, hs]

theorem run_snoc_inv (h : run step s₀ (es ++ [e]) = some t) :
    ∃ s, run step s₀ es = some s ∧ step s e = some t := by
  rw [run_append] at h
  cases hs : run step s₀ es with
  | none => simp [hs] at h
  | some s =>
    rw [hs] at h
    cases ht : step s e with
    | none => simp [run, ht] at h
    | some u =>
      have hu : u = t := by simpa [run, ht] using h
      exact ⟨s, rfl, hu ▸ ht⟩

theorem visits_end (h : run step s₀ es = some s) : Visits step s₀ es s :=
  ⟨es, [], (List.append_nil es).symm, h⟩

theorem Occurs.before (h : Occurs step s₀ es s e t) : Visits step s₀ es s := by
  obtain ⟨pre, post, he, hr, _⟩ := h
  exact ⟨pre, e :: post, he, hr⟩

theorem Occurs.after (h : Occurs step s₀ es s e t) : Visits step s₀ es t := by
  obtain ⟨pre, post, he, hr, hs⟩ := h
  exact ⟨pre ++ [e], post, by simp [he], run_snoc hr hs⟩

theorem Occurs.step_eq (h : Occurs step s₀ es s e t) : step s e = some t := by
  obtain ⟨_, _, _, _, hs⟩ := h
  exact hs

/-- What holds at the start and is preserved by the steps that occur in a run
holds in every state of the run. -/
theorem visits_invariant (Inv : σ → Prop) (h₀ : Inv s₀)
    (hstep : ∀ {s e t}, Inv s → Occurs step s₀ es s e t → Inv t) (hv : Visits step s₀ es s) :
    Inv s := by
  obtain ⟨pre, post, he, hr⟩ := hv
  induction pre using List.reverseRecOn generalizing post s with
  | nil => exact Option.some.inj hr ▸ h₀
  | append_singleton init e ih =>
    obtain ⟨r, hi, hs⟩ := run_snoc_inv hr
    have hes : es = init ++ e :: post := by simp [he]
    exact hstep (ih (e :: post) hes hi) ⟨init, post, hes, hi, hs⟩

/-- The unconditional case: what every step preserves holds in every state of every run. -/
theorem visits_of_step (Inv : σ → Prop) (h₀ : Inv s₀)
    (hstep : ∀ {s e t}, Inv s → step s e = some t → Inv t) (hv : Visits step s₀ es s) : Inv s :=
  visits_invariant Inv h₀ (fun hi ho => hstep hi ho.step_eq) hv

/-- What holds of the events so far and the state they lead to, and is kept by every step. -/
theorem run_history (Inv : List ε → σ → Prop) (h₀ : Inv [] s₀)
    (hstep : ∀ {es s e t}, Inv es s → step s e = some t → Inv (es ++ [e]) t)
    (hr : run step s₀ es = some s) : Inv es s := by
  induction es using List.reverseRecOn generalizing s with
  | nil => exact Option.some.inj hr ▸ h₀
  | append_singleton init e ih =>
    obtain ⟨r, hi, hs⟩ := run_snoc_inv hr
    exact hstep (ih hi) hs

/-- The check of every step of a run, for a guard that can be evaluated. -/
def everyStep (step : σ → ε → Option σ) (good : σ → ε → Bool) : σ → List ε → Bool
  | _, [] => true
  | s, e :: es =>
    match step s e with
    | none => true
    | some t => good s e && everyStep step good t es

theorem occurs_good {good : σ → ε → Bool} (h : everyStep step good s₀ es = true)
    (ho : Occurs step s₀ es s e t) : good s e = true := by
  obtain ⟨pre, post, rfl, hr, hs⟩ := ho
  induction pre generalizing s₀ with
  | nil =>
    cases hr
    simp only [List.nil_append, everyStep, hs, Bool.and_eq_true] at h
    exact h.1
  | cons e' pre ih =>
    simp only [run] at hr
    obtain ⟨u, hu, hr⟩ := Option.bind_eq_some_iff.mp hr
    simp only [List.cons_append, everyStep, hu, Bool.and_eq_true] at h
    exact ih h.2 hr

/-- The same for a guard that is a proposition. -/
def Each (step : σ → ε → Option σ) (good : σ → ε → Prop) : σ → List ε → Prop
  | _, [] => True
  | s, e :: es => good s e ∧ ∀ t, step s e = some t → Each step good t es

theorem occurs_each {good : σ → ε → Prop} (h : Each step good s₀ es)
    (ho : Occurs step s₀ es s e t) : good s e := by
  obtain ⟨pre, post, rfl, hr, hs⟩ := ho
  induction pre generalizing s₀ with
  | nil =>
    cases hr
    exact h.1
  | cons e' pre ih =>
    simp only [run] at hr
    obtain ⟨u, hu, hr⟩ := Option.bind_eq_some_iff.mp hr
    exact ih (h.2 u hu) hr

theorem occurs_last (hr : run step s₀ es = some s) (hs : step s e = some t) :
    Occurs step s₀ (es ++ [e]) s e t :=
  ⟨es, [], rfl, hr, hs⟩

/-- The run of `es` from `s₀` takes the step from `s` by `e` to `t`, then the events `mid`,
and then the step from `u` by `f` to `v`. -/
def Follows (step : σ → ε → Option σ) (s₀ : σ) (es : List ε) (s : σ) (e : ε) (t : σ)
    (mid : List ε) (u : σ) (f : ε) (v : σ) : Prop :=
  ∃ pre post, es = pre ++ e :: (mid ++ f :: post) ∧ run step s₀ pre = some s ∧
    step s e = some t ∧ run step t mid = some u ∧ step u f = some v

theorem Follows.first {t u v : σ} {f : ε} {mid : List ε}
    (h : Follows step s₀ es s e t mid u f v) : Occurs step s₀ es s e t := by
  obtain ⟨pre, post, hes, hpre, hs, -, -⟩ := h
  exact ⟨pre, mid ++ f :: post, hes, hpre, hs⟩

theorem Follows.second {t u v : σ} {f : ε} {mid : List ε}
    (h : Follows step s₀ es s e t mid u f v) : Occurs step s₀ es u f v := by
  obtain ⟨pre, post, hes, hpre, hs, hmid, hf⟩ := h
  refine ⟨pre ++ e :: mid, post, by simp [hes], ?_, hf⟩
  rw [run_append, hpre]
  show run step s (e :: mid) = some u
  rw [run, hs]
  exact hmid

/-- A step adds to a log, and what it adds is right exactly when the step is good. So the
whole log of a run is right exactly when every step of it is good. -/
theorem log_right_iff {α : Type*} (log : σ → List α) {good : σ → ε → Prop} {right : α → Prop}
    (hstep : ∀ s e t, step s e = some t →
      ∃ new, log t = new ++ log s ∧ (good s e ↔ ∀ x ∈ new, right x))
    (hr : run step s₀ es = some s) :
    ∃ new, log s = new ++ log s₀ ∧
      ((∀ a e b, Occurs step s₀ es a e b → good a e) ↔ ∀ x ∈ new, right x) := by
  induction es using List.reverseRecOn generalizing s with
  | nil =>
    cases hr
    refine ⟨[], rfl, fun _ x hx => (List.not_mem_nil hx).elim, ?_⟩
    rintro - a e b ⟨pre, post, hes, -, -⟩
    cases pre <;> cases hes
  | append_singleton init e ih =>
    obtain ⟨r, hi, hs⟩ := run_snoc_inv hr
    obtain ⟨old, hold, hgood⟩ := ih hi
    obtain ⟨new, hnew, hlast⟩ := hstep r e s hs
    refine ⟨new ++ old, by rw [hnew, hold, List.append_assoc], ?_⟩
    constructor
    · intro hall x hx
      cases List.mem_append.mp hx with
      | inl hx => exact hlast.mp (hall _ _ _ (occurs_last hi hs)) x hx
      | inr hx =>
        refine hgood.mp ?_ x hx
        rintro a f b ⟨pre, post, hes, hpre, hf⟩
        exact hall a f b ⟨pre, post ++ [e], by rw [hes]; simp, hpre, hf⟩
    · rintro hall a f b ⟨pre, post, hes, hpre, hf⟩
      obtain hnil | ⟨front, last, rfl⟩ := List.eq_nil_or_concat post
      · rw [hnil] at hes
        obtain ⟨rfl, hsame⟩ := List.append_inj' hes rfl
        cases hsame
        rw [hi] at hpre
        cases hpre
        exact hlast.mpr fun x hx => hall x (List.mem_append_left _ hx)
      · have hinit : init = pre ++ f :: front := by
          have hes : init ++ [e] = (pre ++ f :: front) ++ [last] := by simp [hes]
          exact (List.append_inj' hes rfl).1
        exact hgood.mpr (fun x hx => hall x (List.mem_append_right _ hx)) a f b
          ⟨pre, front, hinit, hpre, hf⟩

/-- A run that goes on: its states and the events between them. -/
structure Endless (step : σ → ε → Option σ) (s₀ : σ) where
  state : Nat → σ
  event : Nat → ε
  start : state 0 = s₀
  next : ∀ k, step (state k) (event k) = some (state (k + 1))

namespace Endless

/-- A step before a run. -/
def cons (e : ε) (h : step s e = some t) (r : Endless step t) : Endless step s where
  state
    | 0 => s
    | k + 1 => r.state k
  event
    | 0 => e
    | k + 1 => r.event k
  start := rfl
  next
    | 0 => by
      show step s e = some (r.state 0)
      rw [r.start, h]
    | k + 1 => r.next k

variable (r : Endless step s₀)

theorem invariant (Inv : σ → Prop) (h₀ : Inv s₀)
    (hstep : ∀ {s e t}, Inv s → step s e = some t → Inv t) (k : Nat) : Inv (r.state k) := by
  induction k with
  | zero => exact r.start.symm ▸ h₀
  | succ k ih => exact hstep ih (r.next k)

/-- What holds at one state and is kept by the steps after it holds from there on. -/
theorem stays (P : σ → Prop) {k : Nat} (h : P (r.state k))
    (hstep : ∀ n, k ≤ n → P (r.state n) → P (r.state (n + 1))) {n : Nat} (hn : k ≤ n) :
    P (r.state n) := by
  induction hn with
  | refl => exact h
  | step hn ih => exact hstep _ hn ih

end Endless

end HerdrMobile.Lib.Run
