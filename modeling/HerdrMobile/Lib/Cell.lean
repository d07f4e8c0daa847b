import HerdrMobile.Lib.Run

/-!
# A cell that its readers fill

A caller reads a shared cell and returns what it holds. Where it holds nothing, the caller makes
a value, writes it and returns that. The store answers a read and a write after the caller has
gone on waiting, so that callers overlap.
-/
namespace HerdrMobile.Lib.Cell

open HerdrMobile.Lib.Run

set_option autoImplicit false

variable {τ ρ : Type*}

/-- How a value is stored. -/
structure Coding (τ ρ : Type*) where
  encode : ρ → τ
  decode : τ → Option ρ
  decode_encode : ∀ r, decode (encode r) = some r

/-- The coding of a value that is stored as it is. -/
def Coding.plain (τ : Type*) : Coding τ τ where
  encode := id
  decode := some
  decode_encode _ := rfl

/-- How far a caller is. -/
inductive Stage (τ ρ : Type*) where
  | reading (create : Bool)
  | answered (create : Bool) (found : Option τ)
  | making
  | writing (value : ρ)
  | written (value : ρ)
  | failed
  | returned (result : Option ρ)
deriving DecidableEq

structure Shared (τ ρ : Type*) where
  stored : Option τ
  callers : List (Stage τ ρ)
deriving DecidableEq

/-- What happens to one caller: the store answers it, or it goes on. A write that fails may have
been done all the same. -/
inductive Act (ρ : Type*) where
  | read
  | readFails
  | resume
  | make (value : ρ)
  | write
  | writeFails (done : Bool)
  | answer
deriving DecidableEq

inductive Event (ρ : Type*) where
  | call (create : Bool)
  | refuse
  | act (i : Nat) (act : Act ρ)
deriving DecidableEq

section Step

variable (coding : Coding τ ρ)

/-- A caller goes on with what it has read. -/
def resumed (create : Bool) : Option τ → Stage τ ρ
  | some text => .returned (coding.decode text)
  | none => if create then .making else .returned none

/-- One caller and the cell after an act of this caller. -/
def act (stored : Option τ) : Stage τ ρ → Act ρ → Option (Option τ × Stage τ ρ)
  | .reading create, .read => some (stored, .answered create stored)
  | .reading _, .readFails => some (stored, .failed)
  | .answered create found, .resume => some (stored, resumed coding create found)
  | .making, .make value => some (stored, .writing value)
  | .writing value, .write => some (some (coding.encode value), .written value)
  | .writing value, .writeFails true => some (some (coding.encode value), .failed)
  | .writing _, .writeFails false => some (stored, .failed)
  | .written value, .answer => some (stored, .returned (some value))
  | .failed, .answer => some (stored, .returned none)
  | _, _ => none

def step (s : Shared τ ρ) : Event ρ → Option (Shared τ ρ)
  | .call create => some { s with callers := s.callers ++ [.reading create] }
  | .refuse => some { s with callers := s.callers ++ [.returned none] }
  | .act i a => do
    let stage ← s.callers[i]?
    let (stored, stage) ← act coding s.stored stage a
    return { stored, callers := s.callers.set i stage }

/-- The value of a successful caller is what the cell holds. -/
def Agree (s : Shared τ ρ) : Prop :=
  ∀ r, .returned (some r) ∈ s.callers → s.stored.bind coding.decode = some r

/-- The act puts a value into the cell. -/
def lands : Act ρ → Bool
  | .write => true
  | .writeFails done => done
  | _ => false

/-- No value is put where one is. -/
def FillsEmpty (s : Shared τ ρ) : Event ρ → Prop
  | .act _ a => lands a = true → s.stored = none
  | _ => True

instance (s : Shared τ ρ) (e : Event ρ) : Decidable (FillsEmpty s e) := by
  cases e <;> unfold FillsEmpty <;> infer_instance

/-- The value that a caller returns, or will. -/
def holds : Stage τ ρ → Option ρ
  | .answered _ found => found.bind coding.decode
  | .written value => some value
  | .returned result => result
  | _ => none

/-- What any caller holds is stored. -/
def Held (s : Shared τ ρ) : Prop :=
  ∀ stage ∈ s.callers, ∀ r, holds coding stage = some r → s.stored.bind coding.decode = some r

variable {coding}

theorem Held.agree {s : Shared τ ρ} (h : Held coding s) : Agree coding s := by
  intro r hr
  exact h _ hr r rfl

theorem held_nil (stored : Option τ) :
    Held coding { stored, callers := ([] : List (Stage τ ρ)) } := by
  intro stage hs
  cases hs

theorem step_act {s t : Shared τ ρ} {i : Nat} {a : Act ρ} (h : step coding s (.act i a) = some t) :
    ∃ stage next, s.callers[i]? = some stage ∧ act coding s.stored stage a = some (t.stored, next) ∧
      t.callers = s.callers.set i next := by
  simp only [step, Option.bind_eq_bind] at h
  obtain ⟨stage, hi, h⟩ := Option.bind_eq_some_iff.mp h
  obtain ⟨⟨stored, next⟩, ha, h⟩ := Option.bind_eq_some_iff.mp h
  cases h
  exact ⟨stage, next, hi, ha, rfl⟩

/-- An act that puts nothing into the cell leaves it as it is. -/
theorem act_stored {stored stored' : Option τ} {stage next : Stage τ ρ} {a : Act ρ}
    (h : act coding stored stage a = some (stored', next)) (hl : lands a = false) :
    stored' = stored := by
  cases a with
  | writeFails done =>
    cases hl
    cases stage <;> cases h
    rfl
  | write => cases hl
  | _ => cases stage <;> cases h <;> rfl

/-- What a caller holds after an act, it held before or the cell holds it. -/
theorem act_holds {stored stored' : Option τ} {stage next : Stage τ ρ} {a : Act ρ} {r : ρ}
    (h : act coding stored stage a = some (stored', next)) (hr : holds coding next = some r) :
    holds coding stage = some r ∨ stored'.bind coding.decode = some r := by
  cases a with
  | read =>
    cases stage <;> cases h
    exact .inr hr
  | readFails =>
    cases stage <;> cases h
    cases hr
  | resume =>
    cases stage with
    | answered create found =>
      cases h
      cases found with
      | some text => exact .inl hr
      | none => cases create <;> cases hr
    | _ => cases h
  | make value =>
    cases stage <;> cases h
    cases hr
  | write =>
    cases stage <;> cases h
    cases hr
    exact .inr (coding.decode_encode _)
  | writeFails done =>
    cases done <;> cases stage <;> cases h <;> cases hr
  | answer =>
    cases stage <;> cases h
    · exact .inl hr
    · cases hr

theorem held_step {s t : Shared τ ρ} {e : Event ρ} (h : Held coding s) (he : FillsEmpty s e)
    (hs : step coding s e = some t) : Held coding t := by
  cases e with
  | call create | refuse =>
    cases hs
    intro stage hm r hr
    obtain hm | hm := List.mem_append.mp hm
    · exact h stage hm r hr
    · cases List.mem_singleton.mp hm
      cases hr
  | act i a =>
    obtain ⟨stage, next, hi, ha, hc⟩ := step_act hs
    have hold : ∀ stage ∈ s.callers, ∀ r, holds coding stage = some r →
        t.stored.bind coding.decode = some r := by
      intro stage hm r hr
      have hr := h stage hm r hr
      cases hl : lands a with
      | false => rw [act_stored ha hl, hr]
      | true =>
        rw [he hl] at hr
        cases hr
    intro other hm r hr
    rw [hc] at hm
    obtain hm | rfl := List.mem_or_eq_of_mem_set hm
    · exact hold other hm r hr
    · obtain hr | hr := act_holds ha hr
      · exact hold stage (List.mem_of_getElem? hi) r hr
      · exact hr

end Step

end HerdrMobile.Lib.Cell
