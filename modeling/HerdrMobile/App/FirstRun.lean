import HerdrMobile.Lib.Cell
import HerdrMobile.Lib.Strings

/-!
# The first run of the Device

`deviceKeyPair` of `keystore.dart` and `deviceId` of `plain_store.dart` read the platform
storage, and generate and write an identity where it holds none. Nothing queues the calls.
-/
namespace HerdrMobile.App.FirstRun

open HerdrMobile.Lib HerdrMobile.Lib.Run HerdrMobile.Lib.Strings
open HerdrMobile.Lib.Cell (Shared Coding Act Held)

set_option autoImplicit false

/-- The cell of `device_x25519_private_key`, with the calls of every `KeystoreService`, and the
cell of `device_id`, with the calls of every `PlainStore`. -/
structure Device (KeyPair : Type) where
  privateKey : Shared Text KeyPair
  deviceId : Shared Text Text
deriving DecidableEq

/-- `retoggling` and `protectionFailure` are those of the instance that is called. -/
inductive Event (KeyPair : Type) where
  | deviceKeyPair (retoggling protectionFailure : Bool)
  | existingDeviceKeyPair (retoggling protectionFailure : Bool)
  | keyPairAct (i : Nat) (act : Act KeyPair)
  | deviceId
  | deviceIdAct (i : Nat) (act : Act Text)
deriving DecidableEq

variable {KeyPair : Type}

/-- The start of `_deviceKeyPair`. -/
def keyPairCall (createIfMissing retoggling protectionFailure : Bool) : Cell.Event KeyPair :=
  if retoggling || protectionFailure then .refuse else .call createIfMissing

/-- What an event is to the cell of the private key. -/
def Event.onKeyPair : Event KeyPair → Option (Cell.Event KeyPair)
  | .deviceKeyPair retoggling failure => some (keyPairCall true retoggling failure)
  | .existingDeviceKeyPair retoggling failure => some (keyPairCall false retoggling failure)
  | .keyPairAct i a => some (.act i a)
  | _ => none

/-- What an event is to the cell of the device id. -/
def Event.onDeviceId : Event KeyPair → Option (Cell.Event Text)
  | .deviceId => some (.call true)
  | .deviceIdAct i a => some (.act i a)
  | _ => none

/-- An event of one cell leaves the other as it is. -/
def onCell {τ ρ : Type} (coding : Coding τ ρ) (s : Shared τ ρ) :
    Option (Cell.Event ρ) → Option (Shared τ ρ)
  | some e => Cell.step coding s e
  | none => some s

section Step

-- A seed is stored in Base64, and `newKeyPairFromSeed` makes the key pair of it.
variable (seeds : Coding Text KeyPair)

def step (s : Device KeyPair) (e : Event KeyPair) : Option (Device KeyPair) := do
  let privateKey ← onCell seeds s.privateKey e.onKeyPair
  let deviceId ← onCell (.plain Text) s.deviceId e.onDeviceId
  return { privateKey, deviceId }

/-- Before the first call. -/
def start (seed id : Option Text) : Device KeyPair :=
  { privateKey := { stored := seed, callers := [] }, deviceId := { stored := id, callers := [] } }

/-- Every successful call has returned the identity that is stored. -/
def Agree (s : Device KeyPair) : Prop :=
  Cell.Agree seeds s.privateKey ∧ Cell.Agree (.plain Text) s.deviceId

end Step

/-- No identity is written where one is stored. -/
def FillsEmpty (s : Device KeyPair) (e : Event KeyPair) : Prop :=
  (∀ f ∈ e.onKeyPair, Cell.FillsEmpty s.privateKey f) ∧
    ∀ f ∈ e.onDeviceId, Cell.FillsEmpty s.deviceId f

instance (s : Device KeyPair) (e : Event KeyPair) : Decidable (FillsEmpty s e) := by
  unfold FillsEmpty
  infer_instance

variable {seeds : Coding Text KeyPair} {seed id : Option Text} {es : List (Event KeyPair)}
  {s t : Device KeyPair}

theorem step_cells {e : Event KeyPair} (h : step seeds s e = some t) :
    onCell seeds s.privateKey e.onKeyPair = some t.privateKey ∧
      onCell (.plain Text) s.deviceId e.onDeviceId = some t.deviceId := by
  simp only [step, Option.bind_eq_bind] at h
  obtain ⟨privateKey, hk, h⟩ := Option.bind_eq_some_iff.mp h
  obtain ⟨deviceId, hi, h⟩ := Option.bind_eq_some_iff.mp h
  cases h
  exact ⟨hk, hi⟩

section OneCell

variable {τ ρ : Type} {coding : Coding τ ρ} {c d : Shared τ ρ}

theorem held_onCell {e : Option (Cell.Event ρ)} (h : Held coding c)
    (he : ∀ f ∈ e, Cell.FillsEmpty c f) (hs : onCell coding c e = some d) : Held coding d := by
  cases e with
  | none =>
    cases hs
    exact h
  | some f => exact Cell.held_step h (he f rfl) hs

end OneCell

/-- Where no identity is written over another, all calls that succeed return the same one, and
it is the one stored. -/
theorem first_run_agrees
    (hgood : ∀ s e t, Occurs (step seeds) (start seed id) es s e t → FillsEmpty s e)
    (hv : Visits (step seeds) (start seed id) es s) : Agree seeds s := by
  have hinv : Held seeds s.privateKey ∧ Held (.plain Text) s.deviceId := by
    apply visits_invariant (fun s => Held seeds s.privateKey ∧ Held (.plain Text) s.deviceId)
      ⟨Cell.held_nil seed, Cell.held_nil id⟩ _ hv
    intro s e t hi ho
    have hcells := step_cells ho.step_eq
    have hfills := hgood s e t ho
    exact ⟨held_onCell hi.1 hfills.1 hcells.1, held_onCell hi.2 hfills.2 hcells.2⟩
  exact ⟨hinv.1.agree, hinv.2.agree⟩

/-- A call of each kind that makes its identity, and a later one of each that finds it. -/
def inTurn : List (Event Text) :=
  [.deviceKeyPair false false, .keyPairAct 0 .read, .keyPairAct 0 .resume,
    .keyPairAct 0 (.make "seed".toList), .keyPairAct 0 .write, .keyPairAct 0 .answer,
    .deviceId, .deviceIdAct 0 .read, .deviceIdAct 0 .resume, .deviceIdAct 0 (.make "id".toList),
    .deviceIdAct 0 .write, .deviceIdAct 0 .answer, .existingDeviceKeyPair false false,
    .keyPairAct 1 .read, .keyPairAct 1 .resume, .deviceId, .deviceIdAct 1 .read,
    .deviceIdAct 1 .resume]

theorem first_run_agrees_in_turn :
    ∃ s, run (step (.plain Text)) (start none none) inTurn = some s ∧ Agree (.plain Text) s ∧
      s.deviceId.callers =
        [.returned (some "id".toList), .returned (some "id".toList)] := by
  have hall : everyStep (step (.plain Text)) (fun s e => decide (FillsEmpty s e))
      (start none none) inTurn = true := by decide
  obtain ⟨s, hr, hc⟩ : ∃ s, run (step (.plain Text)) (start none none) inTurn = some s ∧
      s.deviceId.callers = [.returned (some "id".toList), .returned (some "id".toList)] :=
    ⟨_, rfl, rfl⟩
  have hgood : ∀ s e t, Occurs (step (.plain Text)) (start none none) inTurn s e t →
      FillsEmpty s e := by
    intro s e t ho
    have hdec := occurs_good hall ho
    simpa using hdec
  exact ⟨s, hr, first_run_agrees hgood (visits_end hr), hc⟩

/-- Two calls of each kind at the first start. Both find nothing, and each makes an identity. -/
def atOnce : List (Event Text) :=
  [.deviceKeyPair false false, .deviceKeyPair false false, .keyPairAct 0 .read,
    .keyPairAct 1 .read, .keyPairAct 0 .resume, .keyPairAct 1 .resume,
    .keyPairAct 0 (.make "first".toList), .keyPairAct 1 (.make "second".toList),
    .keyPairAct 0 .write, .keyPairAct 0 .answer, .keyPairAct 1 .write, .keyPairAct 1 .answer,
    .deviceId, .deviceId, .deviceIdAct 0 .read, .deviceIdAct 1 .read, .deviceIdAct 0 .resume,
    .deviceIdAct 1 .resume, .deviceIdAct 0 (.make "one".toList),
    .deviceIdAct 1 (.make "two".toList), .deviceIdAct 0 .write, .deviceIdAct 0 .answer,
    .deviceIdAct 1 .write, .deviceIdAct 1 .answer]

theorem at_once_disagree :
    ∃ s, run (step (.plain Text)) (start none none) atOnce = some s ∧
      s.privateKey.callers = [.returned (some "first".toList), .returned (some "second".toList)] ∧
      s.deviceId.callers = [.returned (some "one".toList), .returned (some "two".toList)] ∧
      s.deviceId.stored = some "two".toList ∧ ¬Agree (.plain Text) s := by
  refine ⟨_, rfl, rfl, rfl, rfl, fun h => ?_⟩
  have hfirst := h.1 "first".toList (by decide)
  exact absurd hfirst (by decide)

end HerdrMobile.App.FirstRun
