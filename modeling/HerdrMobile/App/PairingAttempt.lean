import HerdrMobile.App.Noise
import HerdrMobile.Lib.Strings

/-!
# An attempt to pair

`attemptPairing`: the connection with its handshake, and the tracker that counts a failure of the
handshake against the phrase. What a connection does after its handshake is known by its outcome.
-/
namespace HerdrMobile.App.PairingAttempt

open HerdrMobile.Lib.Noise (Octets Suite Noted dhLen tagLen)
open HerdrMobile.Lib.Strings HerdrMobile.App.Noise

set_option autoImplicit false

inductive RelayRegistrationErrorCode where
  | handleUnknown
  | handleTaken
  | hostInUse
  | pairingExpired
deriving DecidableEq

inductive RelayConnectFailure where
  | deviceLocked
  | webSocketFailed
  | handshakeFailed
  | protocolMismatch
  | pinnedKeyMismatch
  | frameReassemblyFailed
deriving DecidableEq

inductive PhraseErrorCode where
  | phraseExpired
  | phraseAttempts
deriving DecidableEq

/-- The cause of an `Err` of the connection. -/
inductive Cause where
  | registration (code : RelayRegistrationErrorCode)
  | connect (failure : RelayConnectFailure)
  | sessionLocked
  | notConnected
deriving DecidableEq

/-- How a connection ends that is not made: with an `Err`, or with an error that nothing on the
way catches. -/
inductive Ending where
  | err (cause : Cause)
  | thrown
deriving DecidableEq

/-- The cause of an `Err` of an attempt. -/
inductive AttemptCause where
  | phrase (code : PhraseErrorCode)
  | connection (cause : Cause)
  | cancelled
deriving DecidableEq

inductive Result where
  | ok
  | err (cause : AttemptCause)
  | thrown
deriving DecidableEq

structure PairingAttemptTracker where
  phrase : Option Text
  failures : Nat
deriving DecidableEq

namespace PairingAttemptTracker

def new : PairingAttemptTracker := ⟨none, 0⟩

def recordFailure (tracker : PairingAttemptTracker) (phrase : Text) :
    Bool × PairingAttemptTracker :=
  let tracker := if tracker.phrase = some phrase then tracker else ⟨some phrase, 0⟩
  let tracker := { tracker with failures := tracker.failures + 1 }
  (decide (tracker.failures ≥ 3), tracker)

def reset (_tracker : PairingAttemptTracker) : PairingAttemptTracker := ⟨none, 0⟩

/-- The failures counted against a phrase. -/
def against (tracker : PairingAttemptTracker) (phrase : Text) : Nat :=
  if tracker.phrase = some phrase then tracker.failures else 0

end PairingAttemptTracker

def classifyAttemptFailure (cause : Cause) (phrase : Text) (tracker : PairingAttemptTracker) :
    AttemptCause × PairingAttemptTracker :=
  match cause with
  | .registration .pairingExpired => (.phrase .phraseExpired, tracker)
  | .connect .handshakeFailed =>
    match tracker.recordFailure phrase with
    | (true, tracker) => (.phrase .phraseAttempts, tracker)
    | (false, tracker) => (.connection cause, tracker)
  | _ => (.connection cause, tracker)

/-- What `StreamIterator` gives next. The end of the stream is the end of the list. -/
inductive Item where
  | bytes (bytes : Octets)
  | text
  | failed
deriving DecidableEq

/-- Where a handshake looks whether the app is still unlocked and the attempt the newest one. -/
inductive Check where
  | init
  | writeMessage1
  | expectBinary
  | readMessage2
  | writeMessage3
  | finish
deriving DecidableEq

section Handshake

variable {S : Suite}

structure Handshake (S : Suite) where
  stream : List Item
  unlocked : Check → Bool
  ephemeral : S.PrivateKey

/-- A tag is checked and does not fit: what throws is an `Exception`. Short of that a message is
too short, and a `RangeError` is none. -/
def tagRefused {α : Type} (x : Noted α) : Bool :=
  x.events.any fun
    | .opened _ _ _ fits => !fits
    | _ => false

/-- An awaited Noise step, and the look after it. -/
def whileUnlocked {α : Type} (unlocked : Bool) (x : Noted α) : Except Ending α :=
  match x.result with
  | some a => if unlocked then .ok a else .error (.err .sessionLocked)
  | none => .error (if tagRefused x then .err (.connect .handshakeFailed) else .thrown)

/-- An error of the stream is an `Exception` as well. -/
def expectBinary : List Item → Except Ending Octets
  | [] => .error (.err (.connect .webSocketFailed))
  | .bytes bytes :: _ => .ok bytes
  | .text :: _ => .error (.err (.connect .webSocketFailed))
  | .failed :: _ => .error (.err (.connect .handshakeFailed))

/-- What `_defaultHandshaker` has once message 2 is there: the initiator and the message. -/
def awaitMessage2 (localStatic : S.PrivateKey) (psk : Octets) (handshake : Handshake S) :
    Except Ending (NoiseXxPsk0Initiator S × Octets) := do
  let unlocked := handshake.unlocked
  let initiator ← whileUnlocked (unlocked .init)
    (NoiseXxPsk0Initiator.init (S := S) false localStatic)
  let (initiator, _) ← whileUnlocked (unlocked .writeMessage1)
    (initiator.writeMessage1 psk handshake.ephemeral)
  let message ← expectBinary handshake.stream
  if unlocked .expectBinary then .ok (initiator, message) else .error (.err .sessionLocked)

/-- `_defaultHandshaker` in `PairingMode`. -/
def defaultHandshaker (localStatic : S.PrivateKey) (psk : Octets) (handshake : Handshake S) :
    Except Ending NoiseSession := do
  let unlocked := handshake.unlocked
  let (initiator, message) ← awaitMessage2 localStatic psk handshake
  let initiator ← whileUnlocked (unlocked .readMessage2) (initiator.readMessage2 message)
  let (initiator, _) ← whileUnlocked (unlocked .writeMessage3) initiator.writeMessage3
  whileUnlocked (unlocked .finish) initiator.finish

/-- What the relay answers to a registration. -/
inductive Registration where
  | closed
  | notText
  | malformed
  | refused (code : Option RelayRegistrationErrorCode)
  | unexpected
  | joined
deriving DecidableEq

def register : Registration → Except Ending Unit
  | .closed | .notText | .unexpected => .error (.err (.connect .webSocketFailed))
  | .malformed => .error .thrown
  | .refused (some code) => .error (.err (.registration code))
  | .refused none => .error (.err (.connect .webSocketFailed))
  | .joined => .ok ()

/-- How the exchange after the handshake can fail. No step of it says that the handshake did. -/
inductive Later where
  | webSocketFailed
  | frameReassemblyFailed
  | protocolMismatch
  | hostInUse
  | sessionLocked
  | notConnected
  | thrown
deriving DecidableEq

def Later.ending : Later → Ending
  | .webSocketFailed => .err (.connect .webSocketFailed)
  | .frameReassemblyFailed => .err (.connect .frameReassemblyFailed)
  | .protocolMismatch => .err (.connect .protocolMismatch)
  | .hostInUse => .err (.registration .hostInUse)
  | .sessionLocked => .err .sessionLocked
  | .notConnected => .err .notConnected
  | .thrown => .thrown

/-- What an attempt meets. `permitted` is what `connect` asks first, with the key of the gate;
`current` is its look before a socket is opened and before and after the registration. -/
structure Attempt (S : Suite) where
  phrase : Text
  permitted : Bool
  current : Bool
  opens : Bool
  registration : Registration
  handshake : Handshake S
  later : Option Later
  cancelled : Bool

/-- `RelayConnection.connect` in `PairingMode`. -/
def connect (localStatic : S.PrivateKey) (psk : Octets) (attempt : Attempt S) :
    Except Ending Unit := do
  if !attempt.permitted then .error (.err (.connect .deviceLocked))
  else if !attempt.opens then .error (.err (.connect .webSocketFailed))
  else if !attempt.current then .error (.err .sessionLocked)
  else
    register attempt.registration
    let _ ← defaultHandshaker localStatic psk attempt.handshake
    match attempt.later with
    | some later => .error later.ending
    | none => .ok ()

/-- `pskFromPhrase` is the parameter. A cancelled attempt ends as one wherever it is. -/
def attemptPairing (pskFromPhrase : Text → Octets) (localStatic : S.PrivateKey)
    (attempt : Attempt S) (tracker : PairingAttemptTracker) :
    Result × PairingAttemptTracker :=
  if attempt.cancelled then (.err .cancelled, tracker)
  else
    match connect localStatic (pskFromPhrase attempt.phrase) attempt with
    | .ok () => (.ok, tracker.reset)
    | .error .thrown => (.thrown, tracker)
    | .error (.err cause) =>
      let (cause, tracker) := classifyAttemptFailure cause attempt.phrase tracker
      (.err cause, tracker)

/-- The failure that the tracker counts. -/
def handshakeFailed : Ending := .err (.connect .handshakeFailed)

theorem tagRefused_bind {α β : Type} {x : Noted α} {f : α → Noted β} (hx : tagRefused x = false)
    (hf : ∀ a, tagRefused (f a) = false) : tagRefused (x >>= f) = false := by
  cases hr : x.result with
  | none =>
    rw [Noted.bind_of_stopped hr]
    exact hx
  | some a =>
    rw [Noted.bind_of_result hr, tagRefused, List.any_append, Bool.or_eq_false_iff]
    exact ⟨hx, hf a⟩

theorem tagRefused_ofOption {α : Type} (o : Option α) : tagRefused (Noted.ofOption o) = false := by
  cases o <;> rfl

theorem tagRefused_encryptAndHash (t : SymmetricState) (plaintext : Octets) :
    tagRefused (t.encryptAndHash S plaintext) = false := by
  rw [SymmetricState.encryptAndHash]
  split
  · apply tagRefused_bind (tagRefused_ofOption _)
    intro key
    exact tagRefused_bind rfl fun _ => rfl
  · rfl

/-- A message that is only written has no tag to check. -/
theorem tagRefused_writeMessage3 (i : NoiseXxPsk0Initiator S) :
    tagRefused i.writeMessage3 = false := by
  apply tagRefused_bind (tagRefused_encryptAndHash _ _)
  intro sealed
  apply tagRefused_bind (tagRefused_ofOption _)
  intro remoteEphemeral
  exact tagRefused_bind (tagRefused_encryptAndHash _ _) fun _ => rfl

theorem tagRefused_finish (i : NoiseXxPsk0Initiator S) : tagRefused i.finish = false :=
  tagRefused_bind (tagRefused_ofOption _) fun _ => rfl

theorem whileUnlocked_failed {α : Type} {unlocked : Bool} {x : Noted α} :
    whileUnlocked unlocked x = .error handshakeFailed ↔ x.result = none ∧ tagRefused x = true := by
  rw [whileUnlocked]
  cases x.result with
  | some a => cases unlocked <;> simp [handshakeFailed]
  | none => cases tagRefused x <;> simp [handshakeFailed]

variable {localStatic : S.PrivateKey} {psk : Octets} {attempt : Attempt S}

/-- A sequence fails where one of its parts does. -/
theorem bind_error {ε α β : Type} {x : Except ε α} {f : α → Except ε β} {e : ε} :
    (x >>= f) = .error e ↔ x = .error e ∨ ∃ a, x = .ok a ∧ f a = .error e := by
  cases x with
  | error other =>
    have hbind : (Except.error other >>= f) = .error other := rfl
    rw [hbind]
    simp
  | ok a =>
    have hbind : (Except.ok a >>= f) = f a := rfl
    rw [hbind]
    simp

/-- What comes after message 2 does not fail as a handshake. -/
theorem afterMessage2_failed {unlocked : Check → Bool} {i : NoiseXxPsk0Initiator S} :
    (do
      let (i, _) ← whileUnlocked (unlocked .writeMessage3) i.writeMessage3
      whileUnlocked (unlocked .finish) i.finish : Except Ending NoiseSession) ≠
      .error handshakeFailed := by
  intro h
  obtain h | ⟨pair, -, h⟩ := (bind_error).mp h
  · have htag := ((whileUnlocked_failed).mp h).2
    rw [tagRefused_writeMessage3] at htag
    exact absurd htag Bool.false_ne_true
  · have htag := ((whileUnlocked_failed).mp h).2
    rw [tagRefused_finish] at htag
    exact absurd htag Bool.false_ne_true

/-- The handshake fails for a message 2 whose tag is refused, or for an error of the stream. -/
theorem defaultHandshaker_failed {handshake : Handshake S} :
    defaultHandshaker localStatic psk handshake = .error handshakeFailed ↔
      awaitMessage2 localStatic psk handshake = .error handshakeFailed ∨
        ∃ initiator message, awaitMessage2 localStatic psk handshake = .ok (initiator, message) ∧
          (initiator.readMessage2 message).result = none ∧
          tagRefused (initiator.readMessage2 message) = true := by
  cases hawait : awaitMessage2 localStatic psk handshake with
  | error ending =>
    have hrun : defaultHandshaker localStatic psk handshake = .error ending := by
      rw [defaultHandshaker, hawait]
      rfl
    rw [hrun]
    simp
  | ok pair =>
    obtain ⟨initiator, message⟩ := pair
    have hrun : defaultHandshaker localStatic psk handshake = (do
        let initiator ← whileUnlocked (handshake.unlocked .readMessage2)
          (initiator.readMessage2 message)
        let (initiator, _) ← whileUnlocked (handshake.unlocked .writeMessage3)
          initiator.writeMessage3
        whileUnlocked (handshake.unlocked .finish) initiator.finish) := by
      rw [defaultHandshaker, hawait]
      rfl
    rw [hrun, bind_error, whileUnlocked_failed]
    constructor
    · rintro (hrefused | ⟨next, -, h⟩)
      · exact .inr ⟨initiator, message, rfl, hrefused⟩
      · exact absurd h afterMessage2_failed
    · rintro (h | ⟨i, m, heq, hrefused⟩)
      · cases h
      · cases heq
        exact .inl hrefused

/-- The attempt comes to its handshake. -/
def Attempt.shakes (attempt : Attempt S) : Bool :=
  attempt.permitted && attempt.opens && attempt.current &&
    decide (attempt.registration = .joined)

theorem register_failed (registration : Registration) :
    register registration ≠ .error handshakeFailed := by
  cases registration with
  | refused code => cases code <;> simp [register, handshakeFailed]
  | closed => simp [register, handshakeFailed]
  | notText => simp [register, handshakeFailed]
  | malformed => simp [register, handshakeFailed]
  | unexpected => simp [register, handshakeFailed]
  | joined => simp [register]

theorem Later.ending_ne (later : Later) : later.ending ≠ handshakeFailed := by
  cases later <;> decide

/-- A connection fails as a handshake where it comes to one and that fails. -/
theorem connect_failed : connect localStatic psk attempt = .error handshakeFailed ↔
    attempt.shakes = true ∧
      defaultHandshaker localStatic psk attempt.handshake = .error handshakeFailed := by
  rw [connect, Attempt.shakes]
  cases attempt.permitted with
  | false => simp [handshakeFailed]
  | true =>
    cases attempt.opens with
    | false => simp [handshakeFailed]
    | true =>
      cases attempt.current with
      | false => simp [handshakeFailed]
      | true =>
        show (register attempt.registration >>= _) = _ ↔ _
        rw [bind_error]
        constructor
        · rintro (h | ⟨joined, hjoined, h⟩)
          · exact absurd h (register_failed _)
          · have hreg : attempt.registration = .joined := by
              cases hreg : attempt.registration with
              | joined => rfl
              | refused code => rw [hreg] at hjoined; cases code <;> cases hjoined
              | closed => rw [hreg] at hjoined; cases hjoined
              | notText => rw [hreg] at hjoined; cases hjoined
              | malformed => rw [hreg] at hjoined; cases hjoined
              | unexpected => rw [hreg] at hjoined; cases hjoined
            refine ⟨by rw [hreg]; rfl, ?_⟩
            obtain h | ⟨session, -, h⟩ := (bind_error).mp h
            · exact h
            · cases hlater : attempt.later with
              | none => rw [hlater] at h; cases h
              | some later =>
                rw [hlater] at h
                exact absurd (Except.error.inj h) later.ending_ne
        · rintro ⟨hreg, h⟩
          have hjoined : attempt.registration = .joined := by simpa using hreg
          refine .inr ⟨(), by rw [hjoined]; rfl, ?_⟩
          exact (bind_error).mpr (.inl h)

/-- The phrase is called spent. -/
def Result.spent (result : Result) : Bool := decide (result = .err (.phrase .phraseAttempts))

section Tracker

variable {pskFromPhrase : Text → Octets} {tracker : PairingAttemptTracker}

theorem attemptPairing_failed (hcancelled : attempt.cancelled = false)
    (h : connect localStatic (pskFromPhrase attempt.phrase) attempt = .error handshakeFailed) :
    (attemptPairing pskFromPhrase localStatic attempt tracker).2 =
        (tracker.recordFailure attempt.phrase).2 ∧
      (attemptPairing pskFromPhrase localStatic attempt tracker).1.spent =
        (tracker.recordFailure attempt.phrase).1 := by
  rw [attemptPairing, hcancelled, if_neg Bool.false_ne_true, h]
  simp only [handshakeFailed, classifyAttemptFailure]
  cases tracker.recordFailure attempt.phrase with
  | mk spent tracker => cases spent <;> exact ⟨rfl, rfl⟩

/-- An attempt that is cancelled or fails otherwise leaves the tracker alone, and one that succeeds
resets it. -/
theorem attemptPairing_other (h : attempt.cancelled = true ∨
      connect localStatic (pskFromPhrase attempt.phrase) attempt ≠ .error handshakeFailed) :
    ((attemptPairing pskFromPhrase localStatic attempt tracker).2 = tracker ∨
        attempt.cancelled = false ∧
          connect localStatic (pskFromPhrase attempt.phrase) attempt = .ok () ∧
          (attemptPairing pskFromPhrase localStatic attempt tracker).2 = tracker.reset) ∧
      (attemptPairing pskFromPhrase localStatic attempt tracker).1.spent = false := by
  rw [attemptPairing]
  cases hcancelled : attempt.cancelled with
  | true => exact ⟨.inl rfl, rfl⟩
  | false =>
    rw [hcancelled] at h
    rw [if_neg Bool.false_ne_true]
    cases hconnect : connect localStatic (pskFromPhrase attempt.phrase) attempt with
    | ok made => exact ⟨.inr ⟨rfl, rfl, rfl⟩, rfl⟩
    | error ending =>
      cases ending with
      | thrown => exact ⟨.inl rfl, rfl⟩
      | err cause =>
        have hcause : cause ≠ .connect .handshakeFailed := by
          rintro rfl
          obtain h | h := h
          · exact Bool.false_ne_true h
          · exact h hconnect
        rcases cause with code | failure | _ | _
        · cases code <;> exact ⟨.inl rfl, rfl⟩
        · cases failure with
          | handshakeFailed => exact absurd rfl hcause
          | deviceLocked => exact ⟨.inl rfl, rfl⟩
          | webSocketFailed => exact ⟨.inl rfl, rfl⟩
          | protocolMismatch => exact ⟨.inl rfl, rfl⟩
          | pinnedKeyMismatch => exact ⟨.inl rfl, rfl⟩
          | frameReassemblyFailed => exact ⟨.inl rfl, rfl⟩
        · exact ⟨.inl rfl, rfl⟩
        · exact ⟨.inl rfl, rfl⟩

theorem recordFailure_against {phrase : Text} :
    (tracker.recordFailure phrase).2.against phrase = tracker.against phrase + 1 ∧
      (tracker.recordFailure phrase).1 = decide (tracker.against phrase + 1 ≥ 3) := by
  rw [PairingAttemptTracker.recordFailure, PairingAttemptTracker.against,
    PairingAttemptTracker.against]
  by_cases h : tracker.phrase = some phrase
  · simp only [if_pos h]
    exact ⟨trivial, trivial⟩
  · simp only [if_neg h]
    exact ⟨if_pos trivial, trivial⟩

end Tracker

end Handshake

end HerdrMobile.App.PairingAttempt
