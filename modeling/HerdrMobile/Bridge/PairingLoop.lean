import HerdrMobile.Bridge.Host
import HerdrMobile.Host.Noise

/-!
# A pass of the pairing loop

`handshake_on` and what `pairing_loop` makes of its end: the count of failed attempts takes every
error, of the socket as of the handshake. The texts of the errors are left out.
-/
namespace HerdrMobile.Bridge.PairingLoop

open Lib.Noise (Octets Suite Noted Party)
open Host.Noise Bridge.Store Bridge.Host

set_option autoImplicit false

inductive WsMessage where
  | binary (bytes : Octets)
  | text
  | ping
  | pong
  | frame
  | close
deriving DecidableEq

/-- What the stream of a socket gives. Its end is the end of the list. -/
inductive Received where
  | message (message : WsMessage)
  | failed
deriving DecidableEq

/-- The call that a Noise error comes from. -/
inductive NoiseCall where
  | setup
  | readMessage1
  | writeMessage2
  | readMessage3
  | finish
deriving DecidableEq

inductive ConnectError where
  | io
  | unexpectedRegistrationReply
  | noise (call : NoiseCall)
deriving DecidableEq

def closedByRelay : ConnectError := .unexpectedRegistrationReply

/-- The message comes with what is left of the stream. -/
def nextMessage : List Received → Except ConnectError (WsMessage × List Received)
  | [] => .error closedByRelay
  | .failed :: _ => .error .io
  | .message .ping :: rest | .message .pong :: rest | .message .frame :: rest => nextMessage rest
  | .message .close :: _ => .error closedByRelay
  | .message message :: rest => .ok (message, rest)

def nextBinary (socket : List Received) : Except ConnectError (Octets × List Received) := do
  match ← nextMessage socket with
  | (.binary bytes, rest) => return (bytes, rest)
  | _ => .error .unexpectedRegistrationReply

/-- `?` on a result of the Noise session. -/
def orError {α : Type} (call : NoiseCall) (x : Noted α) : Except ConnectError α :=
  match x.result with
  | some a => .ok a
  | none => .error (.noise call)

section Handshake

variable {S : Suite}

/-- `sends` says whether message 2 can be sent. -/
def handshakeOn (socket : List Received) (sends : Bool) (localPrivateKey ephemeral : S.PrivateKey)
    (psk : Octets) : Except ConnectError (Transport × Octets) := do
  let (msg1, socket) ← nextBinary socket
  let handshake ← orError .setup (pairingHandshake .responder localPrivateKey ephemeral psk)
  let (handshake, _) ← orError .readMessage1 (readHandshakeMessage handshake msg1)
  let (handshake, _) ← orError .writeMessage2 (writeHandshakeMessage handshake [])
  if sends then
    if handshake.messages = [] then orError .finish (finishHandshake handshake)
    else do
      let (msg3, _) ← nextBinary socket
      let (handshake, _) ← orError .readMessage3 (readHandshakeMessage handshake msg3)
      orError .finish (finishHandshake handshake)
  else .error .io

/-- What a pass meets once it has read the pairing: the stop signal before the handshake has ended,
a registration that fails, the deadline of the phrase, or a handshake. A session that is served
may find another one active, and may end without an enrolment. -/
inductive Pass (S : Suite) where
  | stopped
  | unregistered
  | overdue
  | shaken (socket : List Received) (sends : Bool) (ephemeral : S.PrivateKey)
      (claimed enrolled : Bool)

/-- `h` is as the pass finds it with a live handle, and nothing but the pass changes it. -/
def Pass.run (h : HostState) (handle : Handle) (now : Nat) (privateKey : S.PrivateKey)
    (psk : Octets) : Pass S → HostState
  | .stopped | .unregistered => h
  | .overdue => expirePairing (markRegistered h handle now) handle now
  | .shaken socket sends ephemeral claimed enrolled =>
    let h := markRegistered h handle now
    match handshakeOn socket sends privateKey ephemeral psk with
    | .error _ => recordFailedAttempt h handle now
    | .ok _ =>
      if claimed && enrolled then { h with openPairing := none }
      else h

end Handshake

section Counts

variable {S : Suite} {h : HostState} {handle : Handle} {now : Nat} {privateKey : S.PrivateKey}
  {psk : Octets}

/-- The session of the open pairing. -/
def session (h : HostState) : Option PairingSession := h.openPairing.map (·.session)

/-- The handshake of a pass ends with an error. -/
def Pass.fails (privateKey : S.PrivateKey) (psk : Octets) : Pass S → Bool
  | .shaken socket sends ephemeral _ _ =>
    match handshakeOn socket sends privateKey ephemeral psk with
    | .error _ => true
    | .ok _ => false
  | _ => false

/-- The Host refuses a message of the handshake. -/
def Pass.refuses (privateKey : S.PrivateKey) (psk : Octets) : Pass S → Bool
  | .shaken socket sends ephemeral _ _ =>
    match handshakeOn socket sends privateKey ephemeral psk with
    | .error (.noise .readMessage1) | .error (.noise .readMessage3) => true
    | _ => false
  | _ => false

/-- The Device of a pass is enrolled. -/
def Pass.enrols : Pass S → Bool
  | .shaken _ _ _ claimed enrolled => claimed && enrolled
  | _ => false

def Pass.overdues : Pass S → Bool
  | .overdue => true
  | _ => false

theorem Pass.fails_of_refuses {pass : Pass S} (h : pass.refuses privateKey psk = true) :
    pass.fails privateKey psk = true := by
  cases pass with
  | stopped => exact h
  | unregistered => exact h
  | overdue => exact h
  | shaken socket sends ephemeral claimed enrolled =>
    rw [Pass.refuses] at h
    rw [Pass.fails]
    cases hshake : handshakeOn socket sends privateKey ephemeral psk with
    | error e => rfl
    | ok done =>
      rw [hshake] at h
      exact h

/-- A session that is live for `now`. -/
def LiveAt (session : PairingSession) (handle : Handle) (now failedAttempts : Nat) : Prop :=
  ∃ generatedAt, session = .live handle generatedAt failedAttempts ∧
    now - generatedAt ≤ phraseLifetime

theorem LiveAt.applyExpiry {s : PairingSession} {n : Nat} (h : LiveAt s handle now n) :
    s.applyExpiry now = s := by
  obtain ⟨generatedAt, rfl, hage⟩ := h
  exact if_neg (Nat.not_lt.mpr hage)

theorem liveAt_of_handle {s : PairingSession} (h : s.handle now = some handle) :
    ∃ n, LiveAt s handle now n := by
  cases s with
  | live other generatedAt n =>
    rw [PairingSession.handle, PairingSession.applyExpiry] at h
    split at h
    · cases h
    · rename_i hage
      cases h
      exact ⟨n, generatedAt, rfl, Nat.le_of_not_lt hage⟩
  | expired => cases h
  | spent => cases h

theorem LiveAt.handle_eq {s : PairingSession} {n : Nat} (h : LiveAt s handle now n) :
    s.handle now = some handle := by
  rw [PairingSession.handle, h.applyExpiry]
  obtain ⟨generatedAt, rfl, -⟩ := h
  rfl

theorem pairingOf_live {pairing : OpenPairing} {n : Nat} (hopen : h.openPairing = some pairing)
    (hlive : LiveAt pairing.session handle now n) : pairingOf h handle now = some pairing := by
  rw [pairingOf, hopen, Option.filter_some, if_pos]
  rw [hlive.handle_eq]
  exact beq_self_eq_true _

theorem session_markRegistered : session (markRegistered h handle now) = session h := by
  rw [markRegistered]
  split
  · rfl
  · rename_i pairing hof
    rw [pairingOf, Option.filter_eq_some_iff] at hof
    rw [session, session, hof.1]
    rfl

/-- A failed attempt counts, and the third one spends the phrase. -/
theorem session_recordFailedAttempt {s : PairingSession} {n : Nat} (hs : session h = some s)
    (hlive : LiveAt s handle now n) :
    ∃ generatedAt, s = .live handle generatedAt n ∧
      session (recordFailedAttempt h handle now) =
        some (if maxAttempts ≤ n + 1 then .spent else .live handle generatedAt (n + 1)) := by
  obtain ⟨pairing, hopen, rfl⟩ := Option.map_eq_some_iff.mp hs
  have hrecord : session (recordFailedAttempt h handle now) =
      some (pairing.session.recordFailedAttempt now) := by
    rw [recordFailedAttempt, pairingOf_live hopen hlive]
    rfl
  rw [hrecord, PairingSession.recordFailedAttempt, hlive.applyExpiry]
  obtain ⟨generatedAt, heq, -⟩ := hlive
  rw [heq]
  exact ⟨generatedAt, rfl, rfl⟩

theorem session_expirePairing {s : PairingSession} {n : Nat} (hs : session h = some s)
    (hlive : LiveAt s handle now n) : session (expirePairing h handle now) = none := by
  obtain ⟨pairing, hopen, rfl⟩ := Option.map_eq_some_iff.mp hs
  rw [expirePairing, pairingOf_live hopen hlive]
  rfl

/-- What a pass does: it counts its failed handshake, it ends the pairing, or it leaves the session
alone. -/
theorem Pass.run_session {s : PairingSession} {n : Nat} (hs : session h = some s)
    (hlive : LiveAt s handle now n) (pass : Pass S) :
    session (pass.run h handle now privateKey psk) =
      if pass.fails privateKey psk then
        session (recordFailedAttempt (markRegistered h handle now) handle now)
      else if pass.enrols || pass.overdues then none
      else some s := by
  have hmarked : session (markRegistered h handle now) = session h := session_markRegistered
  cases pass with
  | stopped => exact hs
  | unregistered => exact hs
  | overdue => exact session_expirePairing (hmarked.trans hs) hlive
  | shaken socket sends ephemeral claimed enrolled =>
    rw [Pass.run, Pass.fails]
    cases hshake : handshakeOn socket sends privateKey ephemeral psk with
    | error e => rfl
    | ok done =>
      show _ = if false = true then _ else if (claimed && enrolled || false) = true then none else _
      rw [if_neg Bool.false_ne_true, Bool.or_false]
      cases claimed && enrolled with
      | true => rfl
      | false => exact hmarked.trans hs

end Counts

end HerdrMobile.Bridge.PairingLoop
