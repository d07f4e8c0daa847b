import HerdrMobile.Lib.Run
import HerdrMobile.Proto.PairingUri

/-!
# The pairing session

`pairing.rs`: a phrase with its handle, URI and QR code, alive for ten minutes and
three failed attempts. Expiry is not a timer; every operation that takes the time
looks first whether the phrase has got too old. The random source, the QR encoder,
the base64 engine and the digest behind the pre-shared key are parameters.
-/

namespace HerdrMobile.Host.Pairing

open Lib Strings Utf8 Proto

/-- Nanoseconds of the monotonic clock. -/
abbrev Instant := Nat

def phraseLifetime : Nat := 600 * 1000000000
def maxAttempts : Nat := 3

inductive Color where
  | light
  | dark
deriving DecidableEq

structure QrCode where
  width : Nat
  colors : List Color

structure QrGrid where
  width : Nat
  modules : List Bool
deriving DecidableEq

/-- What is used of the qrcode crate, at error-correction level M. -/
structure QrCrate (Bits QrError : Type) where
  new : Nat → Bits
  pushByteData : Bits → List UInt8 → Option Bits
  pushTerminator : Bits → Option Bits
  withBits : Bits → Except QrError QrCode
  dataTooLong : QrError

section Encoding

variable {Bits QrError : Type} (qr : QrCrate Bits QrError)

/-- The first of the versions that holds the payload. -/
def encodeQrFrom (payload : List UInt8) : List Nat → Except QrError QrGrid
  | [] => .error qr.dataTooLong
  | version :: larger =>
    match (qr.pushByteData (qr.new version) payload).bind qr.pushTerminator with
    | none => encodeQrFrom payload larger
    | some bits =>
      match qr.withBits bits with
      | .error e => .error e
      | .ok code => .ok ⟨code.width, code.colors.map (· ≠ .light)⟩

def encodeQr (uri : Text) : Except QrError QrGrid :=
  encodeQrFrom qr (utf8 uri) (List.range' 1 40)

end Encoding

inductive PairingError (ε QrError : Type) where
  | wordlist (error : PhraseError)
  | handle (error : HandleError ε)
  | uriTooLong (bytes : Nat)
  | qr (error : QrError)

/-- The code outside the repository that a session calls. -/
structure Crates (ε Bits QrError : Type) where
  base64 : Engine ε
  qr : QrCrate Bits QrError
  digest : List UInt8 → List UInt8

/-- What the random source gives for one phrase and its handle. -/
structure Draws (words : List Text) where
  filled : Option Handle
  drawn : Option (Fin wordCount → Fin words.length)

structure LivePhrase where
  handle : Handle
  phrase : Phrase
  generatedAt : Instant
  failedAttempts : Nat
  uri : Text
  qr : QrGrid

inductive SessionState where
  | live (live : LivePhrase)
  | expired
  | spent
  | enrolled

structure PairingSession where
  relayOrigin : Text
  state : SessionState

section Sessions

variable {ε Bits QrError : Type} (crates : Crates ε Bits QrError)

def LivePhrase.generate (relayOrigin : Text) (words : List Text) (draws : Draws words)
    (now : Instant) : Except (PairingError ε QrError) LivePhrase :=
  match Handle.generate draws.filled with
  | .error e => .error (.handle e)
  | .ok handle =>
    match Phrase.generate words draws.drawn with
    | .error e => .error (.wordlist e)
    | .ok phrase =>
      let uri := PairingUri.build crates.base64 ⟨relayOrigin, handle, phrase.canonical⟩
      if (utf8 uri).length > pairingUriMaxLen then .error (.uriTooLong (utf8 uri).length)
      else
        match encodeQr crates.qr uri with
        | .error e => .error (.qr e)
        | .ok qr => .ok ⟨handle, phrase, now, 0, uri, qr⟩

theorem LivePhrase.generate_ok {relayOrigin : Text} {words : List Text} {draws : Draws words}
    {handle : Handle} {phrase : Phrase} {grid : QrGrid} (now : Instant)
    (hhandle : draws.filled = some handle) (hphrase : Phrase.generate words draws.drawn = .ok phrase)
    (hlen : (utf8 (PairingUri.build crates.base64 ⟨relayOrigin, handle, phrase.canonical⟩)).length
      ≤ pairingUriMaxLen)
    (hqr : encodeQr crates.qr
      (PairingUri.build crates.base64 ⟨relayOrigin, handle, phrase.canonical⟩) = .ok grid) :
    LivePhrase.generate crates relayOrigin words draws now = .ok ⟨handle, phrase, now, 0,
      PairingUri.build crates.base64 ⟨relayOrigin, handle, phrase.canonical⟩, grid⟩ := by
  simp only [LivePhrase.generate, Handle.generate, hhandle, hphrase, hqr]
  exact if_neg (Nat.not_lt.mpr hlen)

def pskFromPhrase (phrase : List UInt8) : List UInt8 := crates.digest phrase

namespace PairingSession

def new (relayOrigin : Text) (words : List Text) (draws : Draws words) (now : Instant) :
    Except (PairingError ε QrError) PairingSession :=
  match LivePhrase.generate crates relayOrigin words draws now with
  | .error e => .error e
  | .ok live => .ok ⟨relayOrigin, .live live⟩

theorem new_ok {relayOrigin : Text} {words : List Text} {draws : Draws words} {now : Instant}
    {live : LivePhrase} (h : LivePhrase.generate crates relayOrigin words draws now = .ok live) :
    new crates relayOrigin words draws now = .ok ⟨relayOrigin, .live live⟩ := by
  rw [new, h]

def applyExpiry (session : PairingSession) (now : Instant) : PairingSession :=
  match session.state with
  | .live live =>
    if now - live.generatedAt > phraseLifetime then { session with state := .expired } else session
  | _ => session

def live (session : PairingSession) : Option LivePhrase :=
  match session.state with
  | .live live => some live
  | .expired | .spent | .enrolled => none

/-- What an accessor reads; it leaves `applyExpiry` behind. -/
def look {α : Type} (session : PairingSession) (now : Instant) (read : LivePhrase → α) :
    Option α :=
  (session.applyExpiry now).live.map read

def isLive (session : PairingSession) (now : Instant) : Bool :=
  (session.applyExpiry now).live.isSome

def isSpent (session : PairingSession) : Bool :=
  match session.state with
  | .spent => true
  | _ => false

def handle (session : PairingSession) (now : Instant) : Option Handle :=
  session.look now LivePhrase.handle

def phraseDisplay (session : PairingSession) (now : Instant) : Option Text :=
  session.look now fun live => live.phrase.displayForm

def phraseCanonical (session : PairingSession) (now : Instant) : Option Text :=
  session.look now fun live => live.phrase.canonical

def pairingUri (session : PairingSession) (now : Instant) : Option Text :=
  session.look now LivePhrase.uri

def qr (session : PairingSession) (now : Instant) : Option QrGrid :=
  session.look now LivePhrase.qr

def pskFor (session : PairingSession) (now : Instant) : Option (List UInt8) :=
  session.look now fun live => pskFromPhrase crates (utf8 live.phrase.canonical)

def recordFailedAttempt (session : PairingSession) (now : Instant) : PairingSession :=
  let session := session.applyExpiry now
  match session.state with
  | .live live =>
    let failedAttempts := live.failedAttempts + 1
    if failedAttempts ≥ maxAttempts then { session with state := .spent }
    else { session with state := .live { live with failedAttempts } }
  | _ => session

def recordEnrolled (session : PairingSession) : PairingSession :=
  { session with state := .enrolled }

/-- The session is replaced only where everything could be generated. -/
def regenerate (session : PairingSession) (words : List Text) (draws : Draws words)
    (now : Instant) : Except (PairingError ε QrError) PairingSession :=
  match LivePhrase.generate crates session.relayOrigin words draws now with
  | .error e => .error e
  | .ok live => .ok { session with state := .live live }

end PairingSession

inductive Accessor where
  | handle
  | phraseDisplay
  | phraseCanonical
  | pairingUri
  | qr
  | pskFor
deriving DecidableEq

inductive Op where
  | isLive (now : Instant)
  | isSpent
  | read (accessor : Accessor) (now : Instant)
  | recordFailedAttempt (now : Instant)
  | recordEnrolled
  | regenerate (words : List Text) (draws : Draws words) (now : Instant)

/-- The session after an operation. -/
def after (session : PairingSession) : Op → PairingSession
  | .isLive now | .read _ now => session.applyExpiry now
  | .isSpent => session
  | .recordFailedAttempt now => session.recordFailedAttempt now
  | .recordEnrolled => session.recordEnrolled
  | .regenerate words draws now =>
    match session.regenerate crates words draws now with
    | .error _ => session
    | .ok session => session

def step (session : PairingSession) (op : Op) : Option PairingSession :=
  some (after crates session op)

/-- Whether an accessor returns a value. -/
def returns (session : PairingSession) (now : Instant) : Accessor → Bool
  | .handle => (session.handle now).isSome
  | .phraseDisplay => (session.phraseDisplay now).isSome
  | .phraseCanonical => (session.phraseCanonical now).isSome
  | .pairingUri => (session.pairingUri now).isSome
  | .qr => (session.qr now).isSome
  | .pskFor => (session.pskFor crates now).isSome

/-- The operation makes a new phrase. -/
def renews (session : PairingSession) : Op → Bool
  | .regenerate words draws now => (session.regenerate crates words draws now).isOk
  | _ => false

end Sessions

/-- The phrase is there and not too old. -/
def Lives (session : PairingSession) (now : Instant) : Prop :=
  ∃ live, session.state = .live live ∧ now - live.generatedAt ≤ phraseLifetime

/-- The session has left the live state. -/
def Dead (session : PairingSession) : Prop := session.live = none

namespace PairingSession

theorem applyExpiry_of_lives {session : PairingSession} {now : Instant} (h : Lives session now) :
    session.applyExpiry now = session := by
  obtain ⟨live, hs, hage⟩ := h
  rw [applyExpiry, hs]
  exact if_neg (Nat.not_lt.mpr hage)

theorem applyExpiry_of_dead {session : PairingSession} (now : Instant) (h : Dead session) :
    session.applyExpiry now = session := by
  rw [applyExpiry]
  split
  · next live hs => simp [Dead, PairingSession.live, hs] at h
  · rfl

/-- A session lives on, expires, or was dead before. -/
theorem applyExpiry_cases (session : PairingSession) (now : Instant) :
    Lives session now ∨ (Dead session ∧ ¬Lives session now) ∨
    (¬Lives session now ∧ ¬Dead session ∧
      session.applyExpiry now = { session with state := .expired }) := by
  rcases hs : session.state with live | _ | _ | _
  · by_cases hage : now - live.generatedAt ≤ phraseLifetime
    · exact .inl ⟨live, hs, hage⟩
    · refine .inr (.inr ⟨?_, by simp [Dead, PairingSession.live, hs], ?_⟩)
      · rintro ⟨other, hother, hle⟩
        cases hs.symm.trans hother
        exact hage hle
      · rw [applyExpiry, hs]
        exact if_pos (Nat.lt_of_not_le hage)
  all_goals
    refine .inr (.inl ⟨by simp [Dead, PairingSession.live, hs], ?_⟩)
    rintro ⟨other, hother, -⟩
    cases hs.symm.trans hother

theorem look_isSome_iff {α : Type} (session : PairingSession) (now : Instant)
    (read : LivePhrase → α) : (session.look now read).isSome ↔ Lives session now := by
  rcases session.applyExpiry_cases now with h | ⟨hdead, h⟩ | ⟨h, -, hexp⟩
  · have heq := applyExpiry_of_lives h
    obtain ⟨live, hs, -⟩ := id h
    simp [look, heq, PairingSession.live, hs, h]
  · have hlive : session.live = none := hdead
    simp [look, applyExpiry_of_dead now hdead, hlive, h]
  · simp [look, hexp, PairingSession.live, h]

theorem isLive_iff (session : PairingSession) (now : Instant) :
    session.isLive now ↔ Lives session now := by
  rw [← look_isSome_iff session now id, look, Option.map_id, isLive]
  rfl

end PairingSession

theorem returns_iff {ε Bits QrError : Type} (crates : Crates ε Bits QrError)
    (session : PairingSession) (now : Instant) (accessor : Accessor) :
    returns crates session now accessor ↔ Lives session now := by
  cases accessor <;> exact session.look_isSome_iff now _

end HerdrMobile.Host.Pairing
