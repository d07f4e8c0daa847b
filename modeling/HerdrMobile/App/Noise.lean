import HerdrMobile.Lib.Noise

/-!
# The Noise sessions of a Device

The Device is the initiator of both patterns and runs them by hand. A `sublist` out of
range and a refused authentication tag end a handshake.
-/
namespace HerdrMobile.App.Noise

open HerdrMobile.Lib.Noise (Octets Suite Noted Event dhLen hashLen tagLen)

set_option autoImplicit false

def utf8Encode (text : String) : Octets := text.toList.map fun c => UInt8.ofNat c.toNat

def xxPsk0ProtocolName : String := "Noise_XXpsk0_25519_ChaChaPoly_BLAKE2s"

def kkProtocolName : String := "Noise_KK_25519_ChaChaPoly_BLAKE2s"

def blockLengthInBytes : Nat := 64

section Primitives

variable (S : Suite)

def hmacBlake2s (key data : Octets) : Octets :=
  let paddedKey := key ++ List.replicate (blockLengthInBytes - key.length) 0
  let innerPad := paddedKey.map (· ^^^ 0x36)
  let outerPad := paddedKey.map (· ^^^ 0x5c)
  let inner := S.hash (innerPad ++ data)
  S.hash (outerPad ++ inner)

/-- With two outputs. -/
def hkdf2 (chainingKey ikm : Octets) : Octets × Octets :=
  let tempKey := hmacBlake2s S chainingKey ikm
  let out1 := hmacBlake2s S tempKey [1]
  (out1, hmacBlake2s S tempKey (out1 ++ [2]))

/-- With three outputs. -/
def hkdf3 (chainingKey ikm : Octets) : Octets × Octets × Octets :=
  let tempKey := hmacBlake2s S chainingKey ikm
  let out1 := hmacBlake2s S tempKey [1]
  let out2 := hmacBlake2s S tempKey (out1 ++ [2])
  (out1, out2, hmacBlake2s S tempKey (out2 ++ [3]))

def aeadEncrypt (key : Octets) (nonceCounter : Nat) (associatedData plaintext : Octets) :
    Noted Octets := do
  let ciphertext := S.encrypt key nonceCounter associatedData plaintext
  Noted.note (.sealed key associatedData ciphertext)
  return ciphertext

def aeadDecrypt (key : Octets) (nonceCounter : Nat) (associatedData ciphertextWithTag : Octets) :
    Noted Octets :=
  if ciphertextWithTag.length < tagLen then Noted.stop
  else do
    let plaintext := S.decrypt key nonceCounter associatedData ciphertextWithTag
    Noted.note (.opened key associatedData ciphertextWithTag plaintext.isSome)
    Noted.ofOption plaintext

end Primitives

/-- `hasKey` stays false in `mixKeyAndHash`. -/
structure SymmetricState where
  h : Octets
  ck : Octets
  hasKey : Bool
  cipherKey : Option Octets
  nonce : Nat
  deriving DecidableEq

namespace SymmetricState

variable (S : Suite)

def mixHash (t : SymmetricState) (data : Octets) : Noted SymmetricState := do
  Noted.note (.hashed (t.h ++ data))
  return { t with h := S.hash (t.h ++ data) }

/-- `initialize`, with the protocol name of the constructor. -/
def initializeState (protocolName : String) (prologue : Octets) : Noted SymmetricState := do
  let nameBytes := utf8Encode protocolName
  let h ←
    if nameBytes.length ≤ hashLen then
      pure (nameBytes ++ List.replicate (hashLen - nameBytes.length) 0)
    else do
      Noted.note (.hashed nameBytes)
      pure (S.hash nameBytes)
  let t : SymmetricState := { h := h, ck := h, hasKey := false, cipherKey := none, nonce := 0 }
  t.mixHash S prologue

def mixKey (t : SymmetricState) (data : Octets) : SymmetricState :=
  let outputs := hkdf2 S t.ck data
  { t with ck := outputs.1, cipherKey := some outputs.2, nonce := 0, hasKey := true }

def mixKeyAndHash (t : SymmetricState) (data : Octets) : Noted SymmetricState := do
  let outputs := hkdf3 S t.ck data
  Noted.note (.derived t.ck data)
  let t ← { t with ck := outputs.1 }.mixHash S outputs.2.1
  return { t with cipherKey := some outputs.2.2, nonce := 0 }

def encryptAndHash (t : SymmetricState) (plaintext : Octets) : Noted (SymmetricState × Octets) := do
  if t.hasKey then
    let cipherKey ← Noted.ofOption t.cipherKey
    let ciphertext ← aeadEncrypt S cipherKey t.nonce t.h plaintext
    let t ← { t with nonce := t.nonce + 1 }.mixHash S ciphertext
    return (t, ciphertext)
  else
    let t ← t.mixHash S plaintext
    return (t, plaintext)

def decryptAndHash (t : SymmetricState) (data : Octets) : Noted (SymmetricState × Octets) := do
  if t.hasKey then
    let cipherKey ← Noted.ofOption t.cipherKey
    let plaintext ← aeadDecrypt S cipherKey t.nonce t.h data
    let t ← { t with nonce := t.nonce + 1 }.mixHash S data
    return (t, plaintext)
  else
    let t ← t.mixHash S data
    return (t, data)

/-- The send key and the receive key of the Device. -/
def split (t : SymmetricState) : Octets × Octets := hkdf2 S t.ck []

end SymmetricState

/-- The keys of the two ciphers, whose nonces start at zero. -/
structure NoiseSession where
  send : Octets
  receive : Octets
  remoteStaticPublicKey : Octets
  deriving DecidableEq

def requireUnlocked (isLocked : Bool) : Noted Unit :=
  if isLocked then Noted.stop else pure ()

/-- `message.sublist(start, stop)`. -/
def sublist (message : Octets) (start stop : Nat) : Noted Octets :=
  if start ≤ stop ∧ stop ≤ message.length then pure ((message.drop start).take (stop - start))
  else Noted.stop

structure NoiseXxPsk0Initiator (S : Suite) where
  state : SymmetricState
  localStatic : S.PrivateKey
  localEphemeral : Option S.PrivateKey
  remoteEphemeral : Option Octets
  remoteStatic : Option Octets

namespace NoiseXxPsk0Initiator

variable {S : Suite}

def init (isLocked : Bool) (localStatic : S.PrivateKey) : Noted (NoiseXxPsk0Initiator S) := do
  requireUnlocked isLocked
  let state ← SymmetricState.initializeState S xxPsk0ProtocolName []
  return {
    state := state
    localStatic := localStatic
    localEphemeral := none
    remoteEphemeral := none
    remoteStatic := none }

/-- `ephemeral` is the new key pair. -/
def writeMessage1 (i : NoiseXxPsk0Initiator S) (psk : Octets) (ephemeral : S.PrivateKey) :
    Noted (NoiseXxPsk0Initiator S × Octets) := do
  let state ← i.state.mixKeyAndHash S psk
  let ePub := S.publicKey ephemeral
  let state ← state.mixHash S ePub
  let state := state.mixKey S ePub
  let (state, tag) ← state.encryptAndHash S []
  return ({ i with state := state, localEphemeral := some ephemeral }, ePub ++ tag)

def readMessage2 (i : NoiseXxPsk0Initiator S) (message : Octets) :
    Noted (NoiseXxPsk0Initiator S) := do
  let re ← sublist message 0 dhLen
  let state ← i.state.mixHash S re
  let state := state.mixKey S re
  let localEphemeral ← Noted.ofOption i.localEphemeral
  let state := state.mixKey S (S.dh localEphemeral re)
  let sLen := if state.hasKey then dhLen + tagLen else dhLen
  let sCiphertext ← sublist message dhLen (dhLen + sLen)
  let (state, rs) ← state.decryptAndHash S sCiphertext
  let state := state.mixKey S (S.dh localEphemeral rs)
  let remainder ← sublist message (dhLen + sLen) message.length
  let (state, _) ← state.decryptAndHash S remainder
  return { i with state := state, remoteEphemeral := some re, remoteStatic := some rs }

def writeMessage3 (i : NoiseXxPsk0Initiator S) : Noted (NoiseXxPsk0Initiator S × Octets) := do
  let sPub := S.publicKey i.localStatic
  let (state, sCiphertext) ← i.state.encryptAndHash S sPub
  let remoteEphemeral ← Noted.ofOption i.remoteEphemeral
  let state := state.mixKey S (S.dh i.localStatic remoteEphemeral)
  let (state, tag) ← state.encryptAndHash S []
  return ({ i with state := state }, sCiphertext ++ tag)

def finish (i : NoiseXxPsk0Initiator S) : Noted NoiseSession := do
  let keys := i.state.split S
  let remoteStatic ← Noted.ofOption i.remoteStatic
  return { send := keys.1, receive := keys.2, remoteStaticPublicKey := remoteStatic }

end NoiseXxPsk0Initiator

structure NoiseKkInitiator (S : Suite) where
  state : SymmetricState
  localStatic : S.PrivateKey
  remoteStatic : Octets
  localEphemeral : Option S.PrivateKey

namespace NoiseKkInitiator

variable {S : Suite}

def init (isLocked : Bool) (localStatic : S.PrivateKey) (remoteStaticPublicKey : Octets) :
    Noted (NoiseKkInitiator S) := do
  requireUnlocked isLocked
  let state ← SymmetricState.initializeState S kkProtocolName []
  let state ← state.mixHash S (S.publicKey localStatic)
  let state ← state.mixHash S remoteStaticPublicKey
  return {
    state := state
    localStatic := localStatic
    remoteStatic := remoteStaticPublicKey
    localEphemeral := none }

def writeMessage1 (i : NoiseKkInitiator S) (ephemeral : S.PrivateKey) :
    Noted (NoiseKkInitiator S × Octets) := do
  let ePub := S.publicKey ephemeral
  let state ← i.state.mixHash S ePub
  let state := state.mixKey S (S.dh ephemeral i.remoteStatic)
  let state := state.mixKey S (S.dh i.localStatic i.remoteStatic)
  let (state, tag) ← state.encryptAndHash S []
  return ({ i with state := state, localEphemeral := some ephemeral }, ePub ++ tag)

def readMessage2 (i : NoiseKkInitiator S) (message : Octets) : Noted (NoiseKkInitiator S) := do
  let re ← sublist message 0 dhLen
  let state ← i.state.mixHash S re
  let localEphemeral ← Noted.ofOption i.localEphemeral
  let state := state.mixKey S (S.dh localEphemeral re)
  let state := state.mixKey S (S.dh i.localStatic re)
  let remainder ← sublist message dhLen message.length
  let (state, _) ← state.decryptAndHash S remainder
  return { i with state := state }

def finish (i : NoiseKkInitiator S) : Noted NoiseSession := do
  let keys := i.state.split S
  return { send := keys.1, receive := keys.2, remoteStaticPublicKey := i.remoteStatic }

end NoiseKkInitiator

end HerdrMobile.App.Noise
