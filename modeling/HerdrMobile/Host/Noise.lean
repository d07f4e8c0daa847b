import HerdrMobile.Lib.Noise

/-!
# The Noise sessions of the Host

Two patterns, both with an empty prologue. The crate that runs them is the
specification's own state machine. The phrase reaches this module as its key.
-/
namespace HerdrMobile.Host.Noise

open HerdrMobile.Lib.Noise

set_option autoImplicit false

variable {S : Suite}

def octets (text : String) : Octets := text.toList.map fun c => UInt8.ofNat c.toNat

def xxPsk0Params : Pattern where
  name := octets "Noise_XXpsk0_25519_ChaChaPoly_BLAKE2s"
  pre := []
  messages := [[.psk, .e], [.e, .ee, .s, .es], [.s, .se]]

def kkParams : Pattern where
  name := octets "Noise_KK_25519_ChaChaPoly_BLAKE2s"
  pre := [.initiator, .responder]
  messages := [[.e, .es, .ss], [.e, .ee, .se]]

/-- `ephemeral` is what the crate's generator draws for the `e` token. -/
def pairingHandshake (role : Party) (localPrivateKey ephemeral : S.PrivateKey) (psk : Octets) :
    Noted (HandshakeState S) :=
  HandshakeState.start xxPsk0Params [] role localPrivateKey ephemeral none (some psk)

def reconnectHandshake (role : Party) (localPrivateKey ephemeral : S.PrivateKey)
    (remoteStaticPublicKey : Octets) : Noted (HandshakeState S) :=
  HandshakeState.start kkParams [] role localPrivateKey ephemeral (some remoteStaticPublicKey) none

def writeHandshakeMessage (state : HandshakeState S) (payload : Octets) :
    Noted (HandshakeState S × Octets) :=
  state.writeMessage payload

def readHandshakeMessage (state : HandshakeState S) (message : Octets) :
    Noted (HandshakeState S × Octets) :=
  state.readMessage message

/-- The keys of the two transport ciphers, whose nonces start at zero. -/
structure Transport where
  send : Octets
  receive : Octets
  deriving DecidableEq

/-- The crate turns over only a handshake without messages left to write or to read. -/
def intoTransportMode (state : HandshakeState S) : Noted Transport :=
  if state.messages = [] then
    let keys := state.symmetric.split S
    match state.party with
    | .initiator => pure { send := keys.1, receive := keys.2 }
    | .responder => pure { send := keys.2, receive := keys.1 }
  else Noted.stop

def finishHandshake (state : HandshakeState S) : Noted (Transport × Octets) := do
  let remoteStatic ← Noted.ofOption state.rs
  let transport ← intoTransportMode state
  return (transport, remoteStatic)

end HerdrMobile.Host.Noise
