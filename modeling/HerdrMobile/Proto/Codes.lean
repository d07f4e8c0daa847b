/-!
# Bytes and WebSocket close codes

The relay's own application codes are 4000 to 4999; 1000, 1001, 1006 and 1011
are the protocol's.
-/
namespace HerdrMobile.Proto.Codes

set_option autoImplicit false

abbrev Bytes := List UInt8

inductive CloseCode where
  | normal
  | goingAway
  | abnormal
  | internalError
  | pairingExpired
  | handleUnknown
  | handleTaken
  | protocolError
  | revoked
  | handshakeFailed
  | hostInUse
  | frameTooLarge
  | rateLimited
  deriving DecidableEq

def CloseCode.code : CloseCode → UInt16
  | .normal => 1000
  | .goingAway => 1001
  | .abnormal => 1006
  | .internalError => 1011
  | .pairingExpired => 4000
  | .handleUnknown => 4001
  | .handleTaken => 4002
  | .protocolError => 4003
  | .revoked => 4004
  | .handshakeFailed => 4005
  | .hostInUse => 4006
  | .frameTooLarge => 4007
  | .rateLimited => 4008

end HerdrMobile.Proto.Codes
