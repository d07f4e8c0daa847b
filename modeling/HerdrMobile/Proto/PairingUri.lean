import HerdrMobile.Lib.Base64
import HerdrMobile.Lib.Utf8
import HerdrMobile.Proto.Phrase

/-!
# Routing handles and the pairing URI

`handle.rs` of the protocol crate. The base64 crate's `URL_SAFE_NO_PAD` engine is a
parameter; what is relied on is that it is the encoding of RFC 4648, section 5,
without padding, and that it refuses trailing bits that are not zero.
-/

namespace HerdrMobile.Proto

open Lib Strings Utf8

def handleBytes : Nat := 16
def handleLen : Nat := 22
def pairingUriScheme : Text := "herdr-remote".toList
def pairingUriMaxLen : Nat := 512

def urlSafe : Base64.Alphabet Char where
  symbols := "ABCDEFGHIJKLMNOPQRSTUVWXYZabcdefghijklmnopqrstuvwxyz0123456789-_".toList
  size := by decide
  distinct := by decide

/-- An engine of the base64 crate; `ε` is its `DecodeError`. -/
structure Engine (ε : Type) where
  encode : List UInt8 → Text
  decode : Text → Except ε (List UInt8)

/-- The engine encodes as the RFC says, and accepts what is so encoded. -/
structure Engine.UrlSafeNoPad {ε : Type} (E : Engine ε) : Prop where
  encode : ∀ bytes, E.encode bytes = urlSafe.encode bytes
  decode : ∀ text bytes, E.decode text = .ok bytes ↔ urlSafe.decode text = some bytes

structure Handle where
  bytes : List UInt8
  size : bytes.length = handleBytes
deriving DecidableEq

inductive HandleError (ε : Type) where
  | generate
  | wrongLength
  | decode (error : ε)
deriving DecidableEq

namespace Handle

variable {ε : Type} (E : Engine ε)

/-- `filled` is what the random source fills the sixteen bytes with. -/
def generate (filled : Option Handle) : Except (HandleError ε) Handle :=
  match filled with
  | none => .error .generate
  | some handle => .ok handle

def encode (handle : Handle) : Text := E.encode handle.bytes

def fromStr (candidate : Text) : Except (HandleError ε) Handle :=
  if (utf8 candidate).length ≠ handleLen then .error .wrongLength
  else
    match E.decode candidate with
    | .error e => .error (.decode e)
    | .ok decoded =>
      if size : decoded.length = handleBytes then .ok ⟨decoded, size⟩ else .error .wrongLength

end Handle

def isUnreserved (byte : UInt8) : Bool :=
  let n := byte.toNat
  (65 ≤ n && n ≤ 90) || (97 ≤ n && n ≤ 122) || (48 ≤ n && n ≤ 57) || n = 45 || n = 46 || n = 95 ||
    n = 126

def hexUpper (n : Nat) : Char := "0123456789ABCDEF".toList.getD n '0'

def percentEncodeByte (byte : UInt8) : Text :=
  if isUnreserved byte then [Char.ofNat byte.toNat]
  else ['%', hexUpper (byte.toNat / 16), hexUpper (byte.toNat % 16)]

def percentEncode (input : Text) : Text := (utf8 input).flatMap percentEncodeByte

def hexDigit (byte : UInt8) : Option Nat :=
  let n := byte.toNat
  if 48 ≤ n ∧ n ≤ 57 then some (n - 48)
  else if 65 ≤ n ∧ n ≤ 70 then some (n - 55)
  else if 97 ≤ n ∧ n ≤ 102 then some (n - 87)
  else none

/-- `u8::from_str_radix` on two bytes: a plus sign before a single digit is a number too. -/
def fromStrRadix16 (first second : UInt8) : Option UInt8 :=
  if first = 0x2B then (hexDigit second).map UInt8.ofNat
  else
    match hexDigit first, hexDigit second with
    | some high, some low => some (UInt8.ofNat (high * 16 + low))
    | _, _ => none

/-- The loop of `percent_decode`. There is no result where the slice of the two
bytes after a percent sign cuts a character: the slice panics. -/
def percentDecodeBytes : List UInt8 → Option (List UInt8)
  | [] => some []
  | byte :: first :: second :: rest =>
    if byte = 0x25 then
      if isBoundary (first :: second :: rest) ∧ isBoundary rest then
        match fromStrRadix16 first second with
        | some value => (percentDecodeBytes rest).map (value :: ·)
        | none => (percentDecodeBytes (first :: second :: rest)).map (byte :: ·)
      else none
    else (percentDecodeBytes (first :: second :: rest)).map (byte :: ·)
  | byte :: rest => (percentDecodeBytes rest).map (byte :: ·)

def percentDecode (input : Text) : Option Text :=
  (percentDecodeBytes (utf8 input)).map fromUtf8Lossy

structure PairingUri where
  relayOrigin : Text
  handle : Handle
  phrase : Text
deriving DecidableEq

inductive PairingUriError (ε : Type) where
  | scheme
  | path
  | version
  | fieldMissing
  | fieldRepeated
  | tooLong
  | relayOriginInvalid
  | handleMalformed (error : HandleError ε)
deriving DecidableEq

inductive Field where
  | version
  | relayOrigin
  | handle
  | phrase
deriving DecidableEq

/-- The keys of the query; any other key is skipped. -/
def fieldOf (key : Text) : Option Field :=
  if key = ['v'] then some .version
  else if key = ['r'] then some .relayOrigin
  else if key = ['h'] then some .handle
  else if key = ['p'] then some .phrase
  else none

structure QueryFields where
  version : Option Text := none
  relayOrigin : Option Text := none
  handle : Option Text := none
  phrase : Option Text := none
deriving DecidableEq

namespace QueryFields

def get (fields : QueryFields) : Field → Option Text
  | .version => fields.version
  | .relayOrigin => fields.relayOrigin
  | .handle => fields.handle
  | .phrase => fields.phrase

def set (fields : QueryFields) (value : Text) : Field → QueryFields
  | .version => { fields with version := some value }
  | .relayOrigin => { fields with relayOrigin := some value }
  | .handle => { fields with handle := some value }
  | .phrase => { fields with phrase := some value }

@[simp] theorem get_set_self (fields : QueryFields) (value : Text) (f : Field) :
    (fields.set value f).get f = some value := by
  cases f <;> rfl

theorem get_set_of_ne (fields : QueryFields) (value : Text) {f g : Field} (h : g ≠ f) :
    (fields.set value f).get g = fields.get g := by
  cases f <;> cases g <;> first | rfl | exact absurd rfl h

theorem set_comm (fields : QueryFields) (x y : Text) {f g : Field} (h : f ≠ g) :
    (fields.set x f).set y g = (fields.set y g).set x f := by
  cases f <;> cases g <;> first | rfl | exact absurd rfl h

end QueryFields

section Parsing

variable {ε : Type}

/-- What the slot of a field takes from its text. -/
def fieldValue (f : Field) (value : Text) : Option Text :=
  if f = .relayOrigin then percentDecode value else some value

def addPair (fields : QueryFields) (pair : Text) :
    Option (Except (PairingUriError ε) QueryFields) :=
  match splitOnce ['='] pair with
  | none => some (.error .fieldMissing)
  | some (key, value) =>
    match fieldOf key with
    | none => some (.ok fields)
    | some f =>
      if (fields.get f).isSome then some (.error .fieldRepeated)
      else (fieldValue f value).map fun value => .ok (fields.set value f)

def addPairs (fields : QueryFields) :
    List Text → Option (Except (PairingUriError ε) QueryFields)
  | [] => some (.ok fields)
  | pair :: rest =>
    match addPair fields pair with
    | some (.ok fields) => addPairs fields rest
    | failed => failed

def parseQuery (query : Text) : Option (Except (PairingUriError ε) QueryFields) :=
  addPairs {} (query.splitOn '&')

def isAbsoluteHttpOrigin (origin : Text) : Bool :=
  match splitOnce "://".toList origin with
  | none => false
  | some (scheme, rest) =>
    (scheme = "http".toList || scheme = "https".toList) && rest ≠ [] &&
      rest.all fun c => c ∉ ['/', '?', '#', '@']

variable (E : Engine ε)

/-- The checks of `parse` after the query has been read. -/
def QueryFields.validate (fields : QueryFields) : Except (PairingUriError ε) PairingUri :=
  if fields.version ≠ some ['1'] then .error .version
  else
    match fields.relayOrigin, fields.handle, fields.phrase with
    | some relayOrigin, some handleText, some phrase =>
      if !isAbsoluteHttpOrigin relayOrigin then .error .relayOriginInvalid
      else
        match Handle.fromStr E handleText with
        | .error e => .error (.handleMalformed e)
        | .ok handle => .ok ⟨relayOrigin, handle, phrase⟩
    | _, _, _ => .error .fieldMissing

namespace PairingUri

def build (uri : PairingUri) : Text :=
  pairingUriScheme ++ "://pair?v=1&r=".toList ++ percentEncode uri.relayOrigin ++ "&h=".toList ++
    uri.handle.encode E ++ "&p=".toList ++ uri.phrase

/-- No result is a panic of `percent_decode`. -/
def parse (uri : Text) : Option (Except (PairingUriError ε) PairingUri) :=
  if (utf8 uri).length > pairingUriMaxLen then some (.error .tooLong)
  else
    match (stripPrefix pairingUriScheme uri).bind (stripPrefix "://".toList) with
    | none => some (.error .scheme)
    | some rest =>
      match splitOnce ['?'] rest with
      | none => some (.error .fieldMissing)
      | some (path, query) =>
        if path ≠ "pair".toList then some (.error .path)
        else (parseQuery query).map fun fields => fields.bind (·.validate E)

end PairingUri

end Parsing

namespace PairingUriError

/-- The validation codes of the wire. -/
def code {ε : Type} : PairingUriError ε → String
  | .scheme => "pair_uri_scheme"
  | .path => "pair_uri_path"
  | .version => "pair_uri_version"
  | .fieldMissing => "pair_uri_field_missing"
  | .fieldRepeated => "pair_uri_field_repeated"
  | .tooLong => "pair_uri_too_long"
  | .relayOriginInvalid => "relay_origin_invalid"
  | .handleMalformed _ => "handle_malformed"

end PairingUriError

end HerdrMobile.Proto
