import HerdrMobile.Lib.Collapse
import HerdrMobile.Proto.PairingUri

/-!
# Pairing input on a Device

`pairing.dart` with `origin.dart`: the pairing URI and the phrase. A text is made of characters
here, and of code units where the Device goes by them. The messages are left out.
-/
namespace HerdrMobile.App.PairingText

open HerdrMobile.Lib HerdrMobile.Lib.Strings HerdrMobile.Lib.Utf8
open HerdrMobile.Proto (segmentWords pairingUriScheme pairingUriMaxLen handleBytes handleLen
  wordCount effWordlistEntryCount urlSafe Field fieldOf QueryFields)

set_option autoImplicit false

/-- What `Uri.parse` returns, as far as it is looked at. There is no port to read where asking for
it throws. -/
structure Uri where
  scheme : Text
  userInfo : Text
  host : Text
  port : Option (Option Int)
  path : Text
  query : Text
  fragment : Text
deriving DecidableEq

inductive InternetAddress where
  | v4 (rawAddress : List Nat)
  | v6 (isLoopback : Bool)
deriving DecidableEq

/-- The lower case of a character outside ASCII, and the parsers of `dart:core` and `dart:io`. -/
structure Dart where
  toLowerCase : Char → Text
  toLowerCase_ne_nil : ∀ c, toLowerCase c ≠ []
  toLowerCase_hyphen : ∀ c, c ≠ '-' → '-' ∉ toLowerCase c
  toLowerCase_whitespace : ∀ c, isWhitespace c = true → toLowerCase c = [c]
  uriParse : Text → Option Uri
  internetAddressTryParse : Text → Option InternetAddress

/-- The characters that `trim` removes. -/
def isTrimmed (c : Char) : Bool := isWhitespace c || c.toNat = 0xFEFF

def trim (t : Text) : Text := Collapse.trimBy isTrimmed t

/-- The class `\s` of a regular expression. -/
def isSpace (c : Char) : Bool := (isWhitespace c && c.toNat ≠ 0x85) || c.toNat = 0xFEFF

/-- A character outside the basic plane is two surrogates, which have no lower case. -/
def lowerUnit (dart : Dart) (c : Char) : Text :=
  if c.toNat < 0x80 then [c.toLower]
  else if c.toNat < 0x10000 then dart.toLowerCase c
  else [c]

def codeUnits (t : Text) : List Nat :=
  t.flatMap fun c =>
    if c.toNat < 0x10000 then [c.toNat]
    else [0xD800 + (c.toNat - 0x10000) / 0x400, 0xDC00 + (c.toNat - 0x10000) % 0x400]

def hexDigit (unit : Nat) : Option Nat :=
  if 48 ≤ unit ∧ unit ≤ 57 then some (unit - 48)
  else if 65 ≤ unit ∧ unit ≤ 70 then some (unit - 55)
  else if 97 ≤ unit ∧ unit ≤ 102 then some (unit - 87)
  else none

/-- A code unit that is white space to `int.tryParse`. -/
@[irreducible] def isTrimmedUnit (unit : Nat) : Bool := isTrimmed (Char.ofNat unit)

/-- `int.tryParse` with radix 16, on two code units. -/
def tryParse (first second : Nat) : Option Int :=
  match isTrimmedUnit first, isTrimmedUnit second with
  | true, true => none
  | true, false => (hexDigit second).map Int.ofNat
  | false, true => (hexDigit first).map Int.ofNat
  | false, false =>
    if first = 0x2B then (hexDigit second).map Int.ofNat
    else if first = 0x2D then (hexDigit second).map fun n => -Int.ofNat n
    else
      match hexDigit first, hexDigit second with
      | some high, some low => some (Int.ofNat (high * 16 + low))
      | _, _ => none

/-- What is no byte is read as 255. -/
def asByte (value : Int) : UInt8 :=
  if 0 ≤ value ∧ value ≤ 255 then UInt8.ofNat value.toNat else 0xFF

/-- `utf8.decode` with `allowMalformed`, which skips a byte order mark. -/
def utf8Decode (bytes : List UInt8) : Text :=
  match bytes with
  | 0xEF :: 0xBB :: 0xBF :: rest => fromUtf8Lossy rest
  | _ => fromUtf8Lossy bytes

/-- A symbol of either alphabet, as the one for URLs writes it, or the padding. -/
def base64Symbol (c : Char) : Option Char :=
  if c = '+' then some '-'
  else if c = '/' then some '_'
  else if c = '=' ∨ c ∈ urlSafe.symbols then some c
  else none

/-- `base64Url.normalize` up to the padding: escapes are symbols too. -/
def base64Symbols : Text → Option (List Char)
  | [] => some []
  | '%' :: x :: y :: rest =>
    match hexDigit x.toNat, hexDigit y.toNat with
    | some high, some low =>
      match base64Symbol (Char.ofNat (high * 16 + low)), base64Symbols rest with
      | some symbol, some symbols => some (symbol :: symbols)
      | _, _ => none
    | _, _ => none
  | c :: rest =>
    match base64Symbol c, base64Symbols rest with
    | some symbol, some symbols => some (symbol :: symbols)
    | _, _ => none

/-- `base64Url.decode` of what is normalized. Padding that is there must fit. -/
def base64Decode (text : Text) : Option (List UInt8) :=
  (base64Symbols text).bind fun symbols =>
    if '=' ∈ symbols then urlSafe.decodePadded '=' symbols else urlSafe.decode symbols

inductive PairingUriErrorCode where
  | scheme
  | path
  | version
  | fieldMissing
  | fieldRepeated
  | tooLong
  | handleMalformed
deriving DecidableEq

def PairingUriErrorCode.wireValue : PairingUriErrorCode → String
  | .scheme => "pair_uri_scheme"
  | .path => "pair_uri_path"
  | .version => "pair_uri_version"
  | .fieldMissing => "pair_uri_field_missing"
  | .fieldRepeated => "pair_uri_field_repeated"
  | .tooLong => "pair_uri_too_long"
  | .handleMalformed => "handle_malformed"

inductive PhraseErrorCode where
  | phraseWordCount
  | phraseWordUnknown
  | phraseSeparator
  | phraseCase
  | phraseExpired
  | phraseAttempts
deriving DecidableEq

def PhraseErrorCode.wireValue : PhraseErrorCode → String
  | .phraseWordCount => "phrase_word_count"
  | .phraseWordUnknown => "phrase_word_unknown"
  | .phraseSeparator => "phrase_separator"
  | .phraseCase => "phrase_case"
  | .phraseExpired => "phrase_expired"
  | .phraseAttempts => "phrase_attempts"

inductive RelayOriginErrorCode where
  | relayOriginInvalid
  | relayOriginInsecure
deriving DecidableEq

def RelayOriginErrorCode.wireValue : RelayOriginErrorCode → String
  | .relayOriginInvalid => "relay_origin_invalid"
  | .relayOriginInsecure => "relay_origin_insecure"

/-- The cause of an `Err`, or the exception of a port that cannot be read, which nothing catches. -/
inductive Cause where
  | uri (code : PairingUriErrorCode)
  | phrase (code : PhraseErrorCode)
  | origin (code : RelayOriginErrorCode)
  | wordlist (found : Nat)
  | formatException
deriving DecidableEq

/-- The wire code, where the input is at fault. -/
def Cause.code : Cause → Option String
  | .uri code => some code.wireValue
  | .phrase code => some code.wireValue
  | .origin code => some code.wireValue
  | .wordlist _ | .formatException => none

def normalizeFrom (dart : Dart) : Bool → Text → Text
  | _, [] => []
  | lastWasSeparator, ch :: rest =>
    if ch = '-' ∨ isSpace ch then
      if lastWasSeparator then normalizeFrom dart true rest
      else '-' :: normalizeFrom dart true rest
    else lowerUnit dart ch ++ normalizeFrom dart false rest

def normalizePhraseInput (dart : Dart) (input : Text) : Text :=
  normalizeFrom dart false (trim input)

def isLowercaseAscii (word : Text) : Bool := word.all fun c => 0x61 ≤ c.toNat && c.toNat ≤ 0x7A

/-- The segmentation is the same loop as the Host's. -/
def validatePhrase (dart : Dart) (candidate : Text) (words : List Text) : Except Cause Text :=
  if words.length ≠ effWordlistEntryCount then .error (.wordlist words.length)
  else
    let normalized := normalizePhraseInput dart candidate
    let parts := normalized.splitOn '-'
    if parts.any List.isEmpty then .error (.phrase .phraseSeparator)
    else if parts.any fun word => !isLowercaseAscii word then .error (.phrase .phraseCase)
    else
      let segmented := segmentWords normalized parts words
      if segmented.length ≠ wordCount then .error (.phrase .phraseWordCount)
      else if segmented.any fun word => word ∉ words then .error (.phrase .phraseWordUnknown)
      else .ok (['-'].intercalate segmented)

structure RelayOrigin where
  scheme : Text
  host : Text
  port : Option Int
deriving DecidableEq

def RelayOrigin.canonical (origin : RelayOrigin) : Text :=
  match origin.port with
  | none => origin.scheme ++ "://".toList ++ origin.host
  | some port => origin.scheme ++ "://".toList ++ origin.host ++ ':' :: (toString port).toList

def isLocalDevelopmentHost (dart : Dart) (host : Text) : Bool :=
  if host = "localhost".toList then true
  else
    match dart.internetAddressTryParse host with
    | none => false
    | some (.v6 isLoopback) => isLoopback
    | some (.v4 octets) =>
      match octets with
      | [a, b, _, _] =>
        a = 127 || a = 10 || (a = 172 && 16 ≤ b && b ≤ 31) || (a = 192 && b = 168)
      | _ => false

def parseRelayOrigin (dart : Dart) (text : Text) : Except Cause RelayOrigin :=
  match dart.uriParse text with
  | none => .error (.origin .relayOriginInvalid)
  | some uri =>
    if (uri.scheme = "http".toList ∨ uri.scheme = "https".toList) ∧ uri.host ≠ [] ∧
        uri.userInfo = [] ∧ (uri.path = [] ∨ uri.path = ['/']) ∧ uri.query = [] ∧
        uri.fragment = [] then
      match uri.port with
      | none => .error .formatException
      | some port =>
        if uri.scheme = "http".toList ∧ isLocalDevelopmentHost dart uri.host = false then
          .error (.origin .relayOriginInsecure)
        else .ok ⟨uri.scheme, uri.host, port⟩
    else .error (.origin .relayOriginInvalid)

/-- The values of `_percentDecode` before they are read as UTF-8. -/
def percentDecodeUnits : List Nat → List Int
  | [] => []
  | unit :: first :: second :: rest =>
    if unit = 0x25 then
      match tryParse first second with
      | some value => value :: percentDecodeUnits rest
      | none => Int.ofNat unit :: percentDecodeUnits (first :: second :: rest)
    else Int.ofNat unit :: percentDecodeUnits (first :: second :: rest)
  | unit :: rest => Int.ofNat unit :: percentDecodeUnits rest

def percentDecode (input : Text) : Text :=
  utf8Decode ((percentDecodeUnits (codeUnits input)).map asByte)

def addPair (fields : QueryFields) (pair : Text) : Except Cause QueryFields :=
  match splitOnce ['='] pair with
  | none => .error (.uri .fieldMissing)
  | some (key, rawValue) =>
    match fieldOf key with
    | none => .ok fields
    | some f =>
      if (fields.get f).isSome then .error (.uri .fieldRepeated)
      else .ok (fields.set (if f = .relayOrigin then percentDecode rawValue else rawValue) f)

def parseQuery (query : Text) : Except Cause QueryFields := (query.splitOn '&').foldlM addPair {}

/-- The length counts code units. -/
def validateHandle (candidate : Text) : Except Cause Text :=
  if (codeUnits candidate).length ≠ handleLen then .error (.uri .handleMalformed)
  else
    match base64Decode candidate with
    | none => .error (.uri .handleMalformed)
    | some decoded =>
      if decoded.length ≠ handleBytes then .error (.uri .handleMalformed) else .ok candidate

structure PairingInput where
  relayOrigin : RelayOrigin
  handle : Text
  phrase : Text
deriving DecidableEq

def assemblePairingInput (dart : Dart) (relayOriginText handleText phraseText : Text)
    (effWords : List Text) : Except Cause PairingInput := do
  let relayOrigin ← parseRelayOrigin dart relayOriginText
  let handle ← validateHandle handleText
  let phrase ← validatePhrase dart phraseText effWords
  return { relayOrigin, handle, phrase }

/-- The checks after the query has been read. -/
def validate (dart : Dart) (effWords : List Text) (fields : QueryFields) :
    Except Cause PairingInput :=
  if fields.version ≠ some ['1'] then .error (.uri .version)
  else
    match fields.relayOrigin, fields.handle, fields.phrase with
    | some relayOriginText, some handleText, some phraseText =>
      assemblePairingInput dart relayOriginText handleText phraseText effWords
    | _, _, _ => .error (.uri .fieldMissing)

def parsePairingUri (dart : Dart) (uri : Text) (effWords : List Text) :
    Except Cause PairingInput :=
  if (utf8 uri).length > pairingUriMaxLen then .error (.uri .tooLong)
  else
    match stripPrefix (pairingUriScheme ++ "://".toList) uri with
    | none => .error (.uri .scheme)
    | some rest =>
      match splitOnce ['?'] rest with
      | none => .error (.uri .fieldMissing)
      | some (path, query) =>
        if path ≠ "pair".toList then .error (.uri .path)
        else (parseQuery query).bind (validate dart effWords)

end HerdrMobile.App.PairingText
