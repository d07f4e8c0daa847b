import HerdrMobile.Lib.Record
import HerdrMobile.Proto.PairingUri

/-!
# The static key pair of a Host

`keys.rs` of the bridge: the key pair is kept in the one entry that the platform
credential store has for it, or in a file beside the configuration. What the two hold is
the state; how the credential store, the file system and the key generator behave is
given with each call. The base64 engine and `serde_json` are parameters.
-/

namespace HerdrMobile.Host.HostKeys

open HerdrMobile.Lib HerdrMobile.Proto
open Strings (Text)

set_option autoImplicit false

/-- One half of a Curve25519 key pair. -/
structure StaticKey where
  bytes : List UInt8
  size : bytes.length = 32
deriving DecidableEq

structure HostKeypair where
  privateKey : StaticKey
  publicKey : StaticKey
deriving DecidableEq

inductive KeysError (ε : Type) where
  | generate
  | fallbackLength
  | fallbackDecode (source : ε)
  | fallbackRead
  | fallbackParse
  | fallbackWrite
  | keyringLength

/-- The bytes as a half of a key pair. -/
def StaticKey.ofBytes (bytes : List UInt8) : Option StaticKey :=
  if size : bytes.length = 32 then some ⟨bytes, size⟩ else none

@[simp] theorem StaticKey.ofBytes_bytes (key : StaticKey) : ofBytes key.bytes = some key :=
  dif_pos key.size

/-- The `STANDARD` alphabet. -/
def standard : Base64.Alphabet Char where
  symbols := "ABCDEFGHIJKLMNOPQRSTUVWXYZabcdefghijklmnopqrstuvwxyz0123456789+/".toList
  size := by decide
  distinct := by decide

/-- The engine encodes as the RFC says, with padding, and accepts what is so encoded. -/
structure Standard {ε : Type} (E : Engine ε) : Prop where
  encode : ∀ bytes, E.encode bytes = standard.encodePadded '=' bytes
  decode : ∀ text bytes, E.decode text = .ok bytes ↔ standard.decodePadded '=' text = some bytes

theorem Standard.decode_encode {ε : Type} {E : Engine ε} (hE : Standard E) (bytes : List UInt8) :
    E.decode (E.encode bytes) = .ok bytes := by
  rw [hE.decode, hE.encode]
  exact standard.decodePadded_encodePadded '=' (by decide) bytes

def standardEngine : Engine Unit where
  encode := standard.encodePadded '='
  decode text := (standard.decodePadded '=' text).elim (.error ()) .ok

theorem standard_standardEngine : Standard standardEngine where
  encode _ := rfl
  decode text bytes := by
    show (standard.decodePadded '=' text).elim _ _ = _ ↔ _
    cases standard.decodePadded '=' text <;> simp

def keyOf (byte : UInt8) : StaticKey := ⟨List.replicate 32 byte, List.length_replicate⟩

def zerosText : Text := List.replicate 43 'A' ++ ['=']

theorem encode_zeros : standardEngine.encode (keyOf 0).bytes = zerosText := by decide

section Forms

variable {F ε : Type} {reread : F → F} (E : Engine ε)

def HostKeypair.toKeyringBytes (k : HostKeypair) : List UInt8 :=
  k.privateKey.bytes ++ k.publicKey.bytes

def split64 (bytes : List UInt8) : Option (StaticKey × StaticKey) :=
  if bytes.length ≠ 64 then none
  else
    (StaticKey.ofBytes (bytes.take 32)).bind fun privateKey =>
      (StaticKey.ofBytes (bytes.drop 32)).map (privateKey, ·)

def fromKeyringBytes (bytes : List UInt8) : Except (KeysError ε) HostKeypair :=
  match split64 bytes with
  | some (privateKey, publicKey) => .ok ⟨privateKey, publicKey⟩
  | none => .error .keyringLength

structure FallbackFile where
  privateText : Text
  publicText : Text

abbrev fallbackFile : Record reread FallbackFile where
  fields :=
    .cons "private".toList (.required .text) <|
    .cons "public".toList (.required .text) <|
    .nil
  split s := (s.privateText, s.publicText, ())
  join := fun (privateText, publicText, ()) => ⟨privateText, publicText⟩

def HostKeypair.toFallbackFile (k : HostKeypair) : FallbackFile :=
  ⟨E.encode k.privateKey.bytes, E.encode k.publicKey.bytes⟩

def fromFallbackFile (file : FallbackFile) : Except (KeysError ε) HostKeypair :=
  match E.decode file.privateText with
  | .error source => .error (.fallbackDecode source)
  | .ok privateBytes =>
    match E.decode file.publicText with
    | .error source => .error (.fallbackDecode source)
    | .ok publicBytes =>
      match StaticKey.ofBytes privateBytes, StaticKey.ofBytes publicBytes with
      | some privateKey, some publicKey => .ok ⟨privateKey, publicKey⟩
      | _, _ => .error .fallbackLength

theorem fromKeyringBytes_toKeyringBytes (k : HostKeypair) :
    (fromKeyringBytes k.toKeyringBytes : Except (KeysError ε) HostKeypair) = .ok k := by
  have hlength : k.toKeyringBytes.length = 64 := by
    rw [HostKeypair.toKeyringBytes, List.length_append, k.privateKey.size, k.publicKey.size]
  have htake : k.toKeyringBytes.take 32 = k.privateKey.bytes := List.take_left' k.privateKey.size
  have hdrop : k.toKeyringBytes.drop 32 = k.publicKey.bytes := List.drop_left' k.privateKey.size
  have hsplit : split64 k.toKeyringBytes = some (k.privateKey, k.publicKey) := by
    rw [split64, if_neg (not_not.mpr hlength), htake, hdrop, StaticKey.ofBytes_bytes,
      StaticKey.ofBytes_bytes]
    rfl
  rw [fromKeyringBytes, hsplit]

variable {E}

theorem fromFallbackFile_toFallbackFile (hE : Standard E) (k : HostKeypair) :
    fromFallbackFile E (k.toFallbackFile E) = .ok k := by
  rw [fromFallbackFile, HostKeypair.toFallbackFile]
  simp only [hE.decode_encode, StaticKey.ofBytes_bytes]

end Forms

/-- What the entry of the credential store and the fallback file hold. -/
structure Stores where
  secret : Option (List UInt8)
  file : Option (List UInt8)

/-- `get_secret` answers what the entry holds, or says that there is no entry whatever it
holds, or fails in another way. -/
inductive GetSecret where
  | answers
  | noEntry
  | fails

/-- A write that failed can leave anything behind. -/
inductive FileWrite where
  | done
  | failed (left : Option (List UInt8))

/-- What happens to one call: whether the entry resolves and takes a new secret, what the
key generator gives, whether the file can be read and written. -/
structure Call where
  entry : Bool
  getSecret : GetSecret
  setSecret : Bool
  generated : Option HostKeypair
  fileReads : Bool
  fileWrite : FileWrite

inductive SecretResult where
  | secret (bytes : List UInt8)
  | noEntry
  | other

def Call.secret (c : Call) (s : Stores) : SecretResult :=
  match c.getSecret, s.secret with
  | .answers, some bytes => .secret bytes
  | .answers, none => .noEntry
  | .noEntry, _ => .noEntry
  | .fails, _ => .other

section Operations

variable {F ε : Type} (S : Serde F) (E : Engine ε)

/-- The text of a key pair in the file. -/
def fileValue (k : HostKeypair) : Json F :=
  .obj ((fallbackFile : Record S.reread FallbackFile).written (k.toFallbackFile E))

def generate (c : Call) : Except (KeysError ε) HostKeypair :=
  match c.generated with
  | some k => .ok k
  | none => .error .generate

theorem mem_of_generate {c : Call} {k : HostKeypair}
    (h : (generate c : Except (KeysError ε) HostKeypair) = .ok k) : k ∈ c.generated := by
  rw [generate] at h
  split at h
  · next hgenerated =>
    cases h
    exact hgenerated
  · cases h

/-- The key pair of the text of a file. -/
def parseFallback (text : List UInt8) : Except (KeysError ε) HostKeypair :=
  match (S.read text).bind (fallbackFile : Record S.reread FallbackFile).codec.dec with
  | none => .error .fallbackParse
  | some file => fromFallbackFile E file

def fallbackRead (c : Call) (s : Stores) : Except (KeysError ε) (Option HostKeypair) :=
  if !c.fileReads then .error .fallbackRead
  else
    match s.file with
    | none => .ok none
    | some text => (parseFallback S E text).map some

def fallbackWrite (c : Call) (k : HostKeypair) (s : Stores) :
    Except (KeysError ε) Unit × Stores :=
  match c.fileWrite with
  | .done => (.ok (), { s with file := some (S.write (fileValue S E k)) })
  | .failed left => (.error .fallbackWrite, { s with file := left })

/-- `fallback_write(paths, &generated)?; Ok(generated)`. -/
def fallbackKeep (c : Call) (k : HostKeypair) (s : Stores) :
    Except (KeysError ε) HostKeypair × Stores :=
  match fallbackWrite S E c k s with
  | (.ok (), s') => (.ok k, s')
  | (.error e, s') => (.error e, s')

def fallbackLoadOrGenerate (c : Call) (s : Stores) : Except (KeysError ε) HostKeypair × Stores :=
  match fallbackRead S E c s with
  | .error e => (.error e, s)
  | .ok (some keypair) => (.ok keypair, s)
  | .ok none =>
    match generate c with
    | .error e => (.error e, s)
    | .ok generated => fallbackKeep S E c generated s

variable (usesOsKeyring : Bool)

def loadOrGenerate (c : Call) (s : Stores) : Except (KeysError ε) HostKeypair × Stores :=
  if !usesOsKeyring then fallbackLoadOrGenerate S E c s
  else if !c.entry then fallbackLoadOrGenerate S E c s
  else
    match c.secret s with
    | .secret bytes => (fromKeyringBytes bytes, s)
    | .noEntry =>
      match generate c with
      | .error e => (.error e, s)
      | .ok generated =>
        if c.setSecret then (.ok generated, { s with secret := some generated.toKeyringBytes })
        else fallbackKeep S E c generated s
    | .other => fallbackLoadOrGenerate S E c s

/-- Forces a new key pair (R-13-056 step 4). -/
def rotate (c : Call) (s : Stores) : Except (KeysError ε) HostKeypair × Stores :=
  match generate c with
  | .error e => (.error e, s)
  | .ok generated =>
    if usesOsKeyring && (c.entry && c.setSecret) then
      (.ok generated, { s with secret := some generated.toKeyringBytes })
    else fallbackKeep S E c generated s

variable {S E}

/-- A key pair that was written is read back. -/
theorem parseFallback_write (hE : Standard E) {k : HostKeypair}
    (hserde : S.Rereads (fileValue S E k)) :
    parseFallback S E (S.write (fileValue S E k)) = .ok k := by
  have hok : (fallbackFile : Record S.reread FallbackFile).ok (k.toFallbackFile E) :=
    Record.Total.ok _
  have hread : S.read (S.write (fileValue S E k)) =
      some ((fallbackFile : Record S.reread FallbackFile).codec.enc (k.toFallbackFile E)) := by
    rw [hserde]
    exact Json.through_obj fun kv hkv =>
      (fallbackFile.fields.kept _ hok kv hkv).mono (Nat.zero_le _)
  rw [parseFallback, hread, Option.bind_some, fallbackFile.codec.dec_enc _ hok]
  exact fromFallbackFile_toFallbackFile hE k

end Operations

end HerdrMobile.Host.HostKeys
