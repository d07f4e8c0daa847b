import HerdrMobile.Lib.Chunks
import HerdrMobile.Proto.Codes

/-!
# The frame codec of the Host

Compress then fragment on send, defragment then decompress on receive. `flate2`
and the Noise transport are parameters. Instants are nanoseconds of a monotonic
clock.
-/
namespace HerdrMobile.Frame.Codec

open HerdrMobile.Lib.Chunks HerdrMobile.Proto.Codes

set_option autoImplicit false

def maxUncompressedLen : Nat := 1048576

/-- 1 MiB, the worst case of zlib on it and the five bytes of a record's header. -/
def maxCompressedRecordLen : Nat := 1049641

def maxMessageLen : Nat := 65535

def noisePlaintextCeiling : Nat := maxMessageLen - 16

/-- `frag_index` and `frag_count`. -/
def fragmentHeaderLen : Nat := 2

def maxChunkLen : Nat := noisePlaintextCeiling - fragmentHeaderLen

def maxFragCount : UInt8 := 40

def interFragmentTimeout : Nat := 10 * 1000000000

inductive FrameCodecError where
  | envelopeTooLarge
  | protocolError (reason : String)
  deriving DecidableEq

/-- The zlib of the Host: `compress` of a whole buffer, and what the reads of a
`ZlibDecoder` over a body yield, with `false` where they end in an error. -/
structure Flate where
  compress : Bytes → Bytes
  reads : Bytes → List Bytes × Bool

/-- A Noise transport: `none` is a `NoiseError`. -/
structure Noise (T : Type) where
  encrypt : T → Bytes → Option (Bytes × T)
  decrypt : T → Bytes → Option (Bytes × T)

def toBeBytes (n : Nat) : Bytes :=
  [.ofNat (n / 16777216), .ofNat (n / 65536), .ofNat (n / 256), .ofNat n]

def fromBeBytes (a b c d : UInt8) : Nat :=
  a.toNat * 16777216 + b.toNat * 65536 + c.toNat * 256 + d.toNat

/-- The loop of `bounded_zlib_decompress` over the reads that are left. -/
def readBounded (out : Bytes) : List Bytes → Bool → Except FrameCodecError Bytes
  | [], true => .ok out
  | [], false => .error (.protocolError "zlib decompression failed (R-11-234)")
  | buf :: rest, ok =>
    let out := out ++ buf
    if maxUncompressedLen < out.length then
      .error (.protocolError
        "decompressed output exceeds the 1 MiB cap (R-11-234, decompression-bomb defence)")
    else readBounded out rest ok

def boundedZlibDecompress (z : Flate) (body : Bytes) : Except FrameCodecError Bytes :=
  readBounded [] (z.reads body).1 (z.reads body).2

def buildRecord (z : Flate) (envelopeBytes : Bytes) : Except FrameCodecError Bytes :=
  if maxUncompressedLen < envelopeBytes.length then .error .envelopeTooLarge
  else
    let compressed := z.compress envelopeBytes
    let (codec, body) : UInt8 × Bytes :=
      if compressed.length < envelopeBytes.length then (1, compressed) else (0, envelopeBytes)
    .ok (codec :: toBeBytes envelopeBytes.length ++ body)

def decodeRecord (z : Flate) (record : Bytes) : Except FrameCodecError Bytes :=
  match record with
  | codec :: a :: b :: c :: d :: body =>
    let uncompressedLen := fromBeBytes a b c d
    if maxUncompressedLen < uncompressedLen then
      .error (.protocolError "declared uncompressed_len exceeds the 1 MiB cap (R-11-234)")
    else if codec = 0 then
      if body.length ≠ uncompressedLen then
        .error (.protocolError
          "codec 0's uncompressed_len does not match its body length (R-11-231)")
      else .ok body
    else if codec = 1 then boundedZlibDecompress z body
    else .error (.protocolError "unrecognised codec byte (R-11-231)")
  | _ =>
    .error (.protocolError "compression record shorter than its 5-byte header (R-11-231)")

def fragment (fragCount : UInt8) (index : Nat) (chunk : Bytes) : Bytes :=
  .ofNat index :: fragCount :: chunk

def splitIntoFragments (record : Bytes) : List Bytes :=
  let chunks := chunks maxChunkLen record
  chunks.mapIdx (fragment (.ofNat chunks.length))

/-- One `encrypt` for each fragment, up to the first that fails. -/
def encryptAll {T : Type} (noise : Noise T) : T → List Bytes → Except FrameCodecError (List Bytes × T)
  | t, [] => .ok ([], t)
  | t, fragment :: rest =>
    match noise.encrypt t fragment with
    | none => .error (.protocolError "Noise transport error while encoding or decoding a fragment")
    | some (ciphertext, t) =>
      match encryptAll noise t rest with
      | .error err => .error err
      | .ok (ciphertexts, t) => .ok (ciphertext :: ciphertexts, t)

def encodeFrame {T : Type} (z : Flate) (noise : Noise T) (transport : T) (envelopeBytes : Bytes) :
    Except FrameCodecError (List Bytes × T) :=
  match buildRecord z envelopeBytes with
  | .error err => .error err
  | .ok record => encryptAll noise transport (splitIntoFragments record)

/-- A record of more than one fragment with at least one still to come. -/
structure PartialRecord where
  fragCount : UInt8
  nextIndex : UInt8
  buffer : Bytes
  lastFragmentAt : Nat
  counted : fragCount ≤ maxFragCount
  started : 0 < nextIndex
  unfinished : nextIndex < fragCount
  bounded : buffer.length ≤ maxCompressedRecordLen

structure Reassembler where
  partialRecord : Option PartialRecord

namespace Reassembler

def new : Reassembler := ⟨none⟩

def expired (r : Reassembler) (now : Nat) : Bool :=
  r.partialRecord.any fun p => decide (interFragmentTimeout < now - p.lastFragmentAt)

theorem first_unfinished {fragCount : UInt8} (h : fragCount ≠ 0) (h1 : fragCount ≠ 1) :
    1 < fragCount := by
  rw [UInt8.lt_iff_toNat_lt]
  have h0 : fragCount.toNat ≠ 0 := fun hz => h (UInt8.toNat_inj.mp hz)
  have h1 : fragCount.toNat ≠ 1 := fun hz => h1 (UInt8.toNat_inj.mp hz)
  have hone : (1 : UInt8).toNat = 1 := rfl
  omega

/-- The branch of a fragment that starts a record. -/
def acceptFirst (z : Flate) (fragIndex fragCount : UInt8) (chunk : Bytes) (now : Nat) :
    Except FrameCodecError (Option Bytes) × Reassembler :=
  if fragIndex ≠ 0 then
    (.error (.protocolError "the first fragment of a record must be frag_index 0 (R-11-237)"), ⟨none⟩)
  else if hc : fragCount = 0 ∨ maxFragCount < fragCount then
    (.error (.protocolError "frag_count is zero or exceeds the maximum of 40 (R-11-236)"), ⟨none⟩)
  else if hb : maxCompressedRecordLen < chunk.length then
    (.error (.protocolError
      "running fragment byte total exceeds the compression-record cap (R-11-236)"), ⟨none⟩)
  else if h1 : fragCount = 1 then ((decodeRecord z chunk).map some, ⟨none⟩)
  else
    (.ok none, ⟨some
      { fragCount := fragCount
        nextIndex := 1
        buffer := chunk
        lastFragmentAt := now
        counted := UInt8.not_lt.mp (not_or.mp hc).2
        started := by decide
        unfinished := first_unfinished (not_or.mp hc).1 h1
        bounded := Nat.not_lt.mp hb }⟩)

theorem next_unfinished {count index fragCount fragIndex : UInt8} (h : index < count)
    (hc : ¬fragCount ≠ count) (hi : ¬fragIndex ≠ index) (hl : fragIndex ≠ fragCount - 1) :
    0 < index + 1 ∧ index + 1 < count := by
  rw [not_not] at hc hi
  subst hc hi
  rw [UInt8.lt_iff_toNat_lt] at h
  have hlt := fragCount.toNat_lt
  have hone : (1 : UInt8).toNat = 1 := rfl
  have hzero : (0 : UInt8).toNat = 0 := rfl
  have hsub : (fragCount - 1).toNat = fragCount.toNat - 1 :=
    UInt8.toNat_sub_of_le _ _ (UInt8.le_iff_toNat_le.mpr (by omega))
  have hne : fragIndex.toNat ≠ fragCount.toNat - 1 :=
    fun heq => hl (UInt8.toNat_inj.mp (heq.trans hsub.symm))
  have hadd : (fragIndex + 1).toNat = fragIndex.toNat + 1 := by
    rw [UInt8.toNat_add]
    omega
  constructor
  · rw [UInt8.lt_iff_toNat_lt, hadd]
    omega
  · rw [UInt8.lt_iff_toNat_lt, hadd]
    omega

/-- The branch of a fragment that continues the record `p`. -/
def acceptNext (z : Flate) (p : PartialRecord) (fragIndex fragCount : UInt8) (chunk : Bytes)
    (now : Nat) : Except FrameCodecError (Option Bytes) × Reassembler :=
  if hc : fragCount ≠ p.fragCount then
    (.error (.protocolError "frag_count changed within one record (R-11-237)"), ⟨none⟩)
  else if hi : fragIndex ≠ p.nextIndex then
    (.error (.protocolError "out-of-order, repeated, or skipped frag_index (R-11-237)"), ⟨none⟩)
  else
    let buffer := p.buffer ++ chunk
    if hb : maxCompressedRecordLen < buffer.length then
      (.error (.protocolError
        "running fragment byte total exceeds the compression-record cap (R-11-236)"), ⟨none⟩)
    else if hl : fragIndex = fragCount - 1 then ((decodeRecord z buffer).map some, ⟨none⟩)
    else
      (.ok none, ⟨some
        { p with
          nextIndex := p.nextIndex + 1
          buffer := buffer
          lastFragmentAt := now
          started := (next_unfinished p.unfinished hc hi hl).1
          unfinished := (next_unfinished p.unfinished hc hi hl).2
          bounded := Nat.not_lt.mp hb }⟩)

def acceptFragment (z : Flate) (r : Reassembler) (plaintext : Bytes) (now : Nat) :
    Except FrameCodecError (Option Bytes) × Reassembler :=
  if r.expired now then
    (.error (.protocolError "no fragment arrived within 10 seconds of the previous one (R-11-238)"),
      ⟨none⟩)
  else
    match plaintext with
    | fragIndex :: fragCount :: chunk =>
      match r.partialRecord with
      | none => acceptFirst z fragIndex fragCount chunk now
      | some p => acceptNext z p fragIndex fragCount chunk now
    | _ => (.error (.protocolError "fragment shorter than its 2-byte header (R-11-235)"), ⟨none⟩)

end Reassembler

def decodeFragment {T : Type} (z : Flate) (noise : Noise T) (r : Reassembler) (transport : T)
    (ciphertext : Bytes) (now : Nat) :
    Except FrameCodecError (Option Bytes) × Reassembler × T :=
  match noise.decrypt transport ciphertext with
  | none => (.error (.protocolError
      "Noise transport error while encoding or decoding a fragment"), r, transport)
  | some (plaintext, t) =>
    let (res, r) := r.acceptFragment z plaintext now
    (res, r, t)

end HerdrMobile.Frame.Codec
