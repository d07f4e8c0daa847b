import HerdrMobile.Proto.Codes

/-!
# The frame codec of the Device

The mirror of the codec of the Host, in the shape of its own source. The zlib of
`dart:io` is a parameter. Instants are microseconds, the resolution of `DateTime`.
-/
namespace HerdrMobile.Frame.DartCodec

open HerdrMobile.Proto.Codes

set_option autoImplicit false

def maxUncompressedLen : Nat := 1048576

def maxCompressedRecordLen : Nat := 1049641

def noisePlaintextCeiling : Nat := 65535 - 16

def fragmentHeaderLen : Nat := 2

def maxChunkLen : Nat := noisePlaintextCeiling - fragmentHeaderLen

def maxFragCount : Int := 40

def interFragmentTimeout : Int := 10 * 1000000

inductive FrameCodecError where
  | envelopeTooLarge
  | frameCodecProtocolError (reason : String)
  deriving DecidableEq

/-- An `Err` with its message and its cause. -/
structure Err where
  message : String
  cause : FrameCodecError
  deriving DecidableEq

/-- The zlib of the Device: `convert` of an encoder, and a chunked conversion whose
`add` and `close` pass blocks to the sink or throw a `FormatException`. -/
structure ZLib (D : Type) where
  convert : Bytes → Bytes
  start : D
  add : D → Bytes → Option (List Bytes × D)
  close : D → Option (List Bytes)

/-- The `sublist` of each turn of a loop whose `offset` advances by `step`. -/
def sublists (step : Nat) (l : Bytes) (offset : Nat) : List Bytes :=
  if _h : offset < l.length ∧ 0 < step then
    let stop := if offset + step < l.length then offset + step else l.length
    (l.drop offset).take (stop - offset) :: sublists step l (offset + step)
  else []
termination_by l.length - offset
decreasing_by omega

structure BoundedByteSink where
  maxBytes : Nat
  builder : Bytes
  exceeded : Bool

def BoundedByteSink.add (sink : BoundedByteSink) (chunk : Bytes) : BoundedByteSink :=
  if sink.exceeded then sink
  else
    let builder := sink.builder ++ chunk
    { sink with builder := builder, exceeded := decide (sink.maxBytes < builder.length) }

def tooBig : Err :=
  ⟨"decompress a compression record", .frameCodecProtocolError
    "decompressed output exceeds the 1 MiB cap (R-11-234, decompression-bomb defence)"⟩

def corrupt : Err :=
  ⟨"decompress a compression record",
    .frameCodecProtocolError "zlib decompression failed (R-11-234)"⟩

/-- The loop of `_boundedZlibDecompress` over the pieces of the body. -/
def addAll {D : Type} (z : ZLib D) : D → BoundedByteSink → List Bytes →
    Except Err (D × BoundedByteSink)
  | d, sink, [] => .ok (d, sink)
  | d, sink, piece :: rest =>
    match z.add d piece with
    | none => .error corrupt
    | some (blocks, d) =>
      let sink := blocks.foldl BoundedByteSink.add sink
      if sink.exceeded then .error tooBig else addAll z d sink rest

def inputChunkSize : Nat := 256

def boundedZlibDecompress {D : Type} (z : ZLib D) (body : Bytes) : Except Err Bytes :=
  match addAll z z.start ⟨maxUncompressedLen, [], false⟩ (sublists inputChunkSize body 0) with
  | .error err => .error err
  | .ok (d, sink) =>
    match z.close d with
    | none => .error corrupt
    | some blocks =>
      let sink := blocks.foldl BoundedByteSink.add sink
      if sink.exceeded then .error tooBig else .ok sink.builder

/-- `setUint32` in big-endian order. -/
def setUint32 (n : Nat) : Bytes :=
  [.ofNat (n / 16777216), .ofNat (n / 65536), .ofNat (n / 256), .ofNat n]

def getUint32 (a b c d : UInt8) : Nat :=
  a.toNat * 16777216 + b.toNat * 65536 + c.toNat * 256 + d.toNat

def buildRecord {D : Type} (z : ZLib D) (envelopeBytes : Bytes) : Except Err Bytes :=
  if maxUncompressedLen < envelopeBytes.length then
    .error ⟨"build a compression record", .envelopeTooLarge⟩
  else
    let compressed := z.convert envelopeBytes
    let (codec, body) : UInt8 × Bytes :=
      if compressed.length < envelopeBytes.length then (1, compressed) else (0, envelopeBytes)
    .ok (codec :: setUint32 envelopeBytes.length ++ body)

def decodeRecord {D : Type} (z : ZLib D) (record : Bytes) : Except Err Bytes :=
  let err (reason : String) : Err := ⟨"decode a compression record", .frameCodecProtocolError reason⟩
  match record with
  | codec :: a :: b :: c :: d :: body =>
    let uncompressedLen := getUint32 a b c d
    if maxUncompressedLen < uncompressedLen then
      .error (err "declared uncompressed_len exceeds the 1 MiB cap (R-11-234)")
    else if codec = 0 then
      if body.length ≠ uncompressedLen then
        .error (err "codec 0's uncompressed_len does not match its body length (R-11-231)")
      else .ok body
    else if codec = 1 then boundedZlibDecompress z body
    else .error (err "unrecognised codec byte (R-11-231)")
  | _ => .error (err "compression record shorter than its 5-byte header (R-11-231)")

def splitIntoFragments (record : Bytes) : List Bytes :=
  let chunks := sublists maxChunkLen record 0
  chunks.mapIdx fun index chunk => .ofNat index :: .ofNat chunks.length :: chunk

structure PartialRecord where
  fragCount : Int
  nextIndex : Int
  buffer : Bytes
  lastFragmentAt : Int

structure Reassembler where
  partialRecord : Option PartialRecord

namespace Reassembler

def new : Reassembler := ⟨none⟩

def err (reason : String) : Except Err (Option Bytes) :=
  .error ⟨"reassemble a fragmented frame", .frameCodecProtocolError reason⟩

def expired (r : Reassembler) (currentTime : Int) : Bool :=
  r.partialRecord.any fun p => decide (interFragmentTimeout < currentTime - p.lastFragmentAt)

/-- The branch of a fragment that starts a record. -/
def acceptFirst {D : Type} (z : ZLib D) (fragIndex fragCount : Int) (chunk : Bytes)
    (currentTime : Int) : Except Err (Option Bytes) × Reassembler :=
  if fragIndex ≠ 0 then
    (err "the first fragment of a record must be frag_index 0 (R-11-237)", ⟨none⟩)
  else if fragCount = 0 ∨ maxFragCount < fragCount then
    (err "frag_count is zero or exceeds the maximum of 40 (R-11-236)", ⟨none⟩)
  else if maxCompressedRecordLen < chunk.length then
    (err "running fragment byte total exceeds the compression-record cap (R-11-236)", ⟨none⟩)
  else if fragCount = 1 then ((decodeRecord z chunk).map some, ⟨none⟩)
  else (.ok none, ⟨some ⟨fragCount, 1, chunk, currentTime⟩⟩)

/-- The branch of a fragment that continues the record `existing`. -/
def acceptNext {D : Type} (z : ZLib D) (existing : PartialRecord) (fragIndex fragCount : Int)
    (chunk : Bytes) (currentTime : Int) : Except Err (Option Bytes) × Reassembler :=
  if fragCount ≠ existing.fragCount then
    (err "frag_count changed within one record (R-11-237)", ⟨none⟩)
  else if fragIndex ≠ existing.nextIndex then
    (err "out-of-order, repeated, or skipped frag_index (R-11-237)", ⟨none⟩)
  else
    let buffer := existing.buffer ++ chunk
    if maxCompressedRecordLen < buffer.length then
      (err "running fragment byte total exceeds the compression-record cap (R-11-236)", ⟨none⟩)
    else if fragIndex = fragCount - 1 then ((decodeRecord z buffer).map some, ⟨none⟩)
    else
      (.ok none, ⟨some { existing with
        nextIndex := existing.nextIndex + 1, buffer := buffer, lastFragmentAt := currentTime }⟩)

def acceptFragment {D : Type} (z : ZLib D) (r : Reassembler) (plaintext : Bytes)
    (currentTime : Int) : Except Err (Option Bytes) × Reassembler :=
  if r.expired currentTime then
    (err "no fragment arrived within 10 seconds of the previous one (R-11-238)", ⟨none⟩)
  else
    match plaintext with
    | fragIndex :: fragCount :: chunk =>
      match r.partialRecord with
      | none => acceptFirst z fragIndex.toNat fragCount.toNat chunk currentTime
      | some existing => acceptNext z existing fragIndex.toNat fragCount.toNat chunk currentTime
    | _ => (err "fragment shorter than its 2-byte header (R-11-235)", ⟨none⟩)

end Reassembler

end HerdrMobile.Frame.DartCodec
