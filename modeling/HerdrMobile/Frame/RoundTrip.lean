import HerdrMobile.Frame.Codec

/-!
# What is sent is what arrives

An envelope becomes one record, the record its chunks, a chunk one fragment. The
reassembler undoes this one fragment at a time: the lemma about the fragments
that are still to come is proved by induction on their chunks.
-/
namespace HerdrMobile.Frame.RoundTrip

open HerdrMobile.Lib.Chunks HerdrMobile.Proto.Codes HerdrMobile.Frame.Codec

set_option autoImplicit false

variable {T : Type} {z : Flate} {noise : Noise T} {envelope record body : Bytes}

/-- Decompression inverts compression: the reads of a compressed buffer give it back
and end without an error. -/
structure Inverse (z : Flate) : Prop where
  flatten : ∀ data, (z.reads (z.compress data)).1.flatten = data
  ended : ∀ data, (z.reads (z.compress data)).2 = true

/-- The peers' transports are in step: what one encrypts, the other decrypts, and
they stay in step. `inStep` relates the two ends. -/
structure Lossless (noise : Noise T) (inStep : T → T → Prop) : Prop where
  passes : ∀ s r plaintext, inStep s r → plaintext.length ≤ noisePlaintextCeiling →
    ∃ ciphertext s' r', noise.encrypt s plaintext = some (ciphertext, s') ∧
      noise.decrypt r ciphertext = some (plaintext, r') ∧ inStep s' r'

theorem fromBeBytes_toBeBytes (n : Nat) (hn : n < 4294967296) :
    fromBeBytes (.ofNat (n / 16777216)) (.ofNat (n / 65536)) (.ofNat (n / 256)) (.ofNat n) = n := by
  unfold fromBeBytes
  simp only [UInt8.toNat_ofNat']
  omega

theorem readBounded_ok (out : Bytes) (blocks : List Bytes)
    (h : (out ++ blocks.flatten).length ≤ maxUncompressedLen) :
    readBounded out blocks true = .ok (out ++ blocks.flatten) := by
  induction blocks generalizing out with
  | nil => simp [readBounded]
  | cons block blocks ih =>
    have hassoc : out ++ (block :: blocks).flatten = (out ++ block) ++ blocks.flatten := by simp
    have hle : (out ++ block).length ≤ maxUncompressedLen := by
      rw [hassoc] at h
      rw [List.length_append] at h
      omega
    rw [hassoc] at h ⊢
    simp only [readBounded]
    rw [if_neg (Nat.not_lt.mpr hle)]
    exact ih (out ++ block) h

theorem decode_header (codec : UInt8) (n : Nat) (body : Bytes) (hn : n ≤ maxUncompressedLen) :
    decodeRecord z (codec :: toBeBytes n ++ body) =
      if codec = 0 then
        if body.length ≠ n then .error (.protocolError
          "codec 0's uncompressed_len does not match its body length (R-11-231)")
        else .ok body
      else if codec = 1 then boundedZlibDecompress z body
      else .error (.protocolError "unrecognised codec byte (R-11-231)") := by
  have hlen : fromBeBytes (.ofNat (n / 16777216)) (.ofNat (n / 65536)) (.ofNat (n / 256))
      (.ofNat n) = n := by
    apply fromBeBytes_toBeBytes
    unfold maxUncompressedLen at hn
    omega
  have hcap : ¬maxUncompressedLen < n := by omega
  unfold toBeBytes
  simp only [List.cons_append, List.nil_append, decodeRecord, hlen, if_neg hcap]

/-- A record is its header and a body that is never longer than the envelope, and it
decodes to the envelope. -/
theorem buildRecord_spec (hz : Inverse z) (hle : envelope.length ≤ maxUncompressedLen) :
    ∃ record, buildRecord z envelope = .ok record ∧ 5 ≤ record.length ∧
      record.length ≤ 5 + envelope.length ∧ decodeRecord z record = .ok envelope := by
  unfold buildRecord
  rw [if_neg (Nat.not_lt.mpr hle)]
  by_cases hc : (z.compress envelope).length < envelope.length
  · simp only [if_pos hc]
    refine ⟨_, rfl, ?_, ?_, ?_⟩
    · simp [toBeBytes]
    · simp [toBeBytes]
      omega
    · rw [decode_header 1 envelope.length _ hle]
      have hread := readBounded_ok [] (z.reads (z.compress envelope)).1 (by
        rw [hz.flatten]
        exact hle)
      rw [hz.flatten] at hread
      simp only [boundedZlibDecompress, hz.ended, hread]
      rfl
  · simp only [if_neg hc]
    refine ⟨_, rfl, ?_, ?_, ?_⟩
    · simp [toBeBytes]
    · simp [toBeBytes]
      omega
    · rw [decode_header 0 envelope.length _ hle]
      simp

theorem maxChunkLen_pos : 0 < maxChunkLen := by decide

/-- Between 1 and 17 fragments, each small enough for one Noise message. -/
theorem splitIntoFragments_bounds (hlo : 5 ≤ record.length) (hhi : record.length ≤ 1048581) :
    1 ≤ (splitIntoFragments record).length ∧ (splitIntoFragments record).length ≤ 17 ∧
      ∀ f ∈ splitIntoFragments record, f.length ≤ noisePlaintextCeiling := by
  have hlen : (splitIntoFragments record).length = (record.length + maxChunkLen - 1) / maxChunkLen := by
    unfold splitIntoFragments
    rw [List.length_mapIdx, length_chunks maxChunkLen_pos]
  have hchunk : maxChunkLen = 65517 := by decide
  refine ⟨?_, ?_, ?_⟩
  · rw [hlen, hchunk]
    omega
  · rw [hlen, hchunk]
    omega
  · intro f hf
    unfold splitIntoFragments at hf
    obtain ⟨i, hi, rfl⟩ := List.mem_mapIdx.mp hf
    have hc := (mem_chunks maxChunkLen_pos record _ (List.getElem_mem hi)).2
    have hceil : noisePlaintextCeiling = maxChunkLen + 2 := by decide
    simp only [fragment, List.length_cons]
    omega

/-- The fragments of the chunks from index `i` on. -/
def fragmentsFrom (fragCount : UInt8) (i : Nat) : List Bytes → List Bytes
  | [] => []
  | chunk :: rest => fragment fragCount i chunk :: fragmentsFrom fragCount (i + 1) rest

theorem mapIdx_fragment (fragCount : UInt8) (i : Nat) (cs : List Bytes) :
    cs.mapIdx (fun j => fragment fragCount (i + j)) = fragmentsFrom fragCount i cs := by
  induction cs generalizing i with
  | nil => rfl
  | cons c cs ih =>
    rw [List.mapIdx_cons, fragmentsFrom, ← ih (i + 1)]
    congr 1
    apply congrArg (List.mapIdx · cs)
    funext j
    rw [Nat.add_assoc, Nat.add_comm 1 j]

theorem splitIntoFragments_eq (record : Bytes) : splitIntoFragments record =
    fragmentsFrom (.ofNat (chunks maxChunkLen record).length) 0 (chunks maxChunkLen record) := by
  rw [← mapIdx_fragment]
  unfold splitIntoFragments
  simp only [Nat.zero_add]

/-- One reassembler takes plaintext fragments, each at its instant. -/
def acceptAll (z : Flate) : Reassembler → List (Bytes × Nat) →
    List (Except FrameCodecError (Option Bytes)) × Reassembler
  | r, [] => ([], r)
  | r, (plaintext, now) :: rest =>
    let (res, r) := r.acceptFragment z plaintext now
    let (out, r) := acceptAll z r rest
    (res :: out, r)

/-- No two consecutive instants are more than the timeout apart. -/
def Paced : List Nat → Prop
  | a :: b :: rest => b - a ≤ interFragmentTimeout ∧ Paced (b :: rest)
  | _ => True

/-- Nothing comes out before the last of `k` fragments, and then `res` does. -/
def onLast (k : Nat) (res : Except FrameCodecError (Option Bytes)) :
    List (Except FrameCodecError (Option Bytes)) :=
  List.replicate (k - 1) (.ok none) ++ [res]

theorem not_expired {p : PartialRecord} {now : Nat}
    (h : now - p.lastFragmentAt ≤ interFragmentTimeout) :
    Reassembler.expired ⟨some p⟩ now = false := by
  simp [Reassembler.expired, h]

theorem next_is_last (p : PartialRecord) :
    p.nextIndex = p.fragCount - 1 ↔ p.nextIndex.toNat + 1 = p.fragCount.toNat := by
  have hlt := UInt8.lt_iff_toNat_lt.mp p.unfinished
  have hone : (1 : UInt8).toNat = 1 := rfl
  have hsub : (p.fragCount - 1).toNat = p.fragCount.toNat - 1 :=
    UInt8.toNat_sub_of_le _ _ (UInt8.le_iff_toNat_le.mpr (by omega))
  rw [← UInt8.toNat_inj, hsub]
  omega

/-- A fragment in its place and in time goes to the record that is held. -/
theorem acceptFragment_in_place {p : PartialRecord} {chunk : Bytes} {now : Nat}
    (hnow : now - p.lastFragmentAt ≤ interFragmentTimeout) :
    Reassembler.acceptFragment z ⟨some p⟩ (fragment p.fragCount p.nextIndex.toNat chunk) now =
      Reassembler.acceptNext z p p.nextIndex p.fragCount chunk now := by
  have hindex : UInt8.ofNat p.nextIndex.toNat = p.nextIndex := UInt8.ofNat_toNat
  unfold Reassembler.acceptFragment
  rw [not_expired hnow]
  simp only [fragment, hindex, Bool.false_eq_true, if_false]

/-- One that is not the last is added to the record. -/
theorem acceptFragment_more {p : PartialRecord} {chunk : Bytes} {now : Nat}
    (hnow : now - p.lastFragmentAt ≤ interFragmentTimeout)
    (hlen : (p.buffer ++ chunk).length ≤ maxCompressedRecordLen)
    (hmore : p.nextIndex.toNat + 1 < p.fragCount.toNat) :
    ∃ p' : PartialRecord, Reassembler.acceptFragment z ⟨some p⟩
        (fragment p.fragCount p.nextIndex.toNat chunk) now = (.ok none, ⟨some p'⟩) ∧
      p'.fragCount = p.fragCount ∧ p'.nextIndex.toNat = p.nextIndex.toNat + 1 ∧
      p'.buffer = p.buffer ++ chunk ∧ p'.lastFragmentAt = now := by
  have hlast : p.nextIndex ≠ p.fragCount - 1 :=
    fun heq => Nat.ne_of_lt hmore ((next_is_last p).mp heq)
  have hadd : (p.nextIndex + 1).toNat = p.nextIndex.toNat + 1 := by
    have hlt := p.fragCount.toNat_lt
    have hone : (1 : UInt8).toNat = 1 := rfl
    rw [UInt8.toNat_add]
    omega
  rw [acceptFragment_in_place hnow]
  unfold Reassembler.acceptNext
  rw [dif_neg (by simp), dif_neg (by simp)]
  simp only [dif_neg (Nat.not_lt.mpr hlen), dif_neg hlast]
  exact ⟨_, rfl, rfl, hadd, rfl, rfl⟩

/-- The last one completes it. -/
theorem acceptFragment_last {p : PartialRecord} {chunk : Bytes} {now : Nat}
    (hnow : now - p.lastFragmentAt ≤ interFragmentTimeout)
    (hlen : (p.buffer ++ chunk).length ≤ maxCompressedRecordLen)
    (hlast : p.nextIndex.toNat + 1 = p.fragCount.toNat) :
    Reassembler.acceptFragment z ⟨some p⟩ (fragment p.fragCount p.nextIndex.toNat chunk) now =
      ((decodeRecord z (p.buffer ++ chunk)).map some, Reassembler.new) := by
  rw [acceptFragment_in_place hnow]
  unfold Reassembler.acceptNext
  rw [dif_neg (by simp), dif_neg (by simp)]
  simp only [dif_neg (Nat.not_lt.mpr hlen), dif_pos ((next_is_last p).mpr hlast)]
  rfl

/-- The fragments that are still to come complete the record. -/
theorem acceptAll_rest (cs : List Bytes) (hne : cs ≠ []) (p : PartialRecord) (times : List Nat)
    (htimes : times.length = cs.length) (hpaced : Paced (p.lastFragmentAt :: times))
    (hcount : p.nextIndex.toNat + cs.length = p.fragCount.toNat)
    (hlen : (p.buffer ++ cs.flatten).length ≤ maxCompressedRecordLen) :
    acceptAll z ⟨some p⟩ ((fragmentsFrom p.fragCount p.nextIndex.toNat cs).zip times) =
      (onLast cs.length ((decodeRecord z (p.buffer ++ cs.flatten)).map some), Reassembler.new) := by
  induction cs generalizing p times with
  | nil => exact absurd rfl hne
  | cons c cs ih =>
    cases times with
    | nil => simp at htimes
    | cons now times =>
      have hnow : now - p.lastFragmentAt ≤ interFragmentTimeout := hpaced.1
      have hflat : p.buffer ++ (c :: cs).flatten = (p.buffer ++ c) ++ cs.flatten := by simp
      rw [hflat] at hlen ⊢
      simp only [List.length_cons, Nat.add_right_cancel_iff] at htimes hcount
      simp only [fragmentsFrom, List.zip_cons_cons, acceptAll]
      have hc : (p.buffer ++ c).length ≤ maxCompressedRecordLen := by
        rw [List.length_append] at hlen
        omega
      by_cases hcs : cs = []
      · subst hcs
        have hlast : p.nextIndex.toNat + 1 = p.fragCount.toNat := by simpa using hcount
        rw [acceptFragment_last hnow hc hlast]
        simp [fragmentsFrom, acceptAll, onLast]
      · have hpos : 0 < cs.length := List.length_pos_iff.mpr hcs
        obtain ⟨p', hacc, hfc, hni, hbuf, hlast⟩ :=
          acceptFragment_more (z := z) hnow hc (by omega)
        have hrest := ih hcs p' times htimes (by rw [hlast]; exact hpaced.2)
          (by rw [hni, hfc]; omega) (by rw [hbuf]; exact hlen)
        rw [hacc]
        rw [hfc, hni, hbuf] at hrest
        simp only [hrest]
        obtain ⟨k, hk⟩ : ∃ k, cs.length = k + 1 := ⟨cs.length - 1, by omega⟩
        simp [onLast, hk, List.replicate_succ]

theorem acceptFragment_only {fragCount : UInt8} {chunk : Bytes} {now : Nat}
    (hcount : fragCount.toNat = 1) (hlen : chunk.length ≤ maxCompressedRecordLen) :
    Reassembler.acceptFragment z Reassembler.new (fragment fragCount 0 chunk) now =
      ((decodeRecord z chunk).map some, Reassembler.new) := by
  have hone : fragCount = 1 := UInt8.toNat_inj.mp hcount
  subst hone
  change Reassembler.acceptFirst z 0 1 chunk now = _
  unfold Reassembler.acceptFirst
  rw [if_neg (by simp), dif_neg (by decide), dif_neg (Nat.not_lt.mpr hlen), dif_pos rfl]
  rfl

theorem acceptFragment_first {fragCount : UInt8} {chunk : Bytes} (z : Flate) (now : Nat)
    (hlo : 1 < fragCount.toNat) (hhi : fragCount.toNat ≤ 40)
    (hlen : chunk.length ≤ maxCompressedRecordLen) :
    ∃ p : PartialRecord, Reassembler.acceptFragment z Reassembler.new
        (fragment fragCount 0 chunk) now = (.ok none, ⟨some p⟩) ∧
      p.fragCount = fragCount ∧ p.nextIndex.toNat = 1 ∧ p.buffer = chunk ∧
      p.lastFragmentAt = now := by
  have hne0 : fragCount ≠ 0 := by
    rintro rfl
    exact absurd hlo (by decide)
  have hne1 : fragCount ≠ 1 := by
    rintro rfl
    exact absurd hlo (by decide)
  have hcount : ¬(fragCount = 0 ∨ maxFragCount < fragCount) := by
    rintro (h | h)
    · exact hne0 h
    · have hmax : maxFragCount.toNat = 40 := rfl
      rw [UInt8.lt_iff_toNat_lt, hmax] at h
      omega
  change ∃ p, Reassembler.acceptFirst z 0 fragCount chunk now = _ ∧ _
  unfold Reassembler.acceptFirst
  rw [if_neg (by simp), dif_neg hcount, dif_neg (Nat.not_lt.mpr hlen), dif_neg hne1]
  exact ⟨_, rfl, rfl, rfl, rfl, rfl⟩

/-- The fragments of a record, each in time, give what the record decodes to, at the
last of them, and leave the reassembler idle. -/
theorem acceptAll_record (hlo : 0 < record.length) (hhi : record.length ≤ maxCompressedRecordLen)
    (times : List Nat) (htimes : times.length = (splitIntoFragments record).length)
    (hpaced : Paced times) :
    acceptAll z Reassembler.new ((splitIntoFragments record).zip times) =
      (onLast (splitIntoFragments record).length ((decodeRecord z record).map some),
        Reassembler.new) := by
  have hsplit : (splitIntoFragments record).length = (chunks maxChunkLen record).length :=
    List.length_mapIdx
  have hcl := length_chunks maxChunkLen_pos record
  have hchunk : maxChunkLen = 65517 := by decide
  have hflat := chunks_flatten maxChunkLen_pos record
  rw [hsplit] at htimes ⊢
  rw [splitIntoFragments_eq]
  generalize chunks maxChunkLen record = cs at *
  rw [hchunk] at hcl
  unfold maxCompressedRecordLen at hhi
  have hcount : (UInt8.ofNat cs.length).toNat = cs.length := by
    rw [UInt8.toNat_ofNat']
    omega
  cases cs with
  | nil =>
    rw [← hflat] at hlo
    exact absurd hlo (Nat.lt_irrefl 0)
  | cons c cs =>
    cases times with
    | nil => simp at htimes
    | cons now times =>
      rw [List.flatten_cons] at hflat
      have hc : c.length ≤ maxCompressedRecordLen := by
        unfold maxCompressedRecordLen
        rw [← hflat, List.length_append] at hhi
        omega
      simp only [fragmentsFrom, List.zip_cons_cons, acceptAll]
      by_cases hnil : cs = []
      · subst hnil
        rw [acceptFragment_only hcount hc]
        simp only [List.flatten_nil, List.append_nil] at hflat
        rw [hflat]
        rfl
      · have hpos : 0 < cs.length := List.length_pos_iff.mpr hnil
        rw [List.length_cons] at hcount hcl
        have hcount' : (UInt8.ofNat (c :: cs).length).toNat = cs.length + 1 := hcount
        obtain ⟨p, hacc, hfc, hni, hbuf, hlast⟩ :=
          acceptFragment_first z now (by rw [hcount']; omega) (by rw [hcount']; omega) hc
        rw [hacc]
        have hrest := acceptAll_rest (z := z) cs hnil p times (by simpa using htimes)
          (by rw [hlast]; exact hpaced) (by rw [hni, hfc, hcount']; omega)
          (by rw [hbuf, hflat]; exact hhi)
        rw [hfc, hni, hbuf, hflat] at hrest
        simp only [hrest]
        obtain ⟨k, hk⟩ : ∃ k, cs.length = k + 1 := ⟨cs.length - 1, by omega⟩
        simp [onLast, hk, List.replicate_succ]

/-- One reassembler behind a Noise transport takes ciphertexts, each at its instant. -/
def decodeAll (z : Flate) (noise : Noise T) : Reassembler → T → List (Bytes × Nat) →
    List (Except FrameCodecError (Option Bytes)) × Reassembler × T
  | r, t, [] => ([], r, t)
  | r, t, (ciphertext, now) :: rest =>
    let (res, r, t) := decodeFragment z noise r t ciphertext now
    let (out, r, t) := decodeAll z noise r t rest
    (res :: out, r, t)

/-- An envelope and the instants at which its fragments arrive. -/
structure Transfer where
  envelope : Bytes
  arrivals : List Nat

/-- Every envelope is encoded, and its ciphertexts go to the one reassembler of the
receiver. For each envelope: what came out at each fragment, and the reassembler
after the last. -/
def transferAll (z : Flate) (noise : Noise T) : T → T → Reassembler → List Transfer →
    Except FrameCodecError (List (List (Except FrameCodecError (Option Bytes)) × Reassembler))
  | _, _, _, [] => .ok []
  | sender, receiver, r, f :: rest =>
    match encodeFrame z noise sender f.envelope with
    | .error err => .error err
    | .ok (ciphertexts, sender) =>
      let (out, r, receiver) := decodeAll z noise r receiver (ciphertexts.zip f.arrivals)
      (transferAll z noise sender receiver r rest).map ((out, r) :: ·)

theorem encryptAll_passes {inStep : T → T → Prop} (hn : Lossless noise inStep)
    (fragments : List Bytes) (hf : ∀ f ∈ fragments, f.length ≤ noisePlaintextCeiling)
    (sender receiver : T) (h : inStep sender receiver) :
    ∃ ciphertexts sender', encryptAll noise sender fragments = .ok (ciphertexts, sender') ∧
      ∀ (r : Reassembler) (times : List Nat), times.length = fragments.length →
        ∃ receiver', inStep sender' receiver' ∧
          decodeAll z noise r receiver (ciphertexts.zip times) =
            ((acceptAll z r (fragments.zip times)).1, (acceptAll z r (fragments.zip times)).2,
              receiver') := by
  induction fragments generalizing sender receiver with
  | nil => exact ⟨[], sender, rfl, fun r times _ => ⟨receiver, h, rfl⟩⟩
  | cons f fragments ih =>
    obtain ⟨ciphertext, s, t, henc, hdec, hst⟩ :=
      hn.passes sender receiver f h (hf f List.mem_cons_self)
    obtain ⟨ciphertexts, s', hall, hrest⟩ :=
      ih (fun g hg => hf g (List.mem_cons_of_mem f hg)) s t hst
    refine ⟨ciphertext :: ciphertexts, s', by simp only [encryptAll, henc, hall], ?_⟩
    intro r times htimes
    cases times with
    | nil => simp at htimes
    | cons now times =>
      obtain ⟨t', hst', hout⟩ := hrest (r.acceptFragment z f now).2 times (by simpa using htimes)
      refine ⟨t', hst', ?_⟩
      simp only [List.zip_cons_cons, decodeAll, decodeFragment, hdec, acceptAll, hout]

/-- The number of fragments an envelope is sent in. -/
def fragmentCount (z : Flate) (envelope : Bytes) : Nat :=
  match buildRecord z envelope with
  | .error _ => 0
  | .ok record => (splitIntoFragments record).length

/-- The envelope fits a frame, and its fragments arrive one after the other within
the timeout. -/
structure Legal (z : Flate) (f : Transfer) : Prop where
  fits : f.envelope.length ≤ maxUncompressedLen
  arrivals : f.arrivals.length = fragmentCount z f.envelope
  paced : Paced f.arrivals

/-- How an envelope is cut: 1 to 17 fragments, each within the plaintext ceiling. -/
def WellCut (z : Flate) (envelope : Bytes) : Prop :=
  ∃ record, buildRecord z envelope = .ok record ∧
    1 ≤ (splitIntoFragments record).length ∧ (splitIntoFragments record).length ≤ 17 ∧
    ∀ f ∈ splitIntoFragments record, f.length ≤ noisePlaintextCeiling

theorem transferAll_ok {inStep : T → T → Prop} (hz : Inverse z) (hn : Lossless noise inStep)
    (frames : List Transfer) (hf : ∀ f ∈ frames, Legal z f) (sender receiver : T)
    (h : inStep sender receiver) :
    transferAll z noise sender receiver Reassembler.new frames =
      .ok (frames.map fun f =>
        (onLast (fragmentCount z f.envelope) (.ok (some f.envelope)), Reassembler.new)) := by
  induction frames generalizing sender receiver with
  | nil => rfl
  | cons f frames ih =>
    have hlegal := hf f List.mem_cons_self
    have hfits := hlegal.fits
    obtain ⟨record, hbuild, hlo, hhi, hdecode⟩ := buildRecord_spec hz hfits
    have hcount : fragmentCount z f.envelope = (splitIntoFragments record).length := by
      unfold fragmentCount
      rw [hbuild]
    unfold maxUncompressedLen at hfits
    obtain ⟨_, _, hceil⟩ := splitIntoFragments_bounds hlo (by omega)
    obtain ⟨ciphertexts, s', henc, hdec⟩ :=
      encryptAll_passes (z := z) hn (splitIntoFragments record) hceil sender receiver h
    obtain ⟨r', hst, hout⟩ := hdec Reassembler.new f.arrivals (hlegal.arrivals.trans hcount)
    have hmax : maxCompressedRecordLen = 1049641 := rfl
    rw [acceptAll_record (by omega) (by omega) f.arrivals (hlegal.arrivals.trans hcount)
      hlegal.paced, hdecode] at hout
    simp only [transferAll, encodeFrame, hbuild, henc, hout]
    rw [ih (fun g hg => hf g (List.mem_cons_of_mem f hg)) s' r' hst, List.map_cons, hcount]
    rfl

/-- Every list of envelopes comes out as it was sent, one envelope at each last
fragment, with the reassembler idle after it, and no envelope is cut into more than
17 fragments or one above the plaintext ceiling. -/
theorem encode_decode_frames {inStep : T → T → Prop} (hz : Inverse z) (hn : Lossless noise inStep)
    (frames : List Transfer) (hf : ∀ f ∈ frames, Legal z f) (sender receiver : T)
    (h : inStep sender receiver) :
    transferAll z noise sender receiver Reassembler.new frames =
        .ok (frames.map fun f =>
          (onLast (fragmentCount z f.envelope) (.ok (some f.envelope)), Reassembler.new)) ∧
      ∀ f ∈ frames, WellCut z f.envelope := by
  refine ⟨transferAll_ok hz hn frames hf sender receiver h, fun f hmem => ?_⟩
  have hfits := (hf f hmem).fits
  obtain ⟨record, hbuild, hlo, hhi, _⟩ := buildRecord_spec hz hfits
  unfold maxUncompressedLen at hfits
  exact ⟨record, hbuild, splitIntoFragments_bounds hlo (by omega)⟩

/-- Forty letters `a` and their zlib stream. -/
def letters : Bytes := List.replicate 40 97

def lettersZlib : Bytes :=
  [0x78, 0x9c, 0x4b, 0x4c, 0x24, 0x0e, 0x00, 0x00, 0x36, 0xeb, 0x0f, 0x29]

def sampleInflate (body : Bytes) : Option Bytes :=
  if body = lettersZlib then some letters
  else
    match body with
    | 0 :: out => some out
    | _ => none

def sampleCompress (data : Bytes) : Bytes := if data = letters then lettersZlib else 0 :: data

theorem sampleInflate_compress (data : Bytes) : sampleInflate (sampleCompress data) = some data := by
  unfold sampleCompress
  by_cases h : data = letters
  · rw [if_pos h, h]
    rfl
  · rw [if_neg h]
    unfold sampleInflate
    rw [if_neg (by simp [lettersZlib])]
    rfl

def sampleFlate : Flate where
  compress := sampleCompress
  reads := fun body =>
    match sampleInflate body with
    | some out => ([out], true)
    | none => ([], false)

theorem sampleFlate_inverse : Inverse sampleFlate where
  flatten := by
    intro data
    simp [sampleFlate, sampleInflate_compress]
  ended := by
    intro data
    simp [sampleFlate, sampleInflate_compress]

/-- A transport that counts its messages and appends a tag of 16 bytes. -/
def sampleNoise : Noise Nat where
  encrypt := fun n plaintext =>
    if plaintext.length ≤ noisePlaintextCeiling then
      some (plaintext ++ List.replicate 16 (.ofNat n), n + 1)
    else none
  decrypt := fun n ciphertext =>
    let plaintext := ciphertext.take (ciphertext.length - 16)
    if ciphertext = plaintext ++ List.replicate 16 (.ofNat n) then some (plaintext, n + 1) else none

theorem sampleNoise_lossless : Lossless sampleNoise (· = ·) where
  passes := by
    rintro n _ plaintext rfl hlen
    refine ⟨_, n + 1, n + 1, if_pos hlen, ?_, rfl⟩
    simp [sampleNoise]

/-- Too long for one fragment, and no shorter when it is compressed. -/
def sevens : Bytes := List.replicate 70000 7

theorem length_sevens : sevens.length = 70000 := by
  rw [sevens, List.length_replicate]

theorem buildRecord_stored {z : Flate} {data : Bytes} (hfits : ¬maxUncompressedLen < data.length)
    (hlong : ¬(z.compress data).length < data.length) :
    buildRecord z data = .ok (0 :: toBeBytes data.length ++ data) := by
  simp only [buildRecord, if_neg hfits, if_neg hlong]

theorem fragmentCount_of {z : Flate} {data record : Bytes} (h : buildRecord z data = .ok record) :
    fragmentCount z data = (record.length + maxChunkLen - 1) / maxChunkLen := by
  rw [fragmentCount, h]
  exact (List.length_mapIdx ..).trans (length_chunks maxChunkLen_pos record)

theorem buildRecord_sevens :
    buildRecord sampleFlate sevens = .ok (0 :: toBeBytes sevens.length ++ sevens) := by
  have hne : sevens ≠ letters := by
    intro heq
    have hlen := congrArg List.length heq
    rw [length_sevens, letters, List.length_replicate] at hlen
    cases hlen
  have hcompress : ¬(sampleFlate.compress sevens).length < sevens.length := by
    show ¬(sampleCompress sevens).length < sevens.length
    rw [sampleCompress, if_neg hne, List.length_cons]
    omega
  have hfits : ¬maxUncompressedLen < sevens.length := by
    rw [length_sevens]
    decide
  exact buildRecord_stored hfits hcompress

theorem fragmentCount_sevens : fragmentCount sampleFlate sevens = 2 := by
  rw [fragmentCount_of buildRecord_sevens, List.length_append, List.length_cons, length_sevens]
  decide

/-- Two envelopes, the second one in two fragments that arrive nine seconds apart. -/
theorem encode_decode_frames_letters :
    transferAll sampleFlate sampleNoise 0 0 Reassembler.new
        [⟨letters, [0]⟩, ⟨sevens, [1000000000, 10000000000]⟩] =
      .ok [([.ok (some letters)], Reassembler.new),
        ([.ok none, .ok (some sevens)], Reassembler.new)] := by
  have hlegal : ∀ f ∈ [(⟨letters, [0]⟩ : Transfer), ⟨sevens, [1000000000, 10000000000]⟩],
      Legal sampleFlate f := by
    intro f hf
    rcases List.mem_cons.mp hf with rfl | hf
    · exact ⟨by decide, by decide, trivial⟩
    · obtain rfl := List.mem_singleton.mp hf
      refine ⟨?_, fragmentCount_sevens.symm, by decide, trivial⟩
      show sevens.length ≤ maxUncompressedLen
      rw [length_sevens]
      decide
  have hrun := (encode_decode_frames sampleFlate_inverse sampleNoise_lossless _ hlegal 0 0 rfl).1
  have hletters : fragmentCount sampleFlate letters = 1 := by decide
  simp only [List.map_cons, List.map_nil, hletters, fragmentCount_sevens] at hrun
  exact hrun

end HerdrMobile.Frame.RoundTrip
