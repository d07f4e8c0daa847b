import HerdrMobile.Frame.DartCodec
import HerdrMobile.Frame.RoundTrip

/-!
# The two codecs agree

The reassembler of the Host and the one of the Device simulate each other: from
states that hold the same record in progress, the same fragment at the same
instant is accepted by both or refused by both, with the same bytes out and again
the same record in progress. The Host counts nanoseconds and the Device
microseconds.
-/
namespace HerdrMobile.Frame.Agreement

open HerdrMobile.Lib.Chunks HerdrMobile.Proto.Codes HerdrMobile.Frame.RoundTrip

set_option autoImplicit false

variable {D : Type} {z : Codec.Flate} {dz : DartCodec.ZLib D} {inflate : Bytes → Option Bytes}

/-- The blocks of a conversion from the state `d`: every piece is added, then it is closed. -/
def convertFrom (dz : DartCodec.ZLib D) : D → List Bytes → Option (List Bytes)
  | d, [] => dz.close d
  | d, piece :: rest =>
    match dz.add d piece with
    | none => none
    | some (blocks, d) => (convertFrom dz d rest).map (blocks ++ ·)

/-- Both zlib implementations accept the streams that `inflate` accepts, with its
output, and each compressor writes such a stream. -/
structure SameZlib (inflate : Bytes → Option Bytes) (z : Codec.Flate) (dz : DartCodec.ZLib D) :
    Prop where
  reads_some : ∀ body out, inflate body = some out →
    (z.reads body).1.flatten = out ∧ (z.reads body).2 = true
  reads_none : ∀ body, inflate body = none → (z.reads body).2 = false
  convert_some : ∀ pieces out, inflate pieces.flatten = some out →
    ∃ blocks, convertFrom dz dz.start pieces = some blocks ∧ blocks.flatten = out
  convert_none : ∀ pieces, inflate pieces.flatten = none → convertFrom dz dz.start pieces = none
  compress : ∀ data, inflate (z.compress data) = some data
  convert : ∀ data, inflate (dz.convert data) = some data

/-- The output of a stream whose output is within the cap. -/
def bounded (inflate : Bytes → Option Bytes) (body : Bytes) : Option Bytes :=
  (inflate body).filter fun out => decide (out.length ≤ Codec.maxUncompressedLen)

theorem readBounded_toOption (out : Bytes) (blocks : List Bytes) (ok : Bool)
    (h : out.length ≤ Codec.maxUncompressedLen) :
    (Codec.readBounded out blocks ok).toOption =
      if ok = true ∧ (out ++ blocks.flatten).length ≤ Codec.maxUncompressedLen then
        some (out ++ blocks.flatten) else none := by
  induction blocks generalizing out with
  | nil =>
    cases ok with
    | true => simp [Codec.readBounded, h, Except.toOption]
    | false => simp [Codec.readBounded, Except.toOption]
  | cons block blocks ih =>
    have hassoc : out ++ (block :: blocks).flatten = (out ++ block) ++ blocks.flatten := by simp
    rw [hassoc]
    simp only [Codec.readBounded]
    by_cases hlt : Codec.maxUncompressedLen < (out ++ block).length
    · rw [if_pos hlt, if_neg]
      · rfl
      · rintro ⟨_, hle⟩
        rw [List.length_append] at hle
        omega
    · rw [if_neg hlt]
      exact ih (out ++ block) (Nat.not_lt.mp hlt)

theorem host_decompress (hz : SameZlib inflate z dz) (body : Bytes) :
    (Codec.boundedZlibDecompress z body).toOption = bounded inflate body := by
  unfold Codec.boundedZlibDecompress
  rw [readBounded_toOption _ _ _ (Nat.zero_le _)]
  unfold bounded
  cases hi : inflate body with
  | none => simp [hz.reads_none body hi]
  | some out =>
    obtain ⟨hflat, hok⟩ := hz.reads_some body out hi
    rw [List.nil_append, hflat, hok]
    by_cases hle : out.length ≤ Codec.maxUncompressedLen
    · simp [Option.filter, hle]
    · simp [Option.filter, hle]

theorem sublists_eq {n : Nat} (hn : 0 < n) (l : Bytes) (offset : Nat) :
    DartCodec.sublists n l offset = chunks n (l.drop offset) := by
  by_cases h : offset < l.length
  · have hne : l.drop offset ≠ [] := by
      intro hnil
      have hlen := congrArg List.length hnil
      rw [List.length_drop, List.length_nil] at hlen
      omega
    have hlt : l.length - (offset + n) < l.length - offset := by omega
    rw [DartCodec.sublists, dif_pos ⟨h, hn⟩, chunks_cons hn hne, List.drop_drop,
      sublists_eq hn l (offset + n)]
    dsimp only
    congr 1
    by_cases hstop : offset + n < l.length
    · rw [if_pos hstop, Nat.add_sub_cancel_left]
    · rw [if_neg hstop, List.take_of_length_le (Nat.le_of_eq List.length_drop),
        List.take_of_length_le (by rw [List.length_drop]; omega)]
  · rw [DartCodec.sublists, dif_neg (fun hc => h hc.1),
      List.drop_eq_nil_of_le (Nat.not_lt.mp h)]
    rfl
termination_by l.length - offset

theorem foldl_exceeded (blocks : List Bytes) (sink : DartCodec.BoundedByteSink)
    (hs : sink.exceeded = true) : blocks.foldl DartCodec.BoundedByteSink.add sink = sink := by
  induction blocks with
  | nil => rfl
  | cons block blocks ih =>
    have hadd : sink.add block = sink := if_pos hs
    rw [List.foldl_cons, hadd, ih]

/-- The sink that holds `out`. -/
def holding (out : Bytes) : DartCodec.BoundedByteSink := ⟨DartCodec.maxUncompressedLen, out, false⟩

/-- The blocks fit and the sink holds them too, or the sink is exceeded and stays so. -/
theorem foldl_holding (out : Bytes) (blocks : List Bytes)
    (h : out.length ≤ DartCodec.maxUncompressedLen) :
    ((out ++ blocks.flatten).length ≤ DartCodec.maxUncompressedLen ∧
      blocks.foldl DartCodec.BoundedByteSink.add (holding out) = holding (out ++ blocks.flatten)) ∨
    (DartCodec.maxUncompressedLen < (out ++ blocks.flatten).length ∧
      (blocks.foldl DartCodec.BoundedByteSink.add (holding out)).exceeded = true) := by
  induction blocks generalizing out with
  | nil =>
    rw [List.flatten_nil, List.append_nil]
    exact Or.inl ⟨h, rfl⟩
  | cons block blocks ih =>
    have hassoc : out ++ (block :: blocks).flatten = (out ++ block) ++ blocks.flatten := by simp
    rw [hassoc, List.foldl_cons]
    by_cases hlt : DartCodec.maxUncompressedLen < (out ++ block).length
    · refine Or.inr ⟨?_, ?_⟩
      · rw [List.length_append]
        omega
      · have hadd : ((holding out).add block).exceeded = true := by
          simp [holding, DartCodec.BoundedByteSink.add] at hlt ⊢
          exact hlt
        rw [foldl_exceeded blocks _ hadd]
        exact hadd
    · have hadd : (holding out).add block = holding (out ++ block) := by
        simp [holding, DartCodec.BoundedByteSink.add] at hlt ⊢
        exact hlt
      rw [hadd]
      exact ih (out ++ block) (Nat.not_lt.mp hlt)

/-- The outcome of the streaming loop and the close behind it. -/
def finish (dz : DartCodec.ZLib D) (d : D) (sink : DartCodec.BoundedByteSink)
    (pieces : List Bytes) : Except DartCodec.Err Bytes :=
  match DartCodec.addAll dz d sink pieces with
  | .error err => .error err
  | .ok (d, sink) =>
    match dz.close d with
    | none => .error DartCodec.corrupt
    | some blocks =>
      let sink := blocks.foldl DartCodec.BoundedByteSink.add sink
      if sink.exceeded then .error DartCodec.tooBig else .ok sink.builder

/-- The loop gives what the conversion gives, if it ends and fits. -/
theorem finish_toOption (dz : DartCodec.ZLib D) (d : D) (out : Bytes) (pieces : List Bytes)
    (h : out.length ≤ DartCodec.maxUncompressedLen) :
    (finish dz d (holding out) pieces).toOption =
      (convertFrom dz d pieces).bind fun blocks =>
        if (out ++ blocks.flatten).length ≤ DartCodec.maxUncompressedLen then
          some (out ++ blocks.flatten) else none := by
  induction pieces generalizing d out with
  | nil =>
    simp only [finish, DartCodec.addAll, convertFrom]
    cases hc : dz.close d with
    | none => rfl
    | some blocks =>
      simp only [Option.bind_some]
      rcases foldl_holding out blocks h with ⟨hle, hsink⟩ | ⟨hlt, hsink⟩
      · rw [hsink, if_pos hle]
        rfl
      · rw [hsink, if_neg (Nat.not_le.mpr hlt)]
        rfl
  | cons piece pieces ih =>
    simp only [finish, DartCodec.addAll, convertFrom]
    cases ha : dz.add d piece with
    | none => rfl
    | some res =>
      obtain ⟨blocks, d'⟩ := res
      dsimp only
      rcases foldl_holding out blocks h with ⟨hle, hsink⟩ | ⟨hlt, hsink⟩
      · rw [hsink]
        have hrest := ih d' (out ++ blocks.flatten) hle
        simp only [holding, Bool.false_eq_true, if_false]
        simp only [finish, holding] at hrest
        rw [hrest, Option.bind_map]
        refine congrArg _ (funext fun rest => ?_)
        simp
      · rw [hsink, if_pos rfl]
        have hnone : ∀ rest : List Bytes, ¬(out ++ (blocks ++ rest).flatten).length ≤
            DartCodec.maxUncompressedLen := by
          intro rest hle
          rw [List.flatten_append, ← List.append_assoc, List.length_append] at hle
          omega
        cases convertFrom dz d' pieces with
        | none => rfl
        | some rest =>
          rw [Option.map_some, Option.bind_some, if_neg (hnone rest)]
          rfl

theorem device_decompress (hz : SameZlib inflate z dz) (body : Bytes) :
    (DartCodec.boundedZlibDecompress dz body).toOption = bounded inflate body := by
  have hpieces : (DartCodec.sublists DartCodec.inputChunkSize body 0).flatten = body := by
    rw [sublists_eq (by decide), List.drop_zero, chunks_flatten (by decide)]
  have hfinish := finish_toOption dz dz.start []
    (DartCodec.sublists DartCodec.inputChunkSize body 0) (Nat.zero_le _)
  change (finish dz dz.start (holding []) _).toOption = _
  rw [hfinish]
  unfold bounded
  cases hi : inflate body with
  | none =>
    rw [hz.convert_none _ (hpieces.symm ▸ hi)]
    rfl
  | some out =>
    obtain ⟨blocks, hblocks, hflat⟩ := hz.convert_some _ out (hpieces.symm ▸ hi)
    have hcap : DartCodec.maxUncompressedLen = Codec.maxUncompressedLen := rfl
    rw [hblocks, Option.bind_some, List.nil_append, hflat, hcap]
    by_cases hle : out.length ≤ Codec.maxUncompressedLen
    · simp [Option.filter, hle]
    · simp [Option.filter, hle]

theorem decodeRecord_agree (hz : SameZlib inflate z dz) (record : Bytes) :
    (Codec.decodeRecord z record).toOption = (DartCodec.decodeRecord dz record).toOption := by
  unfold Codec.decodeRecord DartCodec.decodeRecord
  match record with
  | [] => rfl
  | [_] => rfl
  | [_, _] => rfl
  | [_, _, _] => rfl
  | [_, _, _, _] => rfl
  | codec :: a :: b :: c :: d :: body =>
    have hget : DartCodec.getUint32 a b c d = Codec.fromBeBytes a b c d := rfl
    have hcap : DartCodec.maxUncompressedLen = Codec.maxUncompressedLen := rfl
    dsimp only
    rw [hget, hcap]
    by_cases hlen : Codec.maxUncompressedLen < Codec.fromBeBytes a b c d
    · rw [if_pos hlen, if_pos hlen]
      rfl
    · rw [if_neg hlen, if_neg hlen]
      by_cases h0 : codec = 0
      · rw [if_pos h0, if_pos h0]
        by_cases hb : body.length ≠ Codec.fromBeBytes a b c d
        · rw [if_pos hb, if_pos hb]
          rfl
        · rw [if_neg hb, if_neg hb]
          rfl
      · rw [if_neg h0, if_neg h0]
        by_cases h1 : codec = 1
        · rw [if_pos h1, if_pos h1, host_decompress hz, device_decompress hz]
        · rw [if_neg h1, if_neg h1]
          rfl

/-- The two hold the same record in progress; the instants differ in their unit. -/
structure SameRecord (p : Codec.PartialRecord) (q : DartCodec.PartialRecord) : Prop where
  fragCount : q.fragCount = p.fragCount.toNat
  nextIndex : q.nextIndex = p.nextIndex.toNat
  buffer : q.buffer = p.buffer
  lastFragmentAt : (p.lastFragmentAt : Int) = 1000 * q.lastFragmentAt

inductive Same : Codec.Reassembler → DartCodec.Reassembler → Prop
  | idle : Same ⟨none⟩ ⟨none⟩
  | partway {p : Codec.PartialRecord} {q : DartCodec.PartialRecord} : SameRecord p q →
      Same ⟨some p⟩ ⟨some q⟩

/-- The same outcome, up to the text of a refusal, and the same record in progress. -/
def SameStep (a : Except Codec.FrameCodecError (Option Bytes) × Codec.Reassembler)
    (b : Except DartCodec.Err (Option Bytes) × DartCodec.Reassembler) : Prop :=
  a.1.toOption = b.1.toOption ∧ Same a.2 b.2

theorem sameStep_refused (err : Codec.FrameCodecError) (err' : DartCodec.Err) :
    SameStep (.error err, ⟨none⟩) (.error err', ⟨none⟩) :=
  ⟨rfl, .idle⟩

theorem sameStep_decoded (hz : SameZlib inflate z dz) (record : Bytes) :
    SameStep ((Codec.decodeRecord z record).map some, ⟨none⟩)
      ((DartCodec.decodeRecord dz record).map some, ⟨none⟩) := by
  refine ⟨?_, .idle⟩
  have h := decodeRecord_agree hz record
  cases hr : Codec.decodeRecord z record with
  | error err =>
    rw [hr] at h
    cases hd : DartCodec.decodeRecord dz record with
    | error err' => rfl
    | ok out =>
      rw [hd] at h
      cases h
  | ok out =>
    rw [hr] at h
    cases hd : DartCodec.decodeRecord dz record with
    | error err' =>
      rw [hd] at h
      cases h
    | ok out' =>
      rw [hd] at h
      cases h
      rfl

theorem byte_eq (b : UInt8) (n : Nat) (hn : n < 256) : ((b.toNat : Int) = n) ↔ b = .ofNat n := by
  constructor
  · intro h
    apply UInt8.toNat_inj.mp
    rw [UInt8.toNat_ofNat']
    omega
  · rintro rfl
    rw [UInt8.toNat_ofNat']
    omega

theorem acceptFirst_agree (hz : SameZlib inflate z dz) (fragIndex fragCount : UInt8)
    (chunk : Bytes) (t : Nat) :
    SameStep (Codec.Reassembler.acceptFirst z fragIndex fragCount chunk (1000 * t))
      (DartCodec.Reassembler.acceptFirst dz fragIndex.toNat fragCount.toNat chunk t) := by
  have hindex : ((fragIndex.toNat : Int) ≠ 0) ↔ fragIndex ≠ 0 := not_congr (byte_eq fragIndex 0 (by omega))
  have hone : ((fragCount.toNat : Int) = 1) ↔ fragCount = 1 := byte_eq fragCount 1 (by omega)
  have hcount : ((fragCount.toNat : Int) = 0 ∨ DartCodec.maxFragCount < fragCount.toNat) ↔
      (fragCount = 0 ∨ Codec.maxFragCount < fragCount) := by
    refine or_congr (byte_eq fragCount 0 (by omega)) ?_
    have hmax : Codec.maxFragCount.toNat = 40 := rfl
    rw [UInt8.lt_iff_toNat_lt, hmax]
    unfold DartCodec.maxFragCount
    omega
  have hcap : DartCodec.maxCompressedRecordLen = Codec.maxCompressedRecordLen := rfl
  unfold Codec.Reassembler.acceptFirst DartCodec.Reassembler.acceptFirst
  by_cases h0 : fragIndex ≠ 0
  · rw [if_pos h0, if_pos (hindex.mpr h0)]
    exact sameStep_refused _ _
  · rw [if_neg h0, if_neg (fun h => h0 (hindex.mp h))]
    by_cases hc : fragCount = 0 ∨ Codec.maxFragCount < fragCount
    · rw [dif_pos hc, if_pos (hcount.mpr hc)]
      exact sameStep_refused _ _
    · rw [dif_neg hc, if_neg (fun h => hc (hcount.mp h)), hcap]
      by_cases hb : Codec.maxCompressedRecordLen < chunk.length
      · rw [dif_pos hb, if_pos hb]
        exact sameStep_refused _ _
      · rw [dif_neg hb, if_neg hb]
        by_cases h1 : fragCount = 1
        · rw [dif_pos h1, if_pos (hone.mpr h1)]
          exact sameStep_decoded hz chunk
        · rw [dif_neg h1, if_neg (fun h => h1 (hone.mp h))]
          refine ⟨rfl, .partway ⟨rfl, rfl, rfl, ?_⟩⟩
          dsimp only
          omega

theorem acceptNext_agree (hz : SameZlib inflate z dz) {p : Codec.PartialRecord}
    {q : DartCodec.PartialRecord} (h : SameRecord p q) (fragIndex fragCount : UInt8)
    (chunk : Bytes) (t : Nat) :
    SameStep (Codec.Reassembler.acceptNext z p fragIndex fragCount chunk (1000 * t))
      (DartCodec.Reassembler.acceptNext dz q fragIndex.toNat fragCount.toNat chunk t) := by
  have hcount : ((fragCount.toNat : Int) ≠ q.fragCount) ↔ fragCount ≠ p.fragCount := by
    rw [h.fragCount, Ne, Ne, Int.ofNat_inj, UInt8.toNat_inj]
  have hindex : ((fragIndex.toNat : Int) ≠ q.nextIndex) ↔ fragIndex ≠ p.nextIndex := by
    rw [h.nextIndex, Ne, Ne, Int.ofNat_inj, UInt8.toNat_inj]
  have hcap : DartCodec.maxCompressedRecordLen = Codec.maxCompressedRecordLen := rfl
  unfold Codec.Reassembler.acceptNext DartCodec.Reassembler.acceptNext
  by_cases hc : fragCount ≠ p.fragCount
  · rw [dif_pos hc, if_pos (hcount.mpr hc)]
    exact sameStep_refused _ _
  · rw [dif_neg hc, if_neg (fun h => hc (hcount.mp h))]
    by_cases hi : fragIndex ≠ p.nextIndex
    · rw [dif_pos hi, if_pos (hindex.mpr hi)]
      exact sameStep_refused _ _
    · rw [dif_neg hi, if_neg (fun h => hi (hindex.mp h)), hcap, h.buffer]
      dsimp only
      by_cases hb : Codec.maxCompressedRecordLen < (p.buffer ++ chunk).length
      · rw [dif_pos hb, if_pos hb]
        exact sameStep_refused _ _
      · rw [dif_neg hb, if_neg hb]
        -- The count of a record in progress is at least 2, so `fragCount - 1` is the
        -- same number in a byte and in an integer.
        have hun := p.unfinished
        rw [not_not] at hc
        rw [← hc, UInt8.lt_iff_toNat_lt] at hun
        have hsub : (fragCount - 1).toNat = fragCount.toNat - 1 :=
          UInt8.toNat_sub_of_le _ _ (UInt8.le_iff_toNat_le.mpr (by
            have hone : (1 : UInt8).toNat = 1 := rfl
            omega))
        have hlast : ((fragIndex.toNat : Int) = fragCount.toNat - 1) ↔ fragIndex = fragCount - 1 := by
          rw [← UInt8.toNat_inj, hsub]
          omega
        by_cases hl : fragIndex = fragCount - 1
        · rw [dif_pos hl, if_pos (hlast.mpr hl)]
          exact sameStep_decoded hz _
        · rw [dif_neg hl, if_neg (fun h => hl (hlast.mp h))]
          refine ⟨rfl, .partway ⟨h.fragCount, ?_, rfl, ?_⟩⟩
          · dsimp only
            have hadd : (p.nextIndex + 1).toNat = p.nextIndex.toNat + 1 := by
              rw [UInt8.toNat_add]
              have hone : (1 : UInt8).toNat = 1 := rfl
              have hlt := p.fragCount.toNat_lt
              rw [hc] at hun
              omega
            rw [hadd, h.nextIndex]
            push_cast
            rfl
          · dsimp only
            omega

theorem expired_agree {r : Codec.Reassembler} {d : DartCodec.Reassembler} (h : Same r d) (t : Nat) :
    r.expired (1000 * t) = d.expired t := by
  cases h with
  | idle => rfl
  | partway h =>
    simp only [Codec.Reassembler.expired, DartCodec.Reassembler.expired, Option.any_some,
      Codec.interFragmentTimeout, DartCodec.interFragmentTimeout]
    have hlast := h.lastFragmentAt
    apply decide_eq_decide.mpr
    omega

/-- One step of the simulation. -/
theorem acceptFragment_agree (hz : SameZlib inflate z dz) {r : Codec.Reassembler}
    {d : DartCodec.Reassembler} (h : Same r d) (plaintext : Bytes) (t : Nat) :
    SameStep (r.acceptFragment z plaintext (1000 * t)) (d.acceptFragment dz plaintext t) := by
  unfold Codec.Reassembler.acceptFragment DartCodec.Reassembler.acceptFragment
  rw [expired_agree h t]
  by_cases he : d.expired t = true
  · rw [if_pos he, if_pos he]
    exact sameStep_refused _ _
  · rw [if_neg he, if_neg he]
    match plaintext with
    | [] => exact sameStep_refused _ _
    | [_] => exact sameStep_refused _ _
    | fragIndex :: fragCount :: chunk =>
      cases h with
      | idle => exact acceptFirst_agree hz fragIndex fragCount chunk t
      | partway h => exact acceptNext_agree hz h fragIndex fragCount chunk t

/-- Every step of a Host reassembler that is fed fragments at instants in microseconds. -/
def hostTrace (z : Codec.Flate) : Codec.Reassembler → List (Bytes × Nat) →
    List (Except Codec.FrameCodecError (Option Bytes) × Codec.Reassembler)
  | _, [] => []
  | r, (plaintext, t) :: rest =>
    let res := r.acceptFragment z plaintext (1000 * t)
    res :: hostTrace z res.2 rest

def deviceTrace (dz : DartCodec.ZLib D) : DartCodec.Reassembler → List (Bytes × Nat) →
    List (Except DartCodec.Err (Option Bytes) × DartCodec.Reassembler)
  | _, [] => []
  | r, (plaintext, t) :: rest =>
    let res := r.acceptFragment dz plaintext t
    res :: deviceTrace dz res.2 rest

theorem traces_agree (hz : SameZlib inflate z dz) (inputs : List (Bytes × Nat))
    {r : Codec.Reassembler} {d : DartCodec.Reassembler} (h : Same r d) :
    List.Forall₂ SameStep (hostTrace z r inputs) (deviceTrace dz d inputs) := by
  induction inputs generalizing r d with
  | nil => exact .nil
  | cons input rest ih =>
    obtain ⟨plaintext, t⟩ := input
    have hstep := acceptFragment_agree hz h plaintext t
    exact .cons hstep (ih hstep.2)

theorem outcomes_agree (hz : SameZlib inflate z dz) (inputs : List (Bytes × Nat)) :
    (deviceTrace dz DartCodec.Reassembler.new inputs).map (·.1.toOption) =
      (hostTrace z Codec.Reassembler.new inputs).map (·.1.toOption) := by
  have hsame : ∀ {as : List (Except Codec.FrameCodecError (Option Bytes) × Codec.Reassembler)}
      {bs : List (Except DartCodec.Err (Option Bytes) × DartCodec.Reassembler)},
      List.Forall₂ SameStep as bs → bs.map (·.1.toOption) = as.map (·.1.toOption) := by
    intro as bs h
    induction h with
    | nil => rfl
    | cons hstep _ ih => rw [List.map_cons, List.map_cons, ih, hstep.1]
  exact hsame (traces_agree hz inputs .idle)

theorem hostTrace_eq (r : Codec.Reassembler) (fragments : List Bytes) (times : List Nat) :
    (hostTrace z r (fragments.zip times)).map (·.1) =
      (acceptAll z r (fragments.zip (times.map (1000 * ·)))).1 := by
  induction fragments generalizing r times with
  | nil => rfl
  | cons f fragments ih =>
    cases times with
    | nil => rfl
    | cons t times =>
      simp only [List.zip_cons_cons, List.map_cons, hostTrace, acceptAll, ih]

/-- Nothing before the last of `k` fragments, and the envelope then. -/
def decoded (k : Nat) (envelope : Bytes) : List (Option (Option Bytes)) :=
  List.replicate (k - 1) (some none) ++ [some (some envelope)]

theorem hostTrace_record {record envelope : Bytes} (hlo : 5 ≤ record.length)
    (hhi : record.length ≤ 1048581) (hd : Codec.decodeRecord z record = .ok envelope)
    (times : List Nat) (htimes : times.length = (Codec.splitIntoFragments record).length)
    (hpaced : Paced (times.map (1000 * ·))) :
    (hostTrace z Codec.Reassembler.new ((Codec.splitIntoFragments record).zip times)).map
      (·.1.toOption) = decoded (Codec.splitIntoFragments record).length envelope := by
  have hmax : record.length ≤ Codec.maxCompressedRecordLen := by
    unfold Codec.maxCompressedRecordLen
    omega
  have hpos : 0 < record.length := by omega
  have hall := acceptAll_record (z := z) hpos hmax (times.map (1000 * ·))
    (by rw [List.length_map]; exact htimes) hpaced
  have heq := hostTrace_eq (z := z) Codec.Reassembler.new (Codec.splitIntoFragments record) times
  rw [hall, hd] at heq
  have hmap := congrArg (List.map Except.toOption) heq
  rw [List.map_map] at hmap
  refine Eq.trans hmap ?_
  simp [onLast, decoded, Except.map, Except.toOption]

theorem splitIntoFragments_agree (record : Bytes) :
    DartCodec.splitIntoFragments record = Codec.splitIntoFragments record := by
  have hlen : DartCodec.maxChunkLen = Codec.maxChunkLen := by decide
  unfold DartCodec.splitIntoFragments Codec.splitIntoFragments
  rw [sublists_eq (by decide), List.drop_zero, hlen]
  rfl

theorem inverse_of_same (hz : SameZlib inflate z dz) : Inverse z where
  flatten := fun data => (hz.reads_some _ data (hz.compress data)).1
  ended := fun data => (hz.reads_some _ data (hz.compress data)).2

/-- What the Device builds, the Host decodes. -/
theorem device_buildRecord_spec (hz : SameZlib inflate z dz) {envelope : Bytes}
    (hle : envelope.length ≤ Codec.maxUncompressedLen) :
    ∃ record, DartCodec.buildRecord dz envelope = .ok record ∧ 5 ≤ record.length ∧
      record.length ≤ 5 + envelope.length ∧ Codec.decodeRecord z record = .ok envelope := by
  have hcap : DartCodec.maxUncompressedLen = Codec.maxUncompressedLen := rfl
  have hbytes : DartCodec.setUint32 envelope.length = Codec.toBeBytes envelope.length := rfl
  unfold DartCodec.buildRecord
  rw [hcap, if_neg (Nat.not_lt.mpr hle), hbytes]
  by_cases hc : (dz.convert envelope).length < envelope.length
  · simp only [if_pos hc]
    refine ⟨_, rfl, ?_, ?_, ?_⟩
    · simp [Codec.toBeBytes]
    · simp [Codec.toBeBytes]
      omega
    · rw [decode_header 1 envelope.length _ hle]
      have hdec := host_decompress hz (dz.convert envelope)
      unfold bounded at hdec
      rw [hz.convert, Option.filter, if_pos (by simpa using hle)] at hdec
      cases hb : Codec.boundedZlibDecompress z (dz.convert envelope) with
      | error err =>
        rw [hb] at hdec
        cases hdec
      | ok out =>
        rw [hb] at hdec
        cases hdec
        rfl
  · simp only [if_neg hc]
    refine ⟨_, rfl, ?_, ?_, ?_⟩
    · simp [Codec.toBeBytes]
    · simp [Codec.toBeBytes]
      omega
    · rw [decode_header 0 envelope.length _ hle]
      simp

/-- The reassemblers agree at every step of every sequence of fragments, and each
decodes to the envelope what the other side's encoder cut it into. -/
theorem codecs_agree (hz : SameZlib inflate z dz) :
    (∀ inputs : List (Bytes × Nat), List.Forall₂ SameStep
      (hostTrace z Codec.Reassembler.new inputs)
      (deviceTrace dz DartCodec.Reassembler.new inputs)) ∧
    (∀ envelope : Bytes, envelope.length ≤ Codec.maxUncompressedLen → ∃ record,
      Codec.buildRecord z envelope = .ok record ∧
      ∀ times, times.length = (Codec.splitIntoFragments record).length →
        Paced (times.map (1000 * ·)) →
        (deviceTrace dz DartCodec.Reassembler.new
          ((Codec.splitIntoFragments record).zip times)).map (·.1.toOption) =
            decoded (Codec.splitIntoFragments record).length envelope) ∧
    (∀ envelope : Bytes, envelope.length ≤ DartCodec.maxUncompressedLen → ∃ record,
      DartCodec.buildRecord dz envelope = .ok record ∧
      ∀ times, times.length = (DartCodec.splitIntoFragments record).length →
        Paced (times.map (1000 * ·)) →
        (hostTrace z Codec.Reassembler.new
          ((DartCodec.splitIntoFragments record).zip times)).map (·.1.toOption) =
            decoded (DartCodec.splitIntoFragments record).length envelope) := by
  refine ⟨fun inputs => traces_agree hz inputs .idle, ?_, ?_⟩
  · intro envelope hle
    obtain ⟨record, hbuild, hlo, hhi, hdecode⟩ := buildRecord_spec (inverse_of_same hz) hle
    refine ⟨record, hbuild, fun times htimes hpaced => ?_⟩
    unfold Codec.maxUncompressedLen at hle
    rw [outcomes_agree hz]
    exact hostTrace_record hlo (by omega) hdecode times htimes hpaced
  · intro envelope hle
    obtain ⟨record, hbuild, hlo, hhi, hdecode⟩ := device_buildRecord_spec hz hle
    refine ⟨record, hbuild, ?_⟩
    unfold DartCodec.maxUncompressedLen at hle
    rw [splitIntoFragments_agree]
    exact fun times htimes hpaced => hostTrace_record hlo (by omega) hdecode times htimes hpaced

/-- A conversion that keeps what was added until it is closed. -/
def sampleZLib : DartCodec.ZLib Bytes where
  convert := sampleCompress
  start := []
  add := fun kept piece => some ([], kept ++ piece)
  close := fun kept => (sampleInflate kept).map ([·])

theorem sampleZLib_convertFrom (kept : Bytes) (pieces : List Bytes) :
    convertFrom sampleZLib kept pieces = (sampleInflate (kept ++ pieces.flatten)).map ([·]) := by
  induction pieces generalizing kept with
  | nil =>
    rw [List.flatten_nil, List.append_nil]
    rfl
  | cons piece pieces ih =>
    rw [List.flatten_cons, ← List.append_assoc, ← ih (kept ++ piece)]
    simp only [convertFrom, sampleZLib, List.nil_append]
    exact Option.map_id'

theorem sample_sameZlib : SameZlib sampleInflate sampleFlate sampleZLib where
  reads_some := by
    intro body out h
    simp [sampleFlate, h]
  reads_none := by
    intro body h
    simp [sampleFlate, h]
  convert_some := by
    intro pieces out h
    exact ⟨[out], by rw [sampleZLib_convertFrom]; simp [sampleZLib, h], by simp⟩
  convert_none := by
    intro pieces h
    rw [sampleZLib_convertFrom]
    simp [sampleZLib, h]
  compress := sampleInflate_compress
  convert := sampleInflate_compress

/-- A record of one fragment, a fragment without a header, and a record whose second
fragment is late. -/
def sampleInputs : List (Bytes × Nat) :=
  [([0, 1, 0, 0, 0, 0, 1, 7], 0), ([3], 5), ([0, 2, 9], 10), ([1, 2, 9], 10000011)]

theorem codecs_agree_sample :
    List.Forall₂ SameStep (hostTrace sampleFlate Codec.Reassembler.new sampleInputs)
      (deviceTrace sampleZLib DartCodec.Reassembler.new sampleInputs) :=
  (codecs_agree sample_sameZlib).1 sampleInputs

end HerdrMobile.Frame.Agreement
