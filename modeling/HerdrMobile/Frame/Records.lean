import HerdrMobile.Frame.Agreement

/-!
# The declared length of a record

A record says how long its envelope is. A raw body is held to that, and what comes out of a
compressed one only to the cap. What zlib says is a parameter: the streams that are valid, and
what the decoder makes of them.
-/
namespace HerdrMobile.Frame.Records

open HerdrMobile.Lib.Chunks HerdrMobile.Proto.Codes HerdrMobile.Frame.Codec
open HerdrMobile.Frame.Agreement (readBounded_toOption)

set_option autoImplicit false

variable {inflate : Bytes → Option Bytes} {z : Flate} {record envelope body : Bytes}
  {codec a b c d : UInt8}

/-- The decoder gives the bytes of a valid stream. Of any other stream nothing is known. -/
def Decodes (inflate : Bytes → Option Bytes) (z : Flate) : Prop :=
  ∀ body out, inflate body = some out → z.reads body = ((z.reads body).1, true) ∧
    (z.reads body).1.flatten = out

/-- A record with its envelope. -/
inductive Legal (inflate : Bytes → Option Bytes) : Bytes → Bytes → Prop
  | raw {a b c d : UInt8} {body : Bytes} : fromBeBytes a b c d ≤ maxUncompressedLen →
      body.length = fromBeBytes a b c d → Legal inflate (0 :: a :: b :: c :: d :: body) body
  | zlib {a b c d : UInt8} {body envelope : Bytes} : fromBeBytes a b c d ≤ maxUncompressedLen →
      inflate body = some envelope → envelope.length = fromBeBytes a b c d →
      Legal inflate (1 :: a :: b :: c :: d :: body) envelope

/-- A compressed record of another length than it says, or one whose body is no valid stream
although the decoder comes to an end of it. -/
inductive Misdeclared (inflate : Bytes → Option Bytes) (z : Flate) : Bytes → Prop
  | lying {a b c d : UInt8} {body envelope : Bytes} : fromBeBytes a b c d ≤ maxUncompressedLen →
      inflate body = some envelope → envelope.length ≤ maxUncompressedLen →
      envelope.length ≠ fromBeBytes a b c d →
      Misdeclared inflate z (1 :: a :: b :: c :: d :: body)
  | broken {a b c d : UInt8} {body : Bytes} : fromBeBytes a b c d ≤ maxUncompressedLen →
      inflate body = none → (z.reads body).2 = true →
      (z.reads body).1.flatten.length ≤ maxUncompressedLen →
      Misdeclared inflate z (1 :: a :: b :: c :: d :: body)

theorem decompress_ok_iff : boundedZlibDecompress z body = .ok envelope ↔
    (z.reads body).2 = true ∧ (z.reads body).1.flatten = envelope ∧
      envelope.length ≤ maxUncompressedLen := by
  have hread := readBounded_toOption [] (z.reads body).1 (z.reads body).2 (Nat.zero_le _)
  rw [List.nil_append] at hread
  constructor
  · intro h
    change readBounded [] (z.reads body).1 (z.reads body).2 = .ok envelope at h
    rw [h] at hread
    split at hread
    · rename_i hok
      cases hread
      exact ⟨hok.1, rfl, hok.2⟩
    · cases hread
  · rintro ⟨hok, rfl, hle⟩
    rw [if_pos ⟨hok, hle⟩] at hread
    change readBounded [] (z.reads body).1 (z.reads body).2 = _
    cases hres : readBounded [] (z.reads body).1 (z.reads body).2 with
    | error err =>
      rw [hres] at hread
      cases hread
    | ok out =>
      rw [hres] at hread
      cases hread
      rfl

/-- What a record is that is decoded. -/
theorem decodeRecord_ok_iff : decodeRecord z record = .ok envelope ↔
    ∃ codec a b c d body, record = codec :: a :: b :: c :: d :: body ∧
      fromBeBytes a b c d ≤ maxUncompressedLen ∧
      (codec = 0 ∧ body.length = fromBeBytes a b c d ∧ body = envelope ∨
        codec = 1 ∧ boundedZlibDecompress z body = .ok envelope) := by
  constructor
  · intro h
    unfold decodeRecord at h
    split at h
    · rename_i codec a b c d body
      simp only at h
      split at h
      · cases h
      · rename_i hcap
        have hle := Nat.not_lt.mp hcap
        split at h
        · rename_i hraw
          split at h
          · cases h
          · rename_i hlength
            cases h
            exact ⟨codec, a, b, c, d, _, rfl, hle, Or.inl ⟨hraw, not_not.mp hlength, rfl⟩⟩
        · split at h
          · rename_i hzlib
            exact ⟨codec, a, b, c, d, body, rfl, hle, Or.inr ⟨hzlib, h⟩⟩
          · cases h
    · cases h
  · rintro ⟨codec, a, b, c, d, body, rfl, hle, ⟨rfl, hlength, rfl⟩ | ⟨rfl, hbody⟩⟩
    · simp [decodeRecord, Nat.not_lt.mpr hle, hlength]
    · simp only [decodeRecord, if_neg (Nat.not_lt.mpr hle)]
      exact hbody

theorem decodeRecord_of_legal (hz : Decodes inflate z) (h : Legal inflate record envelope) :
    decodeRecord z record = .ok envelope := by
  rw [decodeRecord_ok_iff]
  cases h with
  | raw hle hlength => exact ⟨0, _, _, _, _, _, rfl, hle, Or.inl ⟨rfl, hlength, rfl⟩⟩
  | zlib hle hinflate hlength =>
    obtain ⟨hok, hflat⟩ := hz _ _ hinflate
    refine ⟨1, _, _, _, _, _, rfl, hle, Or.inr ⟨rfl, (decompress_ok_iff).mpr ⟨?_, hflat, ?_⟩⟩⟩
    · rw [hok]
    · rw [hlength]
      exact hle

theorem legal_of_decodeRecord (hz : Decodes inflate z) (hnot : ¬Misdeclared inflate z record)
    (h : decodeRecord z record = .ok envelope) : Legal inflate record envelope := by
  obtain ⟨codec, a, b, c, d, body, rfl, hle, ⟨rfl, hlength, rfl⟩ | ⟨rfl, hbody⟩⟩ :=
    (decodeRecord_ok_iff).mp h
  · exact .raw hle hlength
  · obtain ⟨hok, hflat, hcap⟩ := (decompress_ok_iff).mp hbody
    cases hinflate : inflate body with
    | none =>
      rw [← hflat] at hcap
      exact absurd (.broken hle hinflate hok hcap) hnot
    | some out =>
      obtain rfl : out = envelope := (hz body out hinflate).2.symm.trans hflat
      refine .zlib hle hinflate ?_
      by_contra hlength
      exact hnot (.lying hle hinflate hcap hlength)

theorem not_misdeclared (hz : Decodes inflate z)
    (h : ∀ envelope, decodeRecord z record = .ok envelope → Legal inflate record envelope) :
    ¬Misdeclared inflate z record := by
  intro hmis
  cases hmis with
  | lying hle hinflate hcap hlength =>
    obtain ⟨hok, hflat⟩ := hz _ _ hinflate
    have hdecode := (decompress_ok_iff).mpr ⟨congrArg Prod.snd hok, hflat, hcap⟩
    have hlegal := h _ ((decodeRecord_ok_iff).mpr
      ⟨1, _, _, _, _, _, rfl, hle, Or.inr ⟨rfl, hdecode⟩⟩)
    cases hlegal with
    | zlib hle' hinflate' hlength' => exact hlength hlength'
  | broken hle hinflate hok hcap =>
    have hdecode := (decompress_ok_iff).mpr ⟨hok, rfl, hcap⟩
    have hlegal := h _ ((decodeRecord_ok_iff).mpr
      ⟨1, _, _, _, _, _, rfl, hle, Or.inr ⟨rfl, hdecode⟩⟩)
    cases hlegal with
    | zlib hle' hinflate' hlength' => cases hinflate.symm.trans hinflate'

/-- Every legal record gives its envelope, and what gives one is legal exactly when it is not a
compressed record that says another length or whose body is broken. -/
theorem decodeRecord_legal_iff (inflate : Bytes → Option Bytes) (z : Flate)
    (hz : Decodes inflate z) (record : Bytes) :
    (∀ envelope, Legal inflate record envelope → decodeRecord z record = .ok envelope) ∧
      ((∀ envelope, decodeRecord z record = .ok envelope → Legal inflate record envelope) ↔
        ¬Misdeclared inflate z record) :=
  ⟨fun _ h => decodeRecord_of_legal hz h, not_misdeclared hz,
    fun hnot _ h => legal_of_decodeRecord hz hnot h⟩

/-- The stream of the one byte `A`. -/
def streamOfA : Bytes := [0x78, 0x9c, 0x73, 0x04, 0x00, 0x00, 0x42, 0x00, 0x42]

def inflateA (body : Bytes) : Option Bytes := if body = streamOfA then some [65] else none

def flateA : Flate where
  compress := id
  reads body := if body = streamOfA then ([[65]], true) else ([], false)

theorem flateA_decodes : Decodes inflateA flateA := by
  intro body out h
  unfold inflateA at h
  split at h
  · rename_i hbody
    cases h
    subst hbody
    exact ⟨rfl, rfl⟩
  · cases h

theorem decodeRecord_legal_iff_A :
    (∀ envelope, Legal inflateA (1 :: 0 :: 0 :: 0 :: 1 :: streamOfA) envelope →
      decodeRecord flateA (1 :: 0 :: 0 :: 0 :: 1 :: streamOfA) = .ok envelope) ∧
    Legal inflateA (1 :: 0 :: 0 :: 0 :: 1 :: streamOfA) [65] :=
  ⟨(decodeRecord_legal_iff inflateA flateA flateA_decodes _).1, .zlib (by decide) rfl rfl⟩

/-- The record says ten bytes and gives one. -/
theorem lying_record_accepted :
    ¬∀ envelope, decodeRecord flateA (1 :: 0 :: 0 :: 0 :: 10 :: streamOfA) = .ok envelope →
      Legal inflateA (1 :: 0 :: 0 :: 0 :: 10 :: streamOfA) envelope := by
  intro h
  have hdecode : boundedZlibDecompress flateA streamOfA = .ok [65] :=
    (decompress_ok_iff).mpr ⟨rfl, rfl, by decide⟩
  have hlegal := h [65] ((decodeRecord_ok_iff).mpr
    ⟨1, 0, 0, 0, 10, streamOfA, rfl, by decide, Or.inr ⟨rfl, hdecode⟩⟩)
  cases hlegal with
  | zlib hle hinflate hlength => exact absurd hlength (by decide)

end HerdrMobile.Frame.Records
