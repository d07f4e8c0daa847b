import HerdrMobile.Lib.Utf8
import HerdrMobile.Proto.Codes
import HerdrMobile.Proto.Phrase
import Mathlib.Data.List.DropRight

/-!
# The cached word list

The source of the word list is downloaded once and read from a file after that. A download is
written to the file as it came and checked only then; a file that is there is never replaced.
-/
namespace HerdrMobile.Host.Wordlist

open HerdrMobile.Proto HerdrMobile.Proto.Codes
open HerdrMobile.Lib
open HerdrMobile.Lib.Strings

set_option autoImplicit false

/-- `std::io::ErrorKind::NotFound`, or any other one. -/
inductive IoError where
  | notFound
  | other (code : Nat)
deriving DecidableEq, Repr

inductive WordlistError where
  | fetch (program reason : Text)
  | noFetcherAvailable
  | notUtf8
  | checksumMismatch
  | wrongEntryCount (found : Nat)
  | cache (error : IoError)
  | phrase (error : PhraseError)
deriving DecidableEq, Repr

section Source

def hexLower (n : Nat) : Char := "0123456789abcdef".toList.getD n '0'

variable (digest : Bytes → Bytes)

def hexDigest (bytes : Bytes) : Text :=
  (digest bytes).flatMap fun byte => [hexLower (byte.toNat / 16), hexLower (byte.toNat % 16)]

def verifyChecksum (raw : Bytes) (expectedHex : Text) : Except WordlistError Unit :=
  if hexDigest digest raw = expectedHex then .ok () else .error .checksumMismatch

/-- The lines of the text after `line`. A carriage return goes with the line feed after it. -/
def linesFrom (line : Text) : Text → List Text
  | [] => if line = [] then [] else [line]
  | c :: rest =>
    if c = '\n' then
      (if line.getLast? = some '\r' then line.dropLast else line) :: linesFrom [] rest
    else linesFrom (line ++ [c]) rest

/-- `rsplit('\t').next()`, trimmed and in lower case. -/
def lineWord (line : Text) : Option Text :=
  let word := trim (line.rtakeWhile (· ≠ '\t'))
  if word = [] then none else some (word.map Char.toLower)

def extractWords (raw : Bytes) : Except WordlistError (List Text) :=
  match Utf8.fromUtf8 raw with
  | none => .error .notUtf8
  | some text =>
    let words := (linesFrom [] text).filterMap lineWord
    if words.length = effWordlistEntryCount then .ok words
    else .error (.wrongEntryCount words.length)

end Source

/-- What becomes of `write_cache`: an error before the file is there, or after `count` bytes. -/
inductive WriteOutcome where
  | written
  | refused (error : IoError)
  | cut (count : Nat) (error : IoError)

/-- A call with what the system does for it: an error of the read other than the missing file,
the download and the write. -/
structure Call where
  readError : Option Nat
  fetch : Except WordlistError Bytes
  write : WriteOutcome

/-- `std::fs::read` of the file. -/
def Call.read (call : Call) (cache : Option Bytes) : Except IoError Bytes :=
  match call.readError with
  | some code => .error (.other code)
  | none =>
    match cache with
    | none => .error .notFound
    | some bytes => .ok bytes

/-- The result, and the bytes that the file has then. -/
def writeCache (bytes : Bytes) (cache : Option Bytes) :
    WriteOutcome → Except WordlistError Unit × Option Bytes
  | .written => (.ok (), some bytes)
  | .refused error => (.error (.cache error), cache)
  | .cut count error => (.error (.cache error), some (bytes.take count))

section Load

variable (digest : Bytes → Bytes) (expectedHex : Text)

def checkWords (raw : Bytes) : Except WordlistError (List Text) :=
  match verifyChecksum digest raw expectedHex with
  | .error error => .error error
  | .ok () => extractWords raw

def loadVerified (call : Call) (cache : Option Bytes) :
    Except WordlistError (List Text) × Option Bytes :=
  match call.read cache with
  | .ok raw => (checkWords digest expectedHex raw, cache)
  | .error .notFound =>
    match call.fetch with
    | .error error => (.error error, cache)
    | .ok bytes =>
      match writeCache bytes cache call.write with
      | (.error error, cache) => (.error error, cache)
      | (.ok (), cache) => (checkWords digest expectedHex bytes, cache)
  | .error error => (.error (.cache error), cache)

/-- The file after the calls, which begin without one. -/
def run (calls : List Call) : Option Bytes :=
  calls.foldl (fun cache call => (loadVerified digest expectedHex call cache).2) none

/-- The bytes have the checksum and hold the word list. -/
def Correct (raw : Bytes) : Prop :=
  verifyChecksum digest raw expectedHex = .ok () ∧ ∃ words, extractWords raw = .ok words

/-- Only checked words are returned, the file is never a bad one, and at any time a call whose
download is a correct one succeeds. -/
structure Recovers (calls : List Call) : Prop where
  verified : ∀ before call after words, calls = before ++ call :: after →
    (loadVerified digest expectedHex call (run digest expectedHex before)).1 = .ok words →
      ∃ raw, Correct digest expectedHex raw ∧ extractWords raw = .ok words
  sound : ∀ before, before <+: calls → ∀ raw, run digest expectedHex before = some raw →
    Correct digest expectedHex raw
  again : ∀ before, before <+: calls → ∀ (call : Call) raw, call.readError = none →
    call.write = .written → call.fetch = .ok raw → Correct digest expectedHex raw →
      ∃ words, (loadVerified digest expectedHex call (run digest expectedHex before)).1 = .ok words

/-- Nothing comes of the download, or its write is refused before the file is there. -/
def Call.LeavesNothing (call : Call) : Prop :=
  call.readError ≠ none ∨ (∃ error, call.fetch = .error error) ∨
    ∃ error, call.write = .refused error

/-- What the call downloads is correct if it is written. If the write breaks off, the part that
is written is. -/
def Harmless (call : Call) : Prop :=
  ∀ bytes, call.readError = none → call.fetch = .ok bytes →
    match call.write with
    | .written => Correct digest expectedHex bytes
    | .refused _ => True
    | .cut count _ => Correct digest expectedHex (bytes.take count)

/-- As long as no call has left anything, the next one is harmless. -/
def DownloadsCorrect (calls : List Call) : Prop :=
  ∀ before call after, calls = before ++ call :: after → (∀ c ∈ before, c.LeavesNothing) →
    Harmless digest expectedHex call

end Load

variable {digest : Bytes → Bytes} {expectedHex : Text} {raw : Bytes} {words : List Text}
  {call : Call} {cache : Option Bytes} {calls : List Call}

theorem checkWords_ok : checkWords digest expectedHex raw = .ok words ↔
    verifyChecksum digest raw expectedHex = .ok () ∧ extractWords raw = .ok words := by
  unfold checkWords
  split
  · next error herror => simp [herror]
  · next hok => simp [hok]

theorem correct_iff :
    Correct digest expectedHex raw ↔ ∃ words, checkWords digest expectedHex raw = .ok words := by
  simp only [checkWords_ok, Correct, exists_and_left]

/-- What a call leaves in the file that it does not find. -/
def stored (call : Call) : Option Bytes :=
  match call.readError, call.fetch with
  | none, .ok bytes => (writeCache bytes none call.write).2
  | _, _ => none

theorem stored_eq_none : stored call = none ↔ call.LeavesNothing := by
  obtain ⟨readError, fetch, write⟩ := call
  unfold stored Call.LeavesNothing
  cases readError with
  | some code => simp
  | none =>
    cases fetch with
    | error error => simp
    | ok bytes => cases write <;> simp [writeCache]

theorem harmless_iff : Harmless digest expectedHex call ↔
    ∀ raw, stored call = some raw → Correct digest expectedHex raw := by
  obtain ⟨readError, fetch, write⟩ := call
  unfold stored Harmless
  cases readError with
  | some code => simp
  | none =>
    cases fetch with
    | error error => simp
    | ok bytes => cases write <;> simp [writeCache]

/-- A file that is there stays, and where there is none the call may leave one. -/
theorem loadVerified_cache : (loadVerified digest expectedHex call cache).2 =
    match cache with
    | none => stored call
    | some raw => some raw := by
  unfold loadVerified stored Call.read
  cases call.readError with
  | some code => cases cache <;> rfl
  | none =>
    cases cache with
    | some raw => rfl
    | none =>
      cases call.fetch with
      | error error => rfl
      | ok bytes => cases call.write <;> rfl

/-- The words come from the file, or from the download that is in the file then. -/
theorem loadVerified_ok (h : (loadVerified digest expectedHex call cache).1 = .ok words) :
    ∃ raw, checkWords digest expectedHex raw = .ok words := by
  unfold loadVerified at h
  split at h
  · exact ⟨_, h⟩
  · split at h
    · cases h
    · split at h
      · cases h
      · exact ⟨_, h⟩
  · cases h

/-- A call with nothing in its way has the file's words, or those of the download. -/
theorem loadVerified_clear (hread : call.readError = none) (hwrite : call.write = .written)
    (hfetch : call.fetch = .ok raw) : (loadVerified digest expectedHex call cache).1 =
      checkWords digest expectedHex (cache.getD raw) := by
  unfold loadVerified Call.read
  rw [hread, hfetch, hwrite]
  cases cache <;> rfl

theorem run_snoc : run digest expectedHex (calls ++ [call]) =
    (loadVerified digest expectedHex call (run digest expectedHex calls)).2 := by
  rw [run, List.foldl_append]
  rfl

theorem run_eq_none :
    run digest expectedHex calls = none ↔ ∀ call ∈ calls, call.LeavesNothing := by
  induction calls using List.reverseRecOn with
  | nil => exact iff_of_true rfl nofun
  | append_singleton before last ih =>
    rw [run_snoc, loadVerified_cache, List.forall_mem_append, List.forall_mem_singleton, ← ih,
      ← stored_eq_none]
    cases run digest expectedHex before with
    | none => simp
    | some old => simp

theorem sound_of_downloads (h : DownloadsCorrect digest expectedHex calls) {before : List Call}
    (hbefore : before <+: calls) (hrun : run digest expectedHex before = some raw) :
    Correct digest expectedHex raw := by
  induction before using List.reverseRecOn with
  | nil => cases hrun
  | append_singleton before last ih =>
    obtain ⟨after, rfl⟩ := hbefore
    rw [run_snoc, loadVerified_cache] at hrun
    cases hcache : run digest expectedHex before with
    | some old =>
      rw [hcache] at hrun
      refine ih ?_ (hcache.trans hrun)
      exact ⟨last :: after, by rw [List.append_assoc, List.singleton_append]⟩
    | none =>
      rw [hcache] at hrun
      have hharmless := h before last after (by rw [List.append_assoc, List.singleton_append])
        (run_eq_none.mp hcache)
      exact harmless_iff.mp hharmless raw hrun

theorem recovers_of_downloads (h : DownloadsCorrect digest expectedHex calls) :
    Recovers digest expectedHex calls where
  verified before call after words _ hwords := by
    obtain ⟨raw, hraw⟩ := loadVerified_ok hwords
    exact ⟨raw, (correct_iff).mpr ⟨words, hraw⟩, ((checkWords_ok).mp hraw).2⟩
  sound before hbefore raw hrun := sound_of_downloads h hbefore hrun
  again before hbefore call raw hread hwrite hfetch hcorrect := by
    rw [loadVerified_clear hread hwrite hfetch]
    cases hcache : run digest expectedHex before with
    | none => exact (correct_iff).mp hcorrect
    | some old => exact (correct_iff).mp (sound_of_downloads h hbefore hcache)

theorem downloads_of_recovers (h : Recovers digest expectedHex calls) :
    DownloadsCorrect digest expectedHex calls := by
  rintro before call after rfl hnone
  refine harmless_iff.mpr fun raw hstored => ?_
  refine h.sound (before ++ [call]) ⟨after, ?_⟩ raw ?_
  · rw [List.append_assoc, List.singleton_append]
  · rw [run_snoc, loadVerified_cache, run_eq_none.mpr hnone]
    exact hstored

/-- The word list comes back after every bad download if and only if the first one that a call
writes is no bad one. -/
theorem load_verified_recovers_iff (digest : Bytes → Bytes) (expectedHex : Text)
    (calls : List Call) : Recovers digest expectedHex calls ↔
      DownloadsCorrect digest expectedHex calls :=
  ⟨downloads_of_recovers, recovers_of_downloads⟩

def rawSourceChecksumBlake2s256Hex : Text :=
  "e246c56edf8a06d87d89fd37966576ee70302c19ce128dac5004a87a7990d060".toList

/-- The digest as it is of an empty body. -/
def emptyDigest : Bytes → Bytes := fun _ =>
  [0x69, 0x21, 0x7a, 0x30, 0x79, 0x90, 0x80, 0x94, 0xe1, 0x11, 0x21,
    0xd0, 0x42, 0x35, 0x4a, 0x7c, 0x1f, 0x55, 0xb6, 0x48, 0x2c, 0xa1,
    0xa5, 0x1e, 0x1b, 0x25, 0x0d, 0xfd, 0x1e, 0xd0, 0xee, 0xf9]

/-- The download is an empty body. -/
def emptyDownload : Call where
  readError := none
  fetch := .ok []
  write := .written

theorem empty_download_stays :
    ¬Recovers emptyDigest rawSourceChecksumBlake2s256Hex [emptyDownload] := by
  intro h
  have hcorrect := h.sound [emptyDownload] (List.prefix_refl _) [] rfl
  have hdigest : hexDigest emptyDigest [] ≠ rawSourceChecksumBlake2s256Hex := by decide
  rw [Correct, verifyChecksum, if_neg hdigest] at hcorrect
  cases hcorrect.1

end HerdrMobile.Host.Wordlist
