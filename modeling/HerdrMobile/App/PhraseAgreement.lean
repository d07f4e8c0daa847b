import HerdrMobile.App.PairingText
import HerdrMobile.Proto.Segments

/-!
# The two readings of a phrase

Both sides trim, collapse and segment. They part at a byte order mark, at U+0085 and at letters
outside ASCII whose lower case is in it.
-/
namespace HerdrMobile.App.PhraseAgreement

open HerdrMobile.Lib.Strings HerdrMobile.Lib.Collapse HerdrMobile.Proto
open HerdrMobile.App.PairingText

set_option autoImplicit false

variable {dart : Dart} {t : Text} {words : List Text}

def hostSeparator (c : Char) : Bool := c = '-' || isWhitespace c

def deviceSeparator (c : Char) : Bool := c = '-' || isSpace c

theorem normalize_eq (t : Text) : normalize t =
    collapse hostSeparator (fun c => [c.toLower]) '-' false (trimBy isWhitespace t) := by
  have hfrom : ∀ (last : Bool) (s : Text), Proto.normalizeFrom last s =
      collapse hostSeparator (fun c => [c.toLower]) '-' last s := by
    intro last s
    induction s generalizing last with
    | nil => rfl
    | cons c rest ih =>
      rw [Proto.normalizeFrom, collapse, ih, ih]
      simp only [hostSeparator, Bool.or_eq_true, decide_eq_true_eq, List.singleton_append]
  exact hfrom false _

theorem normalizePhraseInput_eq (t : Text) : normalizePhraseInput dart t =
    collapse deviceSeparator (lowerUnit dart) '-' false (trimBy isTrimmed t) := by
  have hfrom : ∀ (last : Bool) (s : Text), PairingText.normalizeFrom dart last s =
      collapse deviceSeparator (lowerUnit dart) '-' last s := by
    intro last s
    induction s generalizing last with
    | nil => rfl
    | cons c rest ih =>
      rw [PairingText.normalizeFrom, collapse, ih, ih]
      simp only [deviceSeparator, Bool.or_eq_true, decide_eq_true_eq]
  exact hfrom false _

/-- The same code or the same canonical phrase. -/
def SamePhrase : Except PhraseError Phrase → Except Cause Text → Prop
  | .ok phrase, .ok canonical => phrase.canonical = canonical
  | .error e, .error cause => e.code = cause.code
  | _, _ => False

/-- The wire code of a refusal. -/
def codeOf {ε α : Type} (code : ε → Option String) : Except ε α → Option String
  | .ok _ => none
  | .error e => code e

theorem SamePhrase.codes {host : Except PhraseError Phrase} {device : Except Cause Text}
    (h : SamePhrase host device) : codeOf PhraseError.code host = codeOf Cause.code device := by
  cases host with
  | ok phrase =>
    cases device with
    | ok canonical => rfl
    | error cause => exact h.elim
  | error e =>
    cases device with
    | ok canonical => exact h.elim
    | error cause => exact h

/-- A token is empty. -/
def Gap (normalized : Text) : Prop := [] ∈ normalized.splitOn '-'

/-- A token has another character than a small letter. -/
def Odd (normalized : Text) : Prop := ∃ word ∈ normalized.splitOn '-', ∃ c ∈ word, c.isLower = false

theorem any_gap (normalized : Text) :
    (normalized.splitOn '-').any List.isEmpty = true ↔ Gap normalized := by
  simp [Gap]

theorem any_odd (normalized : Text) :
    ((normalized.splitOn '-').any fun word => !isLowercase word) = true ↔ Odd normalized := by
  simp [Odd, isLowercase]

theorem isLowercaseAscii_eq (word : Text) : isLowercaseAscii word = isLowercase word := by
  rw [isLowercaseAscii, isLowercase]
  apply List.all_congr rfl
  intro c
  rw [Bool.eq_iff_iff, isLower_iff]
  simp

section Host

variable (hsize : words.length = effWordlistEntryCount)
include hsize

theorem host_gap (h : Gap (normalize t)) :
    Phrase.parseCanonical t words = .error .separator := by
  rw [Phrase.parseCanonical, if_neg (not_not.mpr hsize)]
  exact if_pos ((any_gap _).mpr h)

theorem host_odd (h : ¬Gap (normalize t)) (hodd : Odd (normalize t)) :
    Phrase.parseCanonical t words = .error .case := by
  rw [Phrase.parseCanonical, if_neg (not_not.mpr hsize)]
  simp only
  rw [if_neg (mt (any_gap _).mp h), if_pos ((any_odd _).mpr hodd)]

theorem device_gap (h : Gap (normalizePhraseInput dart t)) :
    validatePhrase dart t words = .error (.phrase .phraseSeparator) := by
  rw [validatePhrase, if_neg (not_not.mpr hsize)]
  exact if_pos ((any_gap _).mpr h)

theorem device_odd (h : ¬Gap (normalizePhraseInput dart t))
    (hodd : Odd (normalizePhraseInput dart t)) :
    validatePhrase dart t words = .error (.phrase .phraseCase) := by
  rw [validatePhrase, if_neg (not_not.mpr hsize)]
  simp only [isLowercaseAscii_eq]
  rw [if_neg (mt (any_gap _).mp h), if_pos ((any_odd _).mpr hodd)]

/-- A text without gaps and odd characters is refused for its words only. -/
theorem host_clean (h : ¬Gap (normalize t)) (hodd : ¬Odd (normalize t)) :
    codeOf PhraseError.code (Phrase.parseCanonical t words) ≠ some "phrase_separator" ∧
      codeOf PhraseError.code (Phrase.parseCanonical t words) ≠ some "phrase_case" := by
  rw [Phrase.parseCanonical, if_neg (not_not.mpr hsize)]
  simp only
  rw [if_neg (mt (any_gap _).mp h), if_neg (mt (any_odd _).mp hodd)]
  split
  · split
    · decide
    · constructor
      · intro h
        cases h
      · intro h
        cases h
  · decide

theorem device_clean (h : ¬Gap (normalizePhraseInput dart t))
    (hodd : ¬Odd (normalizePhraseInput dart t)) :
    codeOf Cause.code (validatePhrase dart t words) ≠ some "phrase_separator" ∧
      codeOf Cause.code (validatePhrase dart t words) ≠ some "phrase_case" := by
  rw [validatePhrase, if_neg (not_not.mpr hsize)]
  simp only [isLowercaseAscii_eq]
  rw [if_neg (mt (any_gap _).mp h), if_neg (mt (any_odd _).mp hodd)]
  split
  · decide
  · split
    · decide
    · exact ⟨nofun, nofun⟩

/-- The same normal form has the same verdict. -/
theorem same_of_normal (h : normalizePhraseInput dart t = normalize t) :
    SamePhrase (Phrase.parseCanonical t words) (validatePhrase dart t words) := by
  by_cases hgap : Gap (normalize t)
  · rw [host_gap hsize hgap, device_gap hsize (h.symm ▸ hgap)]
    rfl
  by_cases hodd : Odd (normalize t)
  · rw [host_odd hsize hgap hodd, device_odd hsize (h.symm ▸ hgap) (h.symm ▸ hodd)]
    rfl
  have hjoined : ['-'].intercalate (segmentWords (normalize t) ((normalize t).splitOn '-') words) =
      normalize t := by
    rw [segmentWords_eq_scan words (List.intercalate_splitOn '-')]
    exact (joined_scan words _).trans (List.intercalate_splitOn '-')
  rw [Phrase.parseCanonical, validatePhrase, if_neg (not_not.mpr hsize),
    if_neg (not_not.mpr hsize), h]
  simp only [isLowercaseAscii_eq]
  rw [if_neg (mt (any_gap _).mp hgap), if_neg (mt (any_odd _).mp hodd),
    if_neg (mt (any_gap _).mp hgap), if_neg (mt (any_odd _).mp hodd)]
  by_cases hsix : (segmentWords (normalize t) ((normalize t).splitOn '-') words).length = wordCount
  · rw [dif_pos hsix, if_neg (not_not.mpr hsix)]
    split
    · rfl
    · exact hjoined.symm
  · rw [dif_neg hsix, if_pos hsix]
    rfl

end Host

/-- Nothing is there, or a hyphen stands at an end. -/
def Edged (s : Text) : Prop := s = [] ∨ s.head? = some '-' ∨ s.getLast? = some '-'

instance (s : Text) : Decidable (Edged s) :=
  inferInstanceAs (Decidable (s = [] ∨ s.head? = some '-' ∨ s.getLast? = some '-'))

/-- Neither a separator nor an ASCII letter. -/
def hostForeign (c : Char) : Bool := !hostSeparator c && !c.toLower.isLower

def deviceForeign (dart : Dart) (c : Char) : Bool :=
  !deviceSeparator c && !(lowerUnit dart c).all Char.isLower

theorem tame_host : Tame hostSeparator (fun c => [c.toLower]) '-' where
  ne_nil := fun _ _ => List.cons_ne_nil _ _
  ne_sep := by
    intro c hc hmem
    have hplain : ¬(c = '-') ∧ ¬(isWhitespace c = true) := by
      simpa [hostSeparator] using hc
    exact (toLower_kept hplain.1 hplain.2).1 (List.mem_singleton.mp hmem).symm

theorem tame_device : Tame deviceSeparator (lowerUnit dart) '-' where
  ne_nil := by
    intro c _
    rw [lowerUnit]
    split
    · exact List.cons_ne_nil _ _
    · split
      · exact dart.toLowerCase_ne_nil c
      · exact List.cons_ne_nil _ _
  ne_sep := by
    intro c hc
    have hplain : ¬(c = '-') ∧ ¬(isSpace c = true) := by
      simpa [deviceSeparator] using hc
    rw [lowerUnit]
    split
    · next hascii =>
      have hspace : ¬isWhitespace c = true := by
        intro hw
        apply hplain.2
        simp only [isSpace, hw, Bool.true_and, Bool.or_eq_true, decide_eq_true_eq]
        omega
      intro hmem
      exact (toLower_kept hplain.1 hspace).1 (List.mem_singleton.mp hmem).symm
    · split
      · exact dart.toLowerCase_hyphen c hplain.1
      · intro hmem
        exact hplain.1 (List.mem_singleton.mp hmem).symm

/-- At the ends of a trimmed text the only separator is the hyphen. -/
theorem ends_iff {p sep : Char → Bool}
    (hsep : ∀ c, sep c = true ↔ c = '-' ∨ (sep c = true ∧ p c = true)) (t : Text) :
    (trimBy p t = [] ∨ (∃ c ∈ (trimBy p t).head?, sep c = true) ∨
      ∃ c ∈ (trimBy p t).getLast?, sep c = true) ↔ Edged (trimBy p t) := by
  have hend : ∀ (s : Text), (∃ c ∈ s.find? (fun c => !p c), sep c = true) ↔
      s.find? (fun c => !p c) = some '-' := by
    intro s
    constructor
    · rintro ⟨c, hc, hs⟩
      have hnot := List.find?_some hc
      obtain rfl | ⟨-, hp⟩ := (hsep c).mp hs
      · exact hc
      · rw [hp] at hnot
        exact absurd hnot Bool.false_ne_true
    · intro h
      exact ⟨'-', h, (hsep '-').mpr (.inl rfl)⟩
  rw [Edged, head?_trimBy, getLast?_trimBy, hend, hend]

theorem gap_host : Gap (normalize t) ↔ Edged (trimBy isWhitespace t) := by
  rw [Gap, normalize_eq, nil_mem_splitOn_collapse tame_host]
  apply ends_iff
  intro c
  simp only [hostSeparator, Bool.or_eq_true, decide_eq_true_eq]
  tauto

theorem isTrimmed_of_isSpace {c : Char} (h : isSpace c = true) : isTrimmed c = true := by
  simp only [isSpace, isTrimmed, Bool.or_eq_true, Bool.and_eq_true] at h ⊢
  tauto

theorem gap_device : Gap (normalizePhraseInput dart t) ↔ Edged (trimBy isTrimmed t) := by
  rw [Gap, normalizePhraseInput_eq, nil_mem_splitOn_collapse tame_device]
  apply ends_iff
  intro c
  have hspace := isTrimmed_of_isSpace (c := c)
  simp only [deviceSeparator, Bool.or_eq_true, decide_eq_true_eq]
  tauto

theorem odd_collapse {sep : Char → Bool} {out : Char → Text} (h : Tame sep out '-') (s : Text) :
    Odd (collapse sep out '-' false s) ↔
      ∃ c ∈ s, (!sep c && !(out c).all Char.isLower) = true := by
  rw [Odd, exists_mem_splitOn]
  constructor
  · rintro ⟨b, hb, hne, hlow⟩
    obtain ⟨c, hc, hsep, hout⟩ := (mem_collapse hne false s).mp hb
    refine ⟨c, hc, ?_⟩
    simp only [hsep, Bool.not_false, Bool.true_and, Bool.not_eq_true', List.all_eq_false]
    exact ⟨b, hout, by simp [hlow]⟩
  · rintro ⟨c, hc, hforeign⟩
    simp only [Bool.and_eq_true, Bool.not_eq_true', List.all_eq_false, Bool.not_eq_true]
      at hforeign
    obtain ⟨hsep, b, hout, hlow⟩ := hforeign
    have hne : b ≠ '-' := fun hb => h.ne_sep c hsep (hb ▸ hout)
    exact ⟨b, (mem_collapse hne false s).mpr ⟨c, hc, hsep, hout⟩, hne, hlow⟩

theorem odd_host :
    Odd (normalize t) ↔ ∃ c ∈ trimBy isWhitespace t, hostForeign c = true := by
  rw [normalize_eq, odd_collapse tame_host]
  simp only [hostForeign, List.all_cons, List.all_nil, Bool.and_true]

theorem odd_device : Odd (normalizePhraseInput dart t) ↔
    ∃ c ∈ trimBy isTrimmed t, deviceForeign dart c = true := by
  rw [normalizePhraseInput_eq, odd_collapse tame_device]
  rfl

/-- A hyphen that is left at an end by the Host is left there by the Device. -/
theorem edged_device (h : Edged (trimBy isWhitespace t)) : Edged (trimBy isTrimmed t) := by
  have hwider : ∀ c, isWhitespace c = true → isTrimmed c = true := by
    intro c hc
    rw [isTrimmed, hc, Bool.true_or]
  have hfind : ∀ s : Text, s.find? (fun c => !isWhitespace c) = some '-' →
      s.find? (fun c => !isTrimmed c) = some '-' := by
    intro s hs
    induction s with
    | nil => cases hs
    | cons c rest ih =>
      rw [List.find?_cons] at hs ⊢
      cases hw : isWhitespace c with
      | true =>
        rw [hw] at hs
        rw [hwider c hw]
        exact ih hs
      | false =>
        rw [hw] at hs
        obtain rfl : c = '-' := Option.some.inj hs
        rfl
  rw [Edged, head?_trimBy, getLast?_trimBy] at h ⊢
  obtain h | h | h := h
  · exact .inl (trimBy_eq_nil.mpr fun c hc => hwider c (trimBy_eq_nil.mp h c hc))
  · exact .inr (.inl (hfind t h))
  · exact .inr (.inr (hfind t.reverse h))

/-- Where neither side meets an odd character, they read the same. -/
theorem normal_of_plain (hhost : ∀ c ∈ trimBy isWhitespace t, hostForeign c = false)
    (hdevice : ∀ c ∈ trimBy isTrimmed t, deviceForeign dart c = false) :
    normalizePhraseInput dart t = normalize t := by
  have hmark : ∀ c ∈ t, c.toNat ≠ 0xFEFF := by
    intro c hc hmark
    obtain rfl : c = Char.ofNat 0xFEFF := by rw [← hmark, Char.ofNat_toNat]
    have hforeign := hhost _ (mem_trimBy (by decide) hc)
    revert hforeign
    decide
  have htrim : trimBy isTrimmed t = trimBy isWhitespace t := by
    apply trimBy_congr
    intro c hc
    simp [isTrimmed, hmark c hc]
  rw [normalize_eq, normalizePhraseInput_eq, htrim]
  rw [htrim] at hdevice
  have hnext : ∀ c ∈ trimBy isWhitespace t, c.toNat ≠ 0x85 := by
    intro c hc hnext
    obtain rfl : c = Char.ofNat 0x85 := by rw [← hnext, Char.ofNat_toNat]
    have hplain := hdevice _ hc
    rw [deviceForeign, lowerUnit, if_neg (by decide), if_pos (by decide),
      dart.toLowerCase_whitespace _ (by decide)] at hplain
    revert hplain
    decide
  have hsame : ∀ c ∈ trimBy isWhitespace t, deviceSeparator c = hostSeparator c := by
    intro c hc
    simp [deviceSeparator, hostSeparator, isSpace, hnext c hc, hmark c (trimBy_subset hc)]
  apply collapse_congr hsame
  intro c hc hsep
  have hletter := hhost c hc
  rw [hostForeign, ← hsame c hc, hsep, Bool.not_false, Bool.true_and, Bool.not_eq_false'] at hletter
  have hascii : c.toNat < 0x80 := by
    by_cases hupper : c.isUpper = true
    · have := isUpper_iff.mp hupper
      omega
    · rw [toLower_of_not_isUpper hupper] at hletter
      have := isLower_iff.mp hletter
      omega
  rw [lowerUnit, if_pos hascii]

/-- Both sides see a hyphen at an end, or neither does and odd characters are seen by both or by
none. -/
def ReadsAlike (dart : Dart) (t : Text) : Prop :=
  Edged (trimBy isWhitespace t) ∨
    (¬Edged (trimBy isTrimmed t) ∧
      ((∃ c ∈ trimBy isWhitespace t, hostForeign c = true) ↔
        ∃ c ∈ trimBy isTrimmed t, deviceForeign dart c = true))

theorem sized_iff (hsize : words.length = effWordlistEntryCount) :
    SamePhrase (Phrase.parseCanonical t words) (validatePhrase dart t words) ↔
      ReadsAlike dart t := by
  by_cases hhost : Edged (trimBy isWhitespace t)
  · rw [host_gap hsize ((gap_host).mpr hhost),
      device_gap hsize ((gap_device).mpr (edged_device hhost))]
    exact ⟨fun _ => .inl hhost, fun _ => rfl⟩
  have hgap : ¬Gap (normalize t) := mt (gap_host).mp hhost
  rw [ReadsAlike, or_iff_right hhost, ← odd_host, ← odd_device]
  by_cases hdevice : Edged (trimBy isTrimmed t)
  · constructor
    · intro hsame
      have hcodes := hsame.codes
      rw [device_gap hsize ((gap_device).mpr hdevice)] at hcodes
      by_cases hodd : Odd (normalize t)
      · rw [host_odd hsize hgap hodd] at hcodes
        exact absurd hcodes (by decide)
      · exact absurd hcodes (host_clean hsize hgap hodd).1
    · intro h
      exact absurd hdevice h.1
  rw [and_iff_right hdevice]
  have hgap' : ¬Gap (normalizePhraseInput dart t) := mt (gap_device).mp hdevice
  by_cases hodd : Odd (normalize t)
  · rw [host_odd hsize hgap hodd]
    by_cases hodd' : Odd (normalizePhraseInput dart t)
    · rw [device_odd hsize hgap' hodd']
      exact ⟨fun _ => ⟨fun _ => hodd', fun _ => hodd⟩, fun _ => rfl⟩
    · constructor
      · intro hsame
        exact absurd hsame.codes.symm (device_clean hsize hgap' hodd').2
      · intro h
        exact absurd (h.mp hodd) hodd'
  by_cases hodd' : Odd (normalizePhraseInput dart t)
  · rw [device_odd hsize hgap' hodd']
    constructor
    · intro hsame
      exact absurd hsame.codes (host_clean hsize hgap hodd).2
    · intro h
      exact absurd (h.mpr hodd') hodd
  · refine ⟨fun _ => ⟨fun h => absurd h hodd, fun h => absurd h hodd'⟩, fun _ => ?_⟩
    apply same_of_normal hsize
    apply normal_of_plain
    · intro c hc
      rw [← Bool.not_eq_true]
      exact fun h => hodd ((odd_host).mpr ⟨c, hc, h⟩)
    · intro c hc
      rw [← Bool.not_eq_true]
      exact fun h => hodd' ((odd_device).mpr ⟨c, hc, h⟩)

/-- A list of another size is refused by both. -/
theorem unsized_same (hsize : words.length ≠ effWordlistEntryCount) :
    SamePhrase (Phrase.parseCanonical t words) (validatePhrase dart t words) := by
  rw [Phrase.parseCanonical, validatePhrase, if_pos hsize, if_pos hsize]
  rfl

theorem same_phrase_iff :
    SamePhrase (Phrase.parseCanonical t words) (validatePhrase dart t words) ↔
      words.length ≠ effWordlistEntryCount ∨ ReadsAlike dart t := by
  by_cases hsize : words.length = effWordlistEntryCount
  · rw [sized_iff hsize, or_iff_right (not_not.mpr hsize)]
  · exact ⟨fun _ => .inl hsize, fun _ => unsized_same hsize⟩

end HerdrMobile.App.PhraseAgreement
