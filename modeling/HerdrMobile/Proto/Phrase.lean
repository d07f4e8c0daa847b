import HerdrMobile.Lib.Strings

/-!
# The pairing phrase

`phrase.rs` of the protocol crate: six entries of a word list joined by hyphens.
An entry may hold a hyphen itself, so the parser cannot simply split; it scans
the hyphen-separated tokens from the left and joins two of them where the join is
an entry. On a list in which no left half of a hyphenated entry is an entry, the
scan gives back the entries a phrase was made of.
-/

namespace HerdrMobile.Proto

open Lib.Strings

def wordCount : Nat := 6

def effWordlistEntryCount : Nat := 7776

inductive PhraseError where
  | generate
  | wordListSize (found : Nat)
  | wordCount
  | wordUnknown
  | separator
  | case
deriving DecidableEq, Repr

/-- The wire code, where the candidate is at fault. -/
def PhraseError.code : PhraseError → Option String
  | .wordCount => some "phrase_word_count"
  | .wordUnknown => some "phrase_word_unknown"
  | .separator => some "phrase_separator"
  | .case => some "phrase_case"
  | .generate | .wordListSize _ => none

/-- The canonical text beside the words it was resolved to. -/
structure Phrase where
  canonical : Text
  words : List Text
  six : words.length = wordCount
deriving DecidableEq

@[grind =]
def normalizeFrom : Bool → Text → Text
  | _, [] => []
  | lastWasSeparator, ch :: rest =>
    if ch = '-' ∨ isWhitespace ch then
      if lastWasSeparator then normalizeFrom true rest else '-' :: normalizeFrom true rest
    else ch.toLower :: normalizeFrom false rest

/-- Manual entry as it is validated: trimmed, lower case, every run of spaces or
hyphens one hyphen. -/
def normalize (input : Text) : Text := normalizeFrom false (trim input)

/-- The scan of `segment_words` from the token that starts at `offset`. The
offsets count characters: the parser has checked the tokens to be ASCII. -/
@[grind =]
def segmentFrom (normalized : Text) (words : List Text) : Nat → List Text → List Text
  | _, [] => []
  | _, [part] => [part]
  | offset, part :: next :: rest =>
    let joined := (normalized.drop offset).take (part.length + 1 + next.length)
    if joined ∈ words then
      joined :: segmentFrom normalized words (offset + part.length + 1 + next.length + 1) rest
    else
      part :: segmentFrom normalized words (offset + part.length + 1) (next :: rest)

def segmentWords (normalized : Text) (parts words : List Text) : List Text :=
  segmentFrom normalized words 0 parts

def isLowercase (word : Text) : Bool := word.all Char.isLower

/-- `drawn` is what the random source gives: one index for each word, or nothing. -/
def Phrase.generate (words : List Text) (drawn : Option (Fin wordCount → Fin words.length)) :
    Except PhraseError Phrase :=
  if words.length ≠ effWordlistEntryCount then .error (.wordListSize words.length)
  else
    match drawn with
    | none => .error .generate
    | some draw =>
      let chosen := List.ofFn fun i => words.get (draw i)
      .ok ⟨['-'].intercalate chosen, chosen, List.length_ofFn⟩

theorem Phrase.generate_ok {words : List Text} (h : words.length = effWordlistEntryCount)
    (draw : Fin wordCount → Fin words.length) :
    Phrase.generate words (some draw) = .ok ⟨['-'].intercalate (List.ofFn fun i =>
      words.get (draw i)), List.ofFn fun i => words.get (draw i), List.length_ofFn⟩ :=
  if_neg (not_not.mpr h)

def Phrase.parseCanonical (candidate : Text) (words : List Text) : Except PhraseError Phrase :=
  if words.length ≠ effWordlistEntryCount then .error (.wordListSize words.length)
  else
    let normalized := normalize candidate
    let parts := normalized.splitOn '-'
    if parts.any List.isEmpty then .error .separator
    else if parts.any fun word => !isLowercase word then .error .case
    else
      let segmented := segmentWords normalized parts words
      if six : segmented.length = wordCount then
        if segmented.any fun word => word ∉ words then .error .wordUnknown
        else .ok ⟨normalized, segmented, six⟩
      else .error .wordCount

def Phrase.displayForm (p : Phrase) : Text := [' '].intercalate p.words

/-- Made of lower-case letters and hyphens only. -/
def IsCanonical (t : Text) : Prop := ∀ c ∈ t, c.isLower ∨ c = '-'

instance (t : Text) : Decidable (IsCanonical t) :=
  List.decidableBAll (fun c : Char => c.isLower = true ∨ c = '-') t

/-- The entries joined by hyphens. -/
def joined (chosen : List Text) : Text := ['-'].intercalate chosen

/-- One or two non-empty runs of lower-case letters with a hyphen between. -/
def IsEntry (entry : Text) : Prop :=
  (entry.splitOn '-').length ≤ 2 ∧ ∀ part ∈ entry.splitOn '-', part ≠ [] ∧ isLowercase part

/-- A word list on which the scan is unambiguous. -/
structure WordList where
  entries : List Text
  size : entries.length = effWordlistEntryCount
  shape : ∀ entry ∈ entries, IsEntry entry
  halves : ∀ entry ∈ entries, ∀ left right, entry.splitOn '-' = [left, right] → left ∉ entries

theorem isLower_iff {c : Char} : c.isLower ↔ 97 ≤ c.toNat ∧ c.toNat ≤ 122 := by
  change (decide (c.val ≥ 'a'.val) && decide (c.val ≤ 'z'.val)) = true ↔ _
  rw [Bool.and_eq_true, decide_eq_true_eq, decide_eq_true_eq]
  exact Iff.rfl

theorem isUpper_iff {c : Char} : c.isUpper ↔ 65 ≤ c.toNat ∧ c.toNat ≤ 90 := by
  change decide (c.val ≥ 'A'.val ∧ c.val ≤ 'Z'.val) = true ↔ _
  rw [decide_eq_true_eq]
  exact Iff.rfl

theorem not_whitespace_of_isLower {c : Char} (h : c.isLower) : isWhitespace c = false := by
  have := (isLower_iff).mp h
  simp only [isWhitespace, Bool.or_eq_false_iff, Bool.and_eq_false_iff, decide_eq_false_iff_not]
  omega

theorem ne_hyphen_of_isLower {c : Char} (h : c.isLower) : c ≠ '-' := by
  rintro rfl
  exact absurd h (by decide)

theorem toLower_of_not_isUpper {c : Char} (h : ¬c.isUpper) : c.toLower = c :=
  dif_neg fun hrange => h ((isUpper_iff).mpr hrange)

theorem isLower_toLower {c : Char} (h : c.isUpper) : c.toLower.isLower := by
  have hrange := (isUpper_iff).mp h
  have hlower : c.toLower.toNat = (c.val + 32).toNat :=
    congrArg Char.toNat (dif_pos (c := c.val ≥ 'A'.val ∧ c.val ≤ 'Z'.val) hrange)
  have hval : (c.val + 32).toNat = c.toNat + 32 := by
    rw [UInt32.toNat_add]
    exact Nat.mod_eq_of_lt (show c.toNat + 32 < 2 ^ 32 by omega)
  rw [isLower_iff, hlower, hval]
  omega

theorem toLower_of_isLower {c : Char} (h : c.isLower) : c.toLower = c :=
  toLower_of_not_isUpper fun hupper => by
    have := (isLower_iff).mp h
    have := (isUpper_iff).mp hupper
    omega

/-- An entry is a run of letters, or two with a hyphen between. -/
theorem IsEntry.cases {entry : Text} (h : IsEntry entry) :
    (entry.splitOn '-' = [entry] ∧ entry ≠ [] ∧ isLowercase entry) ∨
    ∃ left right, entry.splitOn '-' = [left, right] ∧ entry = left ++ '-' :: right ∧
      left ≠ [] ∧ isLowercase left ∧ right ≠ [] ∧ isLowercase right := by
  have hjoin : ['-'].intercalate (entry.splitOn '-') = entry := List.intercalate_splitOn '-'
  obtain ⟨hlen, hparts⟩ := h
  rcases hs : entry.splitOn '-' with _ | ⟨left, _ | ⟨right, _ | ⟨third, more⟩⟩⟩
  · exact absurd hs (List.splitOn_ne_nil _ _)
  · rw [hs] at hjoin hparts
    obtain rfl : left = entry := by simpa using hjoin
    obtain ⟨hne, hlow⟩ := hparts left (by simp)
    exact .inl ⟨rfl, hne, hlow⟩
  · rw [hs] at hjoin hparts
    obtain ⟨hl, hlow⟩ := hparts left (by simp)
    obtain ⟨hr, hrow⟩ := hparts right (by simp)
    exact .inr ⟨left, right, rfl, by simpa using hjoin.symm, hl, hlow, hr, hrow⟩
  · simp [hs] at hlen

theorem normalizeFrom_lower {word : Text} (h : isLowercase word) (rest : Text) :
    normalizeFrom false (word ++ rest) = word ++ normalizeFrom false rest := by
  induction word with
  | nil => rfl
  | cons c cs ih =>
    obtain ⟨hc, hcs⟩ : c.isLower = true ∧ isLowercase cs := by simpa [isLowercase] using h
    have hsep : ¬(c = '-' ∨ isWhitespace c) := by
      simp [ne_hyphen_of_isLower hc, not_whitespace_of_isLower hc]
    rw [List.cons_append, normalizeFrom, if_neg hsep, toLower_of_isLower hc, ih hcs,
      List.cons_append]

/-- A run of letters leaves what stood before it behind. -/
theorem normalizeFrom_word {word : Text} (h : isLowercase word) (hne : word ≠ [])
    (last : Bool) (rest : Text) :
    normalizeFrom last (word ++ rest) = word ++ normalizeFrom false rest := by
  obtain ⟨c, cs, rfl⟩ := List.exists_cons_of_ne_nil hne
  obtain ⟨hc, hcs⟩ : c.isLower = true ∧ isLowercase cs := by simpa [isLowercase] using h
  have hsep : ¬(c = '-' ∨ isWhitespace c) := by
    simp [ne_hyphen_of_isLower hc, not_whitespace_of_isLower hc]
  rw [List.cons_append, normalizeFrom, if_neg hsep, toLower_of_isLower hc,
    normalizeFrom_lower hcs, List.cons_append]

theorem normalizeFrom_separator {sep : Char} (h : sep = '-' ∨ isWhitespace sep) (rest : Text) :
    normalizeFrom false (sep :: rest) = '-' :: normalizeFrom true rest := by
  rw [normalizeFrom, if_pos h]
  rfl

theorem normalizeFrom_entry {entry : Text} (h : IsEntry entry) (last : Bool) (rest : Text) :
    normalizeFrom last (entry ++ rest) = entry ++ normalizeFrom false rest := by
  rcases h.cases with ⟨-, hne, hlow⟩ | ⟨left, right, -, rfl, hl, hlow, hr, hrow⟩
  · exact normalizeFrom_word hlow hne last rest
  · rw [List.append_assoc, normalizeFrom_word hlow hl, List.cons_append,
      normalizeFrom_separator (.inl rfl), normalizeFrom_word hrow hr, List.append_assoc,
      List.cons_append]

theorem normalizeFrom_join {sep : Char} (hsep : sep = '-' ∨ isWhitespace sep)
    {chosen : List Text} (hc : ∀ entry ∈ chosen, IsEntry entry) (last : Bool) :
    normalizeFrom last ([sep].intercalate chosen) = joined chosen := by
  induction chosen generalizing last with
  | nil => rfl
  | cons entry rest ih =>
    have hentry := hc entry List.mem_cons_self
    rcases eq_or_ne rest [] with rfl | hne
    · have h := normalizeFrom_entry hentry last []
      simpa [joined, normalizeFrom] using h
    · rw [joined, List.intercalate_cons_of_ne_nil hne, List.intercalate_cons_of_ne_nil hne,
        List.append_assoc, normalizeFrom_entry hentry, List.singleton_append,
        normalizeFrom_separator hsep, ih fun e he => hc e (List.mem_cons_of_mem entry he),
        List.append_assoc, List.singleton_append, joined]

theorem IsEntry.ne_nil {entry : Text} (h : IsEntry entry) : entry ≠ [] := by
  rcases h.cases with ⟨-, hne, -⟩ | ⟨left, right, -, rfl, -⟩
  · exact hne
  · simp

theorem IsEntry.not_whitespace {entry : Text} (h : IsEntry entry) :
    ∀ c ∈ entry, ¬isWhitespace c := by
  have hword : ∀ word : Text, isLowercase word → ∀ c ∈ word, ¬isWhitespace c := by
    intro word hw c hc
    simp [not_whitespace_of_isLower (List.all_eq_true.mp hw c hc)]
  intro c hc
  rcases h.cases with ⟨-, -, hlow⟩ | ⟨left, right, -, rfl, -, hlow, -, hrow⟩
  · exact hword entry hlow c hc
  · rcases List.mem_append.mp hc with hc | hc
    · exact hword left hlow c hc
    · rcases List.mem_cons.mp hc with rfl | hc
      · decide
      · exact hword right hrow c hc

theorem tight_join (sep : Char) {chosen : List Text} (hc : ∀ entry ∈ chosen, IsEntry entry) :
    Tight ([sep].intercalate chosen) := by
  rcases List.eq_nil_or_concat' chosen with rfl | ⟨front, last, rfl⟩
  · exact ⟨by simp, by simp⟩
  have hlast := hc last (by simp)
  refine ⟨?_, ?_⟩
  · obtain ⟨first, rest, hs⟩ := List.exists_cons_of_ne_nil (List.concat_ne_nil last front)
    have hfirst := hc first (by simp [hs])
    rw [hs, head?_intercalate _ hfirst.ne_nil]
    exact (tight_of_forall hfirst.not_whitespace).1
  · rw [getLast?_intercalate _ hlast.ne_nil]
    exact (tight_of_forall hlast.not_whitespace).2

/-- Entries joined by hyphens, or by white space, normalize to the canonical text. -/
theorem normalize_join {sep : Char} (hsep : sep = '-' ∨ isWhitespace sep)
    {chosen : List Text} (hc : ∀ entry ∈ chosen, IsEntry entry) :
    normalize ([sep].intercalate chosen) = joined chosen := by
  rw [normalize, trim_eq_self (tight_join sep hc), normalizeFrom_join hsep hc]

/-- Text that a normalisation leaves as it is; `last` says whether a separator
stands before it. -/
@[grind =]
def Settled : Bool → Text → Prop
  | _, [] => True
  | last, c :: rest =>
    (c = '-' ∧ last = false ∧ Settled true rest) ∨
    (c ≠ '-' ∧ ¬isWhitespace c ∧ c.toLower = c ∧ Settled false rest)

theorem toLower_kept {c : Char} (hc : c ≠ '-') (hw : ¬isWhitespace c) :
    c.toLower ≠ '-' ∧ ¬isWhitespace c.toLower ∧ c.toLower.toLower = c.toLower := by
  by_cases hu : c.isUpper
  · have hlow := isLower_toLower hu
    have hw' := not_whitespace_of_isLower hlow
    exact ⟨ne_hyphen_of_isLower hlow, by simp [hw'], toLower_of_isLower hlow⟩
  · rw [toLower_of_not_isUpper hu]
    exact ⟨hc, hw, toLower_of_not_isUpper hu⟩

theorem settled_normalizeFrom (last : Bool) (t : Text) : Settled last (normalizeFrom last t) := by
  induction t generalizing last with
  | nil => trivial
  | cons c rest ih =>
    rw [normalizeFrom]
    split
    · cases last with
      | true => exact ih true
      | false => exact .inl ⟨rfl, rfl, ih true⟩
    · next hc =>
      obtain ⟨hne, hw, hlow⟩ := toLower_kept (fun h => hc (.inl h)) (fun h => hc (.inr h))
      exact .inr ⟨hne, hw, hlow, ih false⟩

theorem normalizeFrom_settled {last : Bool} {t : Text} (h : Settled last t) :
    normalizeFrom last t = t := by
  induction t generalizing last with
  | nil => rfl
  | cons c rest ih =>
    rcases h with ⟨rfl, rfl, h⟩ | ⟨hc, hw, hlow, h⟩
    · rw [normalizeFrom_separator (.inl rfl), ih h]
    · rw [normalizeFrom, if_neg (by simp [hc, hw]), hlow, ih h]

theorem Settled.not_whitespace {last : Bool} {t : Text} (h : Settled last t) :
    ∀ c ∈ t, ¬isWhitespace c := by
  induction t generalizing last with
  | nil => simp
  | cons c rest ih =>
    rcases h with ⟨rfl, -, h⟩ | ⟨-, hw, -, h⟩
    · exact List.forall_mem_cons.mpr ⟨by decide, ih h⟩
    · exact List.forall_mem_cons.mpr ⟨hw, ih h⟩

/-- What has only lower-case tokens between hyphens is canonical. -/
theorem isCanonical_of_tokens {t : Text}
    (h : ∀ word ∈ t.splitOn '-', isLowercase word) : IsCanonical t := by
  have hmem : ∀ parts : List Text, (∀ word ∈ parts, isLowercase word) →
      IsCanonical (joined parts) := by
    intro parts hparts
    induction parts with
    | nil => simp [IsCanonical, joined]
    | cons part rest ih =>
      have hpart : ∀ c ∈ part, c.isLower := List.all_eq_true.mp (hparts part List.mem_cons_self)
      have hrest := ih fun word hw => hparts word (List.mem_cons_of_mem part hw)
      rcases eq_or_ne rest [] with rfl | hne
      · rw [joined, List.intercalate_singleton]
        exact fun c hc => .inl (hpart c hc)
      · rw [joined, List.intercalate_cons_of_ne_nil hne]
        intro c hc
        simp only [List.mem_append, List.mem_singleton, or_assoc] at hc
        rcases hc with hc | rfl | hc
        · exact .inl (hpart c hc)
        · exact .inr rfl
        · exact hrest c hc
  have hjoin := hmem _ h
  rwa [joined, List.intercalate_splitOn] at hjoin

theorem normalize_normalize (input : Text) : normalize (normalize input) = normalize input := by
  have h : Settled false (normalize input) := settled_normalizeFrom false (trim input)
  rw [normalize, trim_eq_self (tight_of_forall h.not_whitespace), normalizeFrom_settled h]

end HerdrMobile.Proto
