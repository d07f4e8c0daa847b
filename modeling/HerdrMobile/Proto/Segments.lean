import HerdrMobile.Proto.Phrase

/-!
# The scan recovers the entries

`segment_words` reads the tokens as slices of the text. `scan` is the same walk on
the tokens alone. On a list of the right shape it undoes the split of every choice
of entries, because a token that could be taken for a left half is no entry itself.
-/

namespace HerdrMobile.Proto

open Lib.Strings

/-- The walk of `segment_words`, with the joined form made from the tokens. -/
def scan (words : List Text) : List Text → List Text
  | [] => []
  | [part] => [part]
  | part :: next :: rest =>
    if part ++ '-' :: next ∈ words then (part ++ '-' :: next) :: scan words rest
    else part :: scan words (next :: rest)

theorem joined_cons_cons (part next : Text) (rest : List Text) :
    joined (part :: next :: rest) = part ++ '-' :: joined (next :: rest) := by
  rw [joined, List.intercalate_cons_cons, List.append_assoc, List.singleton_append, joined]

theorem joined_cons_of_ne_nil (part : Text) {rest : List Text} (h : rest ≠ []) :
    joined (part :: rest) = part ++ '-' :: joined rest := by
  obtain ⟨next, more, rfl⟩ := List.exists_cons_of_ne_nil h
  exact joined_cons_cons part next more

theorem take_joined (part next : Text) (rest : List Text) :
    (joined (part :: next :: rest)).take (part.length + 1 + next.length)
      = part ++ '-' :: next := by
  have htake : ∀ tail, ((part ++ '-' :: next) ++ tail).take (part.length + 1 + next.length)
      = part ++ '-' :: next := fun tail => List.take_left' (by simp; omega)
  rw [joined_cons_cons]
  rcases eq_or_ne rest [] with rfl | hne
  · simpa [joined] using htake []
  · simpa [joined_cons_of_ne_nil next hne] using htake ('-' :: joined rest)

theorem drop_joined (part : Text) (rest : List Text) :
    (joined (part :: rest)).drop (part.length + 1) = joined rest := by
  rcases eq_or_ne rest [] with rfl | hne
  · simp [joined]
  · rw [joined_cons_of_ne_nil part hne, List.append_cons]
    exact List.drop_left' (by simp)

/-- Read from where its tokens start, the text gives the slices of the walk. -/
theorem segmentFrom_eq_scan {normalized : Text} (words : List Text) {offset : Nat}
    {parts : List Text} (h : normalized.drop offset = joined parts) :
    segmentFrom normalized words offset parts = scan words parts := by
  induction parts using scan.induct words generalizing offset with
  | case1 | case2 => rfl
  | case3 part next rest hmem ih =>
    have hrest : normalized.drop (offset + part.length + 1 + next.length + 1) = joined rest := by
      calc normalized.drop (offset + part.length + 1 + next.length + 1)
          = ((normalized.drop offset).drop (part.length + 1)).drop (next.length + 1) := by
            simp only [List.drop_drop, Nat.add_assoc]
        _ = joined rest := by rw [h, drop_joined, drop_joined]
    simp only [segmentFrom, h, take_joined]
    rw [scan, if_pos hmem, if_pos hmem, ih hrest]
  | case4 part next rest hmem ih =>
    have hrest : normalized.drop (offset + part.length + 1) = joined (next :: rest) := by
      rw [Nat.add_assoc, ← List.drop_drop, h, drop_joined]
    simp only [segmentFrom, h, take_joined]
    rw [scan, if_neg hmem, if_neg hmem, ih hrest]

theorem segmentWords_eq_scan {normalized : Text} {parts : List Text} (words : List Text)
    (h : joined parts = normalized) : segmentWords normalized parts words = scan words parts :=
  segmentFrom_eq_scan words h.symm

theorem scan_ne_nil (words : List Text) {parts : List Text} (h : parts ≠ []) :
    scan words parts ≠ [] := by
  induction parts using scan.induct words with
  | case1 => exact absurd rfl h
  | case2 => exact List.cons_ne_nil _ _
  | case3 part next rest hmem => rw [scan, if_pos hmem]; exact List.cons_ne_nil _ _
  | case4 part next rest hmem => rw [scan, if_neg hmem]; exact List.cons_ne_nil _ _

/-- Whatever the walk joins, the text stays the same. -/
theorem joined_scan (words parts : List Text) : joined (scan words parts) = joined parts := by
  induction parts using scan.induct words with
  | case1 | case2 => rfl
  | case3 part next rest hmem ih =>
    rw [scan, if_pos hmem, joined_cons_cons]
    rcases eq_or_ne rest [] with rfl | hne
    · simp [scan, joined]
    · rw [joined_cons_of_ne_nil _ (scan_ne_nil words hne), ih, joined_cons_of_ne_nil next hne]
      simp
  | case4 part next rest hmem ih =>
    rw [scan, if_neg hmem, joined_cons_of_ne_nil _ (scan_ne_nil words (List.cons_ne_nil _ _)), ih,
      joined_cons_cons]

/-- An entry that is one token never swallows the token after it. -/
theorem WordList.not_joined {list : WordList} {entry : Text} (he : entry ∈ list.entries)
    (hone : entry.splitOn '-' = [entry]) {next : Text} (hnext : '-' ∉ next) :
    entry ++ '-' :: next ∉ list.entries := by
  intro hmem
  have hsplit : (entry ++ '-' :: next).splitOn '-' = [entry, next] := by
    rw [List.splitOn_append_cons_self, hone, List.splitOn_eq_singleton hnext]
    rfl
  exact list.halves _ hmem entry next hsplit he

/-- The walk over the tokens of entries gives the entries: one entry at a time. -/
theorem scan_tokens (list : WordList) {chosen : List Text}
    (hc : ∀ entry ∈ chosen, entry ∈ list.entries) :
    scan list.entries (chosen.flatMap (List.splitOn '-')) = chosen := by
  induction chosen with
  | nil => rfl
  | cons entry rest ih =>
    have he := hc entry List.mem_cons_self
    have hrest := ih fun e h => hc e (List.mem_cons_of_mem entry h)
    rw [List.flatMap_cons]
    rcases (list.shape entry he).cases with ⟨hone, -⟩ | ⟨left, right, htwo, heq, -⟩
    · rw [hone, List.singleton_append]
      rcases hs : rest.flatMap (List.splitOn '-') with _ | ⟨next, more⟩
      · rw [hs] at hrest
        rw [← hrest, scan, scan]
      · have hnext : '-' ∉ next := by
          obtain ⟨e, -, hmem⟩ := List.mem_flatMap.mp (hs ▸ List.mem_cons_self : next ∈ _)
          exact not_mem_of_mem_splitOn hmem
        rw [scan, if_neg (WordList.not_joined he hone hnext), ← hs, hrest]
    · rw [htwo, List.cons_append, List.singleton_append, scan, ← heq, if_pos he, hrest]

namespace Phrase

/-- A text whose normal form is a join of six entries parses to them. -/
theorem parseCanonical_of_joined (list : WordList) {candidate : Text} {chosen : List Text}
    (six : chosen.length = wordCount) (hc : ∀ entry ∈ chosen, entry ∈ list.entries)
    (hn : normalize candidate = joined chosen) :
    parseCanonical candidate list.entries = .ok ⟨joined chosen, chosen, six⟩ := by
  have hne : chosen ≠ [] := by
    rintro rfl
    exact absurd six (by decide)
  have hparts : (joined chosen).splitOn '-' = chosen.flatMap (List.splitOn '-') :=
    splitOn_join '-' hne
  have htoken : ∀ part ∈ (joined chosen).splitOn '-', part ≠ [] ∧ isLowercase part := by
    intro part hp
    rw [hparts] at hp
    obtain ⟨entry, he, hp⟩ := List.mem_flatMap.mp hp
    exact (list.shape entry (hc entry he)).2 part hp
  have hempty : ((joined chosen).splitOn '-').any List.isEmpty = false := by
    simpa using fun part hp => (htoken part hp).1
  have hcase : ((joined chosen).splitOn '-').any (fun word => !isLowercase word) = false := by
    simpa using fun part hp => (htoken part hp).2
  have hsegmented : segmentWords (joined chosen) ((joined chosen).splitOn '-') list.entries
      = chosen := by
    rw [segmentWords_eq_scan _ (List.intercalate_splitOn '-'), hparts, scan_tokens list hc]
  have hknown : chosen.any (fun word => word ∉ list.entries) = false := by simpa using hc
  simp only [parseCanonical, list.size, hn, hempty, hcase, hsegmented, hknown, six]
  simp

/-- What the parser accepts is a join of six entries of the list, after
normalisation. -/
theorem of_parseCanonical {candidate : Text} {words : List Text} {p : Phrase}
    (h : parseCanonical candidate words = .ok p) :
    normalize candidate = p.canonical ∧ p.canonical = joined p.words ∧
      (∀ word ∈ p.words, word ∈ words) ∧ IsCanonical p.canonical := by
  simp only [parseCanonical] at h
  split at h
  · cases h
  split at h
  · cases h
  split at h
  · cases h
  next hcase =>
  split at h
  · split at h
    · cases h
    · next hknown =>
      have hjoined : joined (segmentWords (normalize candidate)
          ((normalize candidate).splitOn '-') words) = normalize candidate := by
        rw [segmentWords_eq_scan words (List.intercalate_splitOn '-'), joined_scan]
        exact List.intercalate_splitOn '-'
      cases h
      exact ⟨rfl, hjoined.symm, by simpa using hknown,
        isCanonical_of_tokens (by simpa using hcase)⟩
  · cases h

end Phrase

/-- The phrase codec: six entries come back from their join and from the form that
is displayed, normalising twice is normalising once, and no text is accepted whose
normal form is not such a join. -/
theorem phrase_recovered (list : WordList) :
    (∀ chosen : List Text, chosen.length = wordCount → (∀ entry ∈ chosen, entry ∈ list.entries) →
      ∃ p, Phrase.parseCanonical (joined chosen) list.entries = .ok p ∧ p.words = chosen ∧
        p.canonical = joined chosen ∧ normalize p.displayForm = p.canonical ∧
        Phrase.parseCanonical p.displayForm list.entries = .ok p) ∧
    (∀ input, normalize (normalize input) = normalize input) ∧
    ∀ candidate p, Phrase.parseCanonical candidate list.entries = .ok p →
      ∃ chosen : List Text, chosen.length = wordCount ∧ (∀ entry ∈ chosen, entry ∈ list.entries) ∧
        normalize candidate = joined chosen ∧ p.words = chosen := by
  refine ⟨?_, normalize_normalize, ?_⟩
  · intro chosen six hc
    have hentry : ∀ entry ∈ chosen, IsEntry entry := fun entry he =>
      list.shape entry (hc entry he)
    have hcanonical : normalize (joined chosen) = joined chosen :=
      normalize_join (.inl rfl) hentry
    have hdisplay : normalize ([' '].intercalate chosen) = joined chosen :=
      normalize_join (.inr (by decide)) hentry
    exact ⟨⟨joined chosen, chosen, six⟩, Phrase.parseCanonical_of_joined list six hc hcanonical,
      rfl, rfl, hdisplay, Phrase.parseCanonical_of_joined list six hc hdisplay⟩
  · intro candidate p hp
    obtain ⟨hn, hjoined, hwords, -⟩ := Phrase.of_parseCanonical hp
    exact ⟨p.words, p.six, hwords, hn.trans hjoined, rfl⟩

/-- A list with one hyphenated entry. -/
def tShirts : WordList where
  entries := "t-shirt".toList :: .replicate 7775 "shirt".toList
  size := by rw [List.length_cons, List.length_replicate]; rfl
  shape := by
    intro entry h
    rcases List.mem_cons.mp h with rfl | h
    · exact ⟨by decide, by decide⟩
    · obtain rfl := List.eq_of_mem_replicate h
      exact ⟨by decide, by decide⟩
  halves := by
    intro entry h left right hs hmem
    rcases List.mem_cons.mp h with rfl | h
    · obtain rfl : left = "t".toList := by
        have hparts : "t-shirt".toList.splitOn '-' = ["t".toList, "shirt".toList] := by decide
        rw [hparts] at hs
        exact (List.cons.inj hs).1.symm
      rcases List.mem_cons.mp hmem with h | h
      · exact absurd h (by decide)
      · exact absurd (List.eq_of_mem_replicate h) (by decide)
    · obtain rfl := List.eq_of_mem_replicate h
      have hparts : "shirt".toList.splitOn '-' = ["shirt".toList] := by decide
      rw [hparts] at hs
      cases hs

theorem phrase_recovered_tShirts :
    ∃ p, Phrase.parseCanonical (joined (.replicate 6 "t-shirt".toList)) tShirts.entries = .ok p ∧
      p.words = .replicate 6 "t-shirt".toList := by
  obtain ⟨p, hp, hw, -⟩ := (phrase_recovered tShirts).1 (.replicate 6 "t-shirt".toList) rfl
    fun entry h => List.eq_of_mem_replicate h ▸ List.mem_cons_self
  exact ⟨p, hp, hw⟩

/-- A list of another size is refused, and so is a join of empty entries; and a
text can be accepted that is no join of entries itself. -/
theorem phrase_needs_shape :
    Phrase.parseCanonical (joined (.replicate 6 "a".toList)) ["a".toList]
      = .error (.wordListSize 1) ∧
    Phrase.parseCanonical (joined (.replicate 6 [])) (.replicate effWordlistEntryCount [])
      = .error .separator ∧
    (∃ p, Phrase.parseCanonical "Shirt shirt shirt shirt shirt shirt".toList tShirts.entries
      = .ok p) ∧
    ¬∃ chosen : List Text, (∀ entry ∈ chosen, entry ∈ tShirts.entries) ∧
      joined chosen = "Shirt shirt shirt shirt shirt shirt".toList := by
  refine ⟨by decide, ?_,
    ⟨⟨joined (.replicate 6 "shirt".toList), .replicate 6 "shirt".toList, rfl⟩, ?_⟩, ?_⟩
  · rw [Phrase.parseCanonical, if_neg (by simp)]
    rfl
  · refine Phrase.parseCanonical_of_joined tShirts rfl ?_
      (by decide)
    intro entry h
    obtain rfl := List.eq_of_mem_replicate h
    exact List.mem_cons_of_mem _ (List.mem_replicate.mpr ⟨by decide, rfl⟩)
  · rintro ⟨chosen, hc, hj⟩
    have hn : normalize (joined chosen) = joined chosen :=
      normalize_join (.inl rfl) fun entry he => tShirts.shape entry (hc entry he)
    rw [hj] at hn
    exact absurd hn (by decide)

end HerdrMobile.Proto
