import HerdrMobile.App.UriAgreement

/-!
# Pairing input on both sides

When a Host and a Device make the same of a text, and what becomes of the texts that the Host
itself builds.
-/
namespace HerdrMobile.App.InputAgreement

open HerdrMobile.Lib HerdrMobile.Lib.Strings HerdrMobile.Lib.Utf8 HerdrMobile.Proto
open HerdrMobile.App.PairingText HerdrMobile.App.PhraseAgreement HerdrMobile.App.UriAgreement
open HerdrMobile.App.CodeUnits (codeUnits_ascii)
open HerdrMobile.App.DartUri (Components)
open HerdrMobile.App.OriginText (withUri Writes plainParts parse_ok parse_error)
open HerdrMobile.Proto (PairingUri)

set_option autoImplicit false

variable {ε : Type} {E : Engine ε} {dart : Dart} {t : Text} {words : List Text}

/-- A small letter, a hyphen or a space. -/
def isShown (c : Char) : Bool := c.isLower || c = '-' || c = ' '

theorem shown_plain (dart : Dart) {c : Char} (h : isShown c = true) :
    hostForeign c = false ∧ deviceForeign dart c = false := by
  simp only [isShown, Bool.or_eq_true, decide_eq_true_eq] at h
  obtain (hlow | rfl) | rfl := h
  · have hrange := isLower_iff.mp hlow
    have hsame := toLower_of_isLower hlow
    have hunit : lowerUnit dart c = [c] := by
      rw [lowerUnit, if_pos (by omega), hsame]
    simp [hostForeign, deviceForeign, hsame, hlow, hunit]
  · exact ⟨by decide, rfl⟩
  · exact ⟨by decide, rfl⟩

theorem entry_canonical {entry : Text} (h : IsEntry entry) : IsCanonical entry :=
  isCanonical_of_tokens fun word hword => (h.2 word hword).2

theorem joined_canonical (list : WordList) {chosen : List Text}
    (hc : ∀ entry ∈ chosen, entry ∈ list.entries) : IsCanonical (joined chosen) := by
  intro c hcm
  obtain rfl | ⟨entry, he, hce⟩ := mem_intercalate hcm
  · exact .inr rfl
  · exact entry_canonical (list.shape entry (hc entry he)) c hce

theorem validatePhrase_shown (list : WordList) {chosen : List Text} {sep : Char}
    (hsep : sep = '-' ∨ sep = ' ') (six : chosen.length = wordCount)
    (hc : ∀ entry ∈ chosen, entry ∈ list.entries) :
    validatePhrase dart ([sep].intercalate chosen) list.entries = .ok (joined chosen) := by
  have hentry : ∀ entry ∈ chosen, IsEntry entry := fun entry he => list.shape entry (hc entry he)
  have hspace : sep = '-' ∨ isWhitespace sep = true := by
    obtain rfl | rfl := hsep
    · exact .inl rfl
    · exact .inr (by decide)
  have hhost := Phrase.parseCanonical_of_joined list six hc (normalize_join hspace hentry)
  have hshown : ∀ c ∈ [sep].intercalate chosen, isShown c = true := by
    intro c hcm
    obtain rfl | ⟨entry, he, hce⟩ := mem_intercalate hcm
    · obtain rfl | rfl := hsep <;> decide
    · obtain hlow | rfl := entry_canonical (hentry entry he) c hce
      · rw [isShown, hlow, Bool.true_or, Bool.true_or]
      · decide
  have hnormal : normalizePhraseInput dart ([sep].intercalate chosen) =
      normalize ([sep].intercalate chosen) :=
    normal_of_plain (fun c hcm => (shown_plain dart (hshown c (Collapse.trimBy_subset hcm))).1)
      fun c hcm => (shown_plain dart (hshown c (Collapse.trimBy_subset hcm))).2
  have hsame := same_of_normal list.size hnormal
  rw [hhost] at hsame
  cases hdevice : validatePhrase dart ([sep].intercalate chosen) list.entries with
  | error cause =>
    rw [hdevice] at hsame
    exact hsame.elim
  | ok canonical =>
    rw [hdevice] at hsame
    exact congrArg Except.ok hsame.symm

theorem not_trimmed {c : Char} (h : 0x30 ≤ c.toNat ∧ c.toNat < 0x80) : isTrimmed c = false := by
  simp only [isTrimmed, isWhitespace, Bool.or_eq_false_iff, Bool.and_eq_false_iff,
    decide_eq_false_iff_not]
  omega

theorem not_trimmedUnit {unit : Nat} (h : 0x30 ≤ unit ∧ unit < 0x80) :
    isTrimmedUnit unit = false := by
  unfold isTrimmedUnit
  have hunit := toNat_ofNat_ascii h.2
  generalize Char.ofNat unit = c at hunit ⊢
  exact not_trimmed (hunit.symm ▸ h)

theorem hexUpper_unit : ∀ n < 16, (0x30 ≤ (hexUpper n).toNat ∧ (hexUpper n).toNat < 0x80) ∧
    PairingText.hexDigit (hexUpper n).toNat = some n := by
  decide

theorem percentDecodeUnits_plain {unit : Nat} (h : unit ≠ 0x25) (rest : List Nat) :
    percentDecodeUnits (unit :: rest) = Int.ofNat unit :: percentDecodeUnits rest := by
  rcases rest with _ | ⟨first, _ | ⟨second, more⟩⟩
  · rfl
  · rfl
  · rw [percentDecodeUnits, if_neg h]

theorem percentDecodeUnits_escaped (b : UInt8) (rest : List Nat) :
    percentDecodeUnits ((percentEncodeByte b).map Char.toNat ++ rest) =
      Int.ofNat b.toNat :: percentDecodeUnits rest := by
  have hb := b.toNat_lt
  rw [percentEncodeByte]
  split
  · next h =>
    obtain ⟨hlt, hne, -⟩ := isUnreserved_range h
    have hplain : b.toNat ≠ 0x25 := fun heq => hne (UInt8.toNat_inj.mp heq)
    rw [List.map_singleton, List.singleton_append, toNat_ofNat_ascii hlt,
      percentDecodeUnits_plain hplain]
  · obtain ⟨hrange, hhigh⟩ := hexUpper_unit (b.toNat / 16) (by omega)
    obtain ⟨hrange', hlow⟩ := hexUpper_unit (b.toNat % 16) (by omega)
    have hplus : (hexUpper (b.toNat / 16)).toNat ≠ 0x2B := by omega
    have hminus : (hexUpper (b.toNat / 16)).toNat ≠ 0x2D := by omega
    have hvalue : tryParse (hexUpper (b.toNat / 16)).toNat (hexUpper (b.toNat % 16)).toNat =
        some (Int.ofNat b.toNat) := by
      rw [tryParse, not_trimmedUnit hrange, not_trimmedUnit hrange']
      simp only [if_neg hplus, if_neg hminus, hhigh, hlow, Nat.div_add_mod']
    change percentDecodeUnits (0x25 :: _ :: _ :: rest) = _
    rw [percentDecodeUnits, if_pos rfl, hvalue]

theorem asByte_toNat (b : UInt8) : asByte (Int.ofNat b.toNat) = b := by
  have hb := b.toNat_lt
  rw [asByte, Int.ofNat_eq_natCast, if_pos (by omega), Int.toNat_natCast, UInt8.ofNat_toNat]

/-- What the Host escapes comes back, unless it begins with a byte order mark. -/
theorem percentDecode_escaped (h : t.head? = some 'h') :
    PairingText.percentDecode (percentEncode t) = t := by
  have hunits : ∀ bytes : List UInt8, (percentDecodeUnits
      ((bytes.flatMap percentEncodeByte).map Char.toNat)).map asByte = bytes := by
    intro bytes
    induction bytes with
    | nil => rfl
    | cons b rest ih =>
      rw [List.flatMap_cons, List.map_append, percentDecodeUnits_escaped, List.map_cons,
        asByte_toNat, ih]
  rw [PairingText.percentDecode, codeUnits_ascii fun c hc => (percentEncode_chars t c hc).1,
    percentEncode, hunits]
  cases t with
  | nil => cases h
  | cons c rest =>
    obtain rfl : c = 'h' := Option.some.inj h
    exact fromUtf8Lossy_utf8 ('h' :: rest)

theorem head_of_absolute (h : isAbsoluteHttpOrigin t = true) : t.head? = some 'h' := by
  rw [isAbsoluteHttpOrigin] at h
  split at h
  · cases h
  next scheme rest hsplit =>
  rw [eq_of_splitOnce hsplit]
  simp only [Bool.and_eq_true, Bool.or_eq_true, decide_eq_true_eq] at h
  obtain rfl | rfl := h.1.1 <;> rfl

theorem addRaw_eq {fields : QueryFields} {key : Char} {value : Text} {f : Field}
    (hkey : key ≠ '=') (hf : fieldOf [key] = some f) (hfree : fields.get f = none) :
    addRaw fields (key :: '=' :: value) = .ok (fields.set value f) := by
  have hnot : '=' ∉ [key] := by simpa using hkey.symm
  have hsplit : splitOnce ['='] (key :: '=' :: value) = some ([key], value) :=
    splitOnce_append hnot value
  simp only [addRaw, hsplit, hf, hfree, Option.isSome_none]
  rfl

theorem raw_built (u : PairingUri) : (builtPairs E u).foldlM addRaw {} = .ok
    ⟨some ['1'], some (percentEncode u.relayOrigin), some (u.handle.encode E), some u.phrase⟩ := by
  have hv : addRaw {} "v=1".toList = .ok { version := some ['1'] } := rfl
  have hr : addRaw { version := some ['1'] } ('r' :: '=' :: percentEncode u.relayOrigin) =
      .ok { version := some ['1'], relayOrigin := some (percentEncode u.relayOrigin) } :=
    addRaw_eq (f := .relayOrigin) (by decide) rfl rfl
  have hh : addRaw { version := some ['1'], relayOrigin := some (percentEncode u.relayOrigin) }
      ('h' :: '=' :: u.handle.encode E) = .ok ⟨some ['1'], some (percentEncode u.relayOrigin),
        some (u.handle.encode E), none⟩ :=
    addRaw_eq (f := .handle) (by decide) rfl rfl
  have hp : addRaw ⟨some ['1'], some (percentEncode u.relayOrigin),
      some (u.handle.encode E), none⟩ ('p' :: '=' :: u.phrase) = .ok ⟨some ['1'],
        some (percentEncode u.relayOrigin), some (u.handle.encode E), some u.phrase⟩ :=
    addRaw_eq (f := .phrase) (by decide) rfl rfl
  simp only [builtPairs, List.foldlM_cons, List.foldlM_nil, hv]
  simp [hr, hh, hp, bind, Except.bind, pure, Except.pure]

/-- The Device takes the fields of a built URI as they were, if it takes the origin. -/
theorem parse_built (hE : E.UrlSafeNoPad) (list : WordList) {u : PairingUri} {chosen : List Text}
    (horigin : isAbsoluteHttpOrigin u.relayOrigin = true) (six : chosen.length = wordCount)
    (hc : ∀ entry ∈ chosen, entry ∈ list.entries) (hphrase : u.phrase = joined chosen)
    (hlen : (utf8 (u.build E)).length ≤ pairingUriMaxLen) :
    parsePairingUri dart (u.build E) list.entries =
      (parseRelayOrigin dart u.relayOrigin).map fun origin =>
        ⟨origin, u.handle.encode E, u.phrase⟩ := by
  have hcanonical : IsCanonical u.phrase := hphrase ▸ joined_canonical list hc
  have hpairs : (['&'].intercalate (builtPairs E u)).splitOn '&' = builtPairs E u :=
    List.splitOn_intercalate '&' (builtPairs_amp hE u hcanonical) (List.cons_ne_nil _ _)
  have hquery : queryOf (u.build E) = .ok (['&'].intercalate (builtPairs E u)) :=
    queryOf_ok.mpr ⟨hlen, build_eq u⟩
  have hread := device_query (builtPairs E u) {}
  rw [raw_built] at hread
  change List.foldlM PairingText.addPair {} (builtPairs E u) = _ at hread
  have htakes := takes_of_fromStr hE (Handle.fromStr_encode hE u.handle)
  have hhandle : DeviceTakes (u.handle.encode E) := by
    apply (handleAlike_iff.mp _).mp htakes
    rintro (hplus | hslash)
    · exact absurd rfl (symbol_ascii (urlSafe.mem_of_decode htakes.2 hplus)).2.2.2.1
    · exact absurd rfl (symbol_ascii (urlSafe.mem_of_decode htakes.2 hslash)).2.2.2.2
  have hwords : validatePhrase dart u.phrase list.entries = .ok u.phrase := by
    rw [hphrase]
    exact validatePhrase_shown list (.inl rfl) six hc
  rw [device_parse, hquery]
  simp only [PairingText.parseQuery, hpairs, hread, told, decoded, Option.map_some,
    percentDecode_escaped (head_of_absolute horigin), Except.bind, validate]
  rw [if_neg (not_not.mpr rfl)]
  cases hparse : parseRelayOrigin dart u.relayOrigin with
  | error cause => exact assemble_refused hparse
  | ok origin =>
    rw [assemble_taken hparse hhandle, hwords]
    rfl

/-- The two sides agree on a URI exactly when its query is read alike, and on a phrase exactly when
its ends and its characters are. A phrase that the Host displays is accepted as it is; a URI that
it builds is accepted with the same handle and phrase, or refused as insecure, exactly when its
text writes an origin for the Device too. -/
theorem inputs_agree_iff {ε : Type} (E : Engine ε) (hE : E.UrlSafeNoPad) (dart : Dart)
    (parts : Components) :
    (∀ uri words, Agrees E (withUri dart parts) uri words ↔ UriAlike dart parts words uri) ∧
    (∀ candidate words,
      SamePhrase (Phrase.parseCanonical candidate words) (validatePhrase dart candidate words) ↔
        words.length ≠ effWordlistEntryCount ∨ ReadsAlike dart candidate) ∧
    (∀ (list : WordList) drawn phrase, Phrase.generate list.entries drawn = .ok phrase →
      validatePhrase dart phrase.displayForm list.entries = .ok phrase.canonical ∧
      ∀ u : PairingUri, isAbsoluteHttpOrigin u.relayOrigin = true → u.phrase = phrase.canonical →
        (utf8 (u.build E)).length ≤ pairingUriMaxLen →
        ((parsePairingUri (withUri dart parts) (u.build E) list.entries =
              .error (.origin .relayOriginInsecure) ∨
            ∃ input, parsePairingUri (withUri dart parts) (u.build E) list.entries = .ok input ∧
              input.handle = u.handle.encode E ∧ input.phrase = phrase.canonical) ↔
          ∃ origin, Writes parts u.relayOrigin origin)) := by
  refine ⟨fun uri words => agrees_iff hE uri words, fun _ _ => same_phrase_iff, ?_⟩
  intro list drawn phrase hgenerate
  have hphrase : phrase.canonical = joined phrase.words ∧
      ∀ entry ∈ phrase.words, entry ∈ list.entries := by
    cases drawn with
    | none =>
      rw [Phrase.generate, if_neg (not_not.mpr list.size)] at hgenerate
      cases hgenerate
    | some draw =>
      rw [Phrase.generate_ok list.size] at hgenerate
      cases hgenerate
      refine ⟨rfl, fun entry he => ?_⟩
      obtain ⟨i, rfl⟩ := List.mem_ofFn.mp he
      exact List.get_mem _ _
  obtain ⟨hjoined, hwords⟩ := hphrase
  constructor
  · rw [hjoined]
    exact validatePhrase_shown list (.inr rfl) phrase.six hwords
  · intro u horigin hu hlen
    rw [parse_built hE list horigin phrase.six hwords (hu.trans hjoined) hlen]
    cases hparse : parseRelayOrigin (withUri dart parts) u.relayOrigin with
    | ok origin =>
      exact iff_of_true (.inr ⟨_, rfl, rfl, hu⟩) ⟨origin, (parse_ok.mp hparse).1⟩
    | error cause =>
      obtain ⟨rfl, origin, hwrites, -⟩ | ⟨hnone, hcause⟩ := parse_error hparse
      · exact iff_of_true (.inl rfl) ⟨origin, hwrites⟩
      · refine iff_of_false ?_ (not_exists.mpr hnone)
        obtain ⟨rfl, -⟩ | ⟨rfl, -⟩ := hcause
        · exact not_or.mpr ⟨nofun, nofun⟩
        · exact not_or.mpr ⟨nofun, nofun⟩

/-- A Device of a language that has no letters but those of ASCII. -/
def plainDart : Dart where
  toLowerCase c := [c]
  toLowerCase_ne_nil _ := List.cons_ne_nil _ _
  toLowerCase_hyphen _ hc h := hc (List.mem_singleton.mp h).symm
  toLowerCase_whitespace _ _ := rfl
  uriParse _ := none
  internetAddressTryParse _ := none

/-- The port of a simple text is asked for outside the `try` of `parseRelayOrigin`. -/
example : parseRelayOrigin (withUri plainDart plainParts) "https://h:9223372036854775808".toList =
    .error .formatException := by
  decide

theorem inputs_agree_iff_shirts :
    SamePhrase (Phrase.parseCanonical " Shirt  t-shirt ".toList tShirts.entries)
      (validatePhrase plainDart " Shirt  t-shirt ".toList tShirts.entries) := by
  have hhost : ¬∃ c ∈ Collapse.trimBy isWhitespace " Shirt  t-shirt ".toList, hostForeign c = true :=
    mt List.any_eq_true.mpr (by decide)
  have hdevice :
      ¬∃ c ∈ Collapse.trimBy isTrimmed " Shirt  t-shirt ".toList, deviceForeign plainDart c = true :=
    mt List.any_eq_true.mpr (by decide)
  have halike : ReadsAlike plainDart " Shirt  t-shirt ".toList :=
    .inr ⟨by decide, iff_of_false hhost hdevice⟩
  generalize tShirts.entries = words
  have hphrases := (inputs_agree_iff plainEngine plainEngine_urlSafe plainDart plainParts).2.1
  exact (hphrases _ words).mpr (.inr halike)

/-- A handle with a symbol of the other alphabet. -/
def plusHandle : Text := "+AAAAAAAAAAAAAAAAAAAAA".toList

def plusUri : Text :=
  ("herdr-remote://pair?v=1&r=https%3A%2F%2Frelay.example.com&h=+AAAAAAAAAAAAAAAAAAAAA" ++
    "&p=shirt-shirt-shirt-shirt-shirt-shirt").toList

/-- The Device takes the handle that the Host refuses. -/
theorem plus_handle_disagrees :
    Handle.fromStr plainEngine plusHandle = .error (.decode ()) ∧
    validateHandle plusHandle = .ok plusHandle ∧
    ¬Agrees plainEngine (withUri plainDart plainParts) plusUri tShirts.entries := by
  have htakes : DeviceTakes plusHandle := ⟨by decide, by decide⟩
  refine ⟨by decide +kernel, validateHandle_of_takes htakes, ?_⟩
  rw [agrees_iff plainEngine_urlSafe]
  intro halike
  obtain ⟨-, hfields⟩ := halike (by decide +kernel) (plusUri.drop 20) (by decide +kernel)
  have hraw : ((plusUri.drop 20).splitOn '&').foldlM addRaw {} =
      .ok ⟨some ['1'], some (percentEncode "https://relay.example.com".toList), some plusHandle,
        some "shirt-shirt-shirt-shirt-shirt-shirt".toList⟩ := by
    decide +kernel
  have horigin : parseRelayOrigin (withUri plainDart plainParts) (PairingText.percentDecode
      (percentEncode "https://relay.example.com".toList)) =
      .ok ⟨"https".toList, "relay.example.com".toList, none⟩ := by
    rw [percentDecode_escaped rfl]
    decide
  have hplain := (alike_of_ok horigin).mp (hfields _ _ _ hraw)
  exact hplain.2.1 (.inl (by decide)) htakes

end HerdrMobile.App.InputAgreement
