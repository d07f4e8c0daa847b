import HerdrMobile.App.CodeUnits
import HerdrMobile.App.OriginText
import HerdrMobile.App.PhraseAgreement
import HerdrMobile.Proto.UriRoundTrip

/-!
# The two readings of a pairing URI

The query is read alike up to the escapes of `r`. A Device takes a handle in the other alphabet
too, and an origin is judged by `Uri.parse` there and by its characters on the Host.
-/
namespace HerdrMobile.App.UriAgreement

open HerdrMobile.Lib HerdrMobile.Lib.Strings HerdrMobile.Lib.Utf8 HerdrMobile.Proto
open HerdrMobile.App.PairingText HerdrMobile.App.PhraseAgreement HerdrMobile.App.CodeUnits
open HerdrMobile.App.DartUri (Components)
open HerdrMobile.App.OriginText (withUri Writes WritesOverlong Insecure parse_of_writes parse_ok
  parse_error)
open HerdrMobile.Proto (PairingUri)

set_option autoImplicit false

variable {ε : Type} {E : Engine ε} {dart : Dart} {parts : Components} {t : Text}
  {words : List Text}

/-- The symbol of the alphabet for URLs that a symbol of either one stands for. -/
def toUrlSafe (c : Char) : Char := if c = '+' then '-' else if c = '/' then '_' else c

def HostTakes (t : Text) : Prop := t.length = handleLen ∧ (urlSafe.decode t).isSome

def DeviceTakes (t : Text) : Prop :=
  t.length = handleLen ∧ (urlSafe.decode (t.map toUrlSafe)).isSome

theorem symbol_ascii {c : Char} (h : c ∈ urlSafe.symbols) :
    c.toNat < 128 ∧ c ≠ '%' ∧ c ≠ '=' ∧ c ≠ '+' ∧ c ≠ '/' := by
  have hall : (urlSafe.symbols.all fun s =>
      s.toNat < 128 && s ≠ '%' && s ≠ '=' && s ≠ '+' && s ≠ '/') = true := by decide
  simpa [and_assoc] using List.all_eq_true.mp hall c h

theorem length_of_decoded {bytes : List UInt8} (hlen : t.length = handleLen)
    (h : urlSafe.decode t = some bytes) : bytes.length = handleBytes := by
  have hlength := urlSafe.length_of_decode h
  rw [hlen, handleLen] at hlength
  rw [handleBytes]
  omega

theorem fromStr_of_takes (hE : E.UrlSafeNoPad) (h : HostTakes t) :
    ∃ handle, Handle.fromStr E t = .ok handle ∧ handle.encode E = t := by
  obtain ⟨hlen, hsome⟩ := h
  obtain ⟨bytes, hbytes⟩ := Option.isSome_iff_exists.mp hsome
  have hascii : (utf8 t).length = handleLen := by
    rw [length_utf8_ascii fun c hc => (symbol_ascii (urlSafe.mem_of_decode hsome hc)).1, hlen]
  have hfrom : Handle.fromStr E t = .ok ⟨bytes, length_of_decoded hlen hbytes⟩ := by
    rw [Handle.fromStr, if_neg (not_not.mpr hascii), (hE.decode t bytes).mpr hbytes]
    exact dif_pos (length_of_decoded hlen hbytes)
  exact ⟨_, hfrom, Handle.encode_of_fromStr hE hfrom⟩

theorem takes_of_fromStr (hE : E.UrlSafeNoPad) {handle : Handle}
    (h : Handle.fromStr E t = .ok handle) : HostTakes t := by
  have henc := Handle.encode_of_fromStr hE h
  have hlen := Handle.length_encode hE handle
  rw [henc] at hlen
  refine ⟨hlen, ?_⟩
  rw [← henc, Handle.encode, hE.encode, urlSafe.decode_encode]
  rfl

/-- A Host that does not take the handle says so. -/
theorem fromStr_of_not_takes (hE : E.UrlSafeNoPad) (h : ¬HostTakes t) :
    ∃ e, Handle.fromStr E t = .error e := by
  cases hfrom : Handle.fromStr E t with
  | error e => exact ⟨e, rfl⟩
  | ok handle => exact absurd (takes_of_fromStr hE hfrom) h

theorem base64Symbol_eq {c s : Char} (h : base64Symbol c = some s) : s = toUrlSafe c := by
  rw [base64Symbol] at h
  rw [toUrlSafe]
  split at h
  · next hc => rw [if_pos hc, Option.some.inj h]
  · next hplus =>
    rw [if_neg hplus]
    split at h
    · next hc => rw [if_pos hc, Option.some.inj h]
    · next hslash =>
      rw [if_neg hslash]
      split at h
      · exact (Option.some.inj h).symm
      · cases h

theorem base64Symbol_of_mem {c : Char} (h : toUrlSafe c ∈ urlSafe.symbols) :
    base64Symbol c = some (toUrlSafe c) ∧ c ≠ '%' ∧ c.toNat < 128 := by
  rw [toUrlSafe] at h ⊢
  rw [base64Symbol]
  by_cases hplus : c = '+'
  · subst hplus
    exact ⟨rfl, by decide, by decide⟩
  by_cases hslash : c = '/'
  · subst hslash
    exact ⟨rfl, by decide, by decide⟩
  rw [if_neg hplus, if_neg hslash] at h ⊢
  rw [if_neg hplus, if_neg hslash, if_pos (.inr h)]
  obtain ⟨hascii, hpercent, -⟩ := symbol_ascii h
  exact ⟨rfl, hpercent, hascii⟩

/-- An escape is three characters for one symbol. -/
theorem base64Symbols_length {symbols : List Char} (h : base64Symbols t = some symbols) :
    symbols.length ≤ t.length ∧ (symbols.length = t.length → symbols = t.map toUrlSafe) := by
  fun_induction base64Symbols t generalizing symbols with
  | case1 =>
    cases h
    exact ⟨Nat.le_refl _, fun _ => rfl⟩
  | case2 x y rest high low hlow hhigh symbol symbols' hrest hsymbol ih =>
    cases h
    have hle := (ih hrest).1
    simp only [List.length_cons]
    exact ⟨by omega, fun heq => absurd heq (by omega)⟩
  | case3 => cases h
  | case4 => cases h
  | case5 c rest _ symbol symbols' hrest hsymbol ih =>
    cases h
    obtain ⟨hle, hsame⟩ := ih hrest
    simp only [List.length_cons, List.map_cons, base64Symbol_eq hsymbol]
    refine ⟨by omega, fun heq => ?_⟩
    rw [hsame (by omega)]
  | case6 => cases h

theorem base64Symbols_of_mem (h : ∀ c ∈ t, toUrlSafe c ∈ urlSafe.symbols) :
    base64Symbols t = some (t.map toUrlSafe) := by
  induction t with
  | nil => rfl
  | cons c rest ih =>
    obtain ⟨hsymbol, hpercent, -⟩ := base64Symbol_of_mem (h c List.mem_cons_self)
    have hrest := ih fun d hd => h d (List.mem_cons_of_mem c hd)
    rw [base64Symbols.eq_def]
    split
    · next heq => cases heq
    · next heq => exact absurd (List.cons.inj heq).1 hpercent
    · next c' rest' _ heq =>
      obtain ⟨rfl, rfl⟩ := List.cons.inj heq
      rw [hsymbol, hrest]
      rfl

theorem validateHandle_of_takes (h : DeviceTakes t) : validateHandle t = .ok t := by
  obtain ⟨hlen, hsome⟩ := h
  have hmem : ∀ c ∈ t, toUrlSafe c ∈ urlSafe.symbols := fun c hc =>
    urlSafe.mem_of_decode hsome (List.mem_map_of_mem hc)
  have hunits : (codeUnits t).length = handleLen := by
    rw [codeUnits_ascii fun c hc => (base64Symbol_of_mem (hmem c hc)).2.2, List.length_map, hlen]
  have hpad : '=' ∉ t.map toUrlSafe := fun h =>
    (symbol_ascii (urlSafe.mem_of_decode hsome h)).2.2.1 rfl
  obtain ⟨bytes, hbytes⟩ := Option.isSome_iff_exists.mp hsome
  have hdecode : base64Decode t = some bytes := by
    rw [base64Decode, base64Symbols_of_mem hmem, Option.bind_some, if_neg hpad, hbytes]
  have hsize := length_of_decoded (by rw [List.length_map, hlen]) hbytes
  rw [validateHandle, if_neg (not_not.mpr hunits), hdecode]
  exact if_neg (not_not.mpr hsize)

theorem takes_of_validateHandle {handle : Text} (h : validateHandle t = .ok handle) :
    DeviceTakes t := by
  rw [validateHandle] at h
  split at h
  · cases h
  next hunits =>
  split at h
  · cases h
  next decoded hdecode =>
  split at h
  · cases h
  next hsize =>
  have hshort : t.length ≤ handleLen := not_not.mp hunits ▸ codeUnits_length t
  obtain ⟨symbols, hsymbols, hbytes⟩ := Option.bind_eq_some_iff.mp hdecode
  obtain ⟨hle, hsame⟩ := base64Symbols_length hsymbols
  rw [handleLen] at hshort
  rw [not_not, handleBytes] at hsize
  split at hbytes
  · have hlength := urlSafe.length_of_decodePadded '=' hbytes
    rw [hsize] at hlength
    omega
  · have hlength := urlSafe.length_of_decode hbytes
    rw [hsize] at hlength
    have hfull : symbols.length = t.length := by omega
    refine ⟨by rw [handleLen]; omega, ?_⟩
    rw [← hsame hfull, hbytes]
    rfl

theorem validateHandle_of_not_takes (h : ¬DeviceTakes t) :
    validateHandle t = .error (.uri .handleMalformed) := by
  cases hv : validateHandle t with
  | ok handle => exact absurd (takes_of_validateHandle hv) h
  | error cause =>
    rw [validateHandle] at hv
    split at hv
    · exact hv.symm
    split at hv
    · exact hv.symm
    split at hv
    · exact hv.symm
    · cases hv

/-- No symbol of the other alphabet is in a handle that would decode. -/
def HandleAlike (t : Text) : Prop := '+' ∈ t ∨ '/' ∈ t → ¬DeviceTakes t

theorem handleAlike_iff : HandleAlike t ↔ (HostTakes t ↔ DeviceTakes t) := by
  by_cases hother : '+' ∈ t ∨ '/' ∈ t
  · have hhost : ¬HostTakes t := by
      rintro ⟨-, hsome⟩
      obtain hplus | hslash := hother
      · exact (symbol_ascii (urlSafe.mem_of_decode hsome hplus)).2.2.2.1 rfl
      · exact (symbol_ascii (urlSafe.mem_of_decode hsome hslash)).2.2.2.2 rfl
    rw [HandleAlike, iff_false_left hhost]
    exact ⟨fun h => h hother, fun h _ => h⟩
  · have hmap : t.map toUrlSafe = t := by
      rw [not_or] at hother
      conv_rhs => rw [← List.map_id t]
      apply List.map_congr_left
      intro c hc
      have hplus : c ≠ '+' := fun h => hother.1 (h ▸ hc)
      have hslash : c ≠ '/' := fun h => hother.2 (h ▸ hc)
      rw [toUrlSafe, if_neg hplus, if_neg hslash]
      rfl
    rw [HandleAlike, HostTakes, DeviceTakes, hmap]
    exact ⟨fun _ => Iff.rfl, fun _ h => absurd h hother⟩

/-- A pair as both sides take it, with the text of `r` as it stands. -/
def addRaw (fields : QueryFields) (pair : Text) : Except PairingUriErrorCode QueryFields :=
  match splitOnce ['='] pair with
  | none => .error .fieldMissing
  | some (key, rawValue) =>
    match fieldOf key with
    | none => .ok fields
    | some f =>
      if (fields.get f).isSome then .error .fieldRepeated else .ok (fields.set rawValue f)

/-- What the Host decodes, where it does not panic. -/
def hostDecode (raw : Text) : Text := (Proto.percentDecode raw).getD []

/-- The fields with `r` decoded. -/
def decoded (decode : Text → Text) (fields : QueryFields) : QueryFields :=
  { fields with relayOrigin := fields.relayOrigin.map decode }

theorem isSome_get_decoded (decode : Text → Text) (fields : QueryFields) (f : Field) :
    ((decoded decode fields).get f).isSome = (fields.get f).isSome := by
  cases f with
  | relayOrigin => exact Option.isSome_map
  | _ => rfl

theorem set_decoded (decode : Text → Text) (fields : QueryFields) (raw : Text) (f : Field) :
    (decoded decode fields).set (if f = .relayOrigin then decode raw else raw) f =
      decoded decode (fields.set raw f) := by
  cases f <;> rfl

/-- A reading of the query with the errors and the fields of one side. -/
def told {κ : Type} (error : PairingUriErrorCode → κ) (decode : Text → Text) :
    Except PairingUriErrorCode QueryFields → Except κ QueryFields
  | .error e => .error (error e)
  | .ok fields => .ok (decoded decode fields)

theorem device_addPair (fields : QueryFields) (pair : Text) :
    PairingText.addPair (decoded PairingText.percentDecode fields) pair =
      told .uri PairingText.percentDecode (addRaw fields pair) := by
  rw [PairingText.addPair, addRaw]
  cases splitOnce ['='] pair with
  | none => rfl
  | some split =>
    obtain ⟨key, rawValue⟩ := split
    simp only
    cases fieldOf key with
    | none => rfl
    | some f =>
      simp only [isSome_get_decoded]
      by_cases htaken : (fields.get f).isSome = true
      · rw [if_pos htaken, if_pos htaken]
        rfl
      · rw [if_neg htaken, if_neg htaken, set_decoded]
        rfl

theorem device_query (pairs : List Text) (fields : QueryFields) :
    pairs.foldlM PairingText.addPair (decoded PairingText.percentDecode fields) =
      told .uri PairingText.percentDecode (pairs.foldlM addRaw fields) := by
  induction pairs generalizing fields with
  | nil => rfl
  | cons pair rest ih =>
    rw [List.foldlM_cons, List.foldlM_cons, device_addPair]
    cases addRaw fields pair with
    | error e => rfl
    | ok next => exact ih next

/-- The Host's error with the same code. -/
def hostError : PairingUriErrorCode → PairingUriError ε
  | .scheme => .scheme
  | .path => .path
  | .version => .version
  | .fieldMissing => .fieldMissing
  | .fieldRepeated => .fieldRepeated
  | .tooLong => .tooLong
  | .handleMalformed => .handleMalformed .wrongLength

theorem hostError_code (e : PairingUriErrorCode) :
    (hostError e : PairingUriError ε).code = e.wireValue := by
  cases e <;> rfl

/-- The Host can cut the text that the pair has for `r`, if it comes to that. -/
def LegiblePair (fields : QueryFields) (pair : Text) : Prop :=
  ∀ raw, fields.relayOrigin = none → splitOnce ['='] pair = some (['r'], raw) →
    (Proto.percentDecode raw).isSome = true

theorem fieldOf_relayOrigin {key : Text} : fieldOf key = some .relayOrigin ↔ key = ['r'] := by
  constructor
  · intro h
    rw [fieldOf] at h
    split at h
    · cases h
    split at h
    · next hr => exact hr
    split at h
    · cases h
    split at h <;> cases h
  · rintro rfl
    rfl

open Classical in
theorem host_addPair (fields : QueryFields) (pair : Text) :
    Proto.addPair (ε := ε) (decoded hostDecode fields) pair =
      if LegiblePair fields pair then some (told hostError hostDecode (addRaw fields pair))
      else none := by
  rw [Proto.addPair, addRaw]
  cases hsplit : splitOnce ['='] pair with
  | none =>
    have hlegible : LegiblePair fields pair := by
      intro raw _ h
      cases hsplit.symm.trans h
    rw [if_pos hlegible]
    rfl
  | some split =>
    obtain ⟨key, value⟩ := split
    have hkey : ∀ raw, splitOnce ['='] pair = some (['r'], raw) → key = ['r'] ∧ value = raw := by
      intro raw h
      rw [hsplit] at h
      cases h
      exact ⟨rfl, rfl⟩
    simp only
    cases hf : fieldOf key with
    | none =>
      have hlegible : LegiblePair fields pair := by
        intro raw _ h
        rw [(fieldOf_relayOrigin).mpr (hkey raw h).1] at hf
        cases hf
      rw [if_pos hlegible]
      rfl
    | some f =>
      simp only [isSome_get_decoded]
      by_cases htaken : (fields.get f).isSome = true
      · have hlegible : LegiblePair fields pair := by
          intro raw hfree h
          rw [(fieldOf_relayOrigin).mpr (hkey raw h).1] at hf
          cases hf
          rw [QueryFields.get, hfree] at htaken
          cases htaken
        rw [if_pos htaken, if_pos hlegible, if_pos htaken]
        rfl
      rw [if_neg htaken, if_neg htaken]
      by_cases hr : f = .relayOrigin
      · subst hr
        have hfree : fields.relayOrigin = none := Option.not_isSome_iff_eq_none.mp htaken
        rw [(fieldOf_relayOrigin).mp hf] at hsplit
        rw [fieldValue, if_pos rfl]
        cases hvalue : Proto.percentDecode value with
        | none =>
          have hillegible : ¬LegiblePair fields pair := by
            intro h
            have hsome := h value hfree hsplit
            rw [hvalue] at hsome
            cases hsome
          rw [if_neg hillegible]
          rfl
        | some text =>
          have hlegible : LegiblePair fields pair := by
            intro raw _ h
            rw [← (hkey raw h).2, hvalue]
            rfl
          have htext : hostDecode value = text := by rw [hostDecode, hvalue, Option.getD_some]
          rw [if_pos hlegible, told, ← set_decoded, if_pos rfl, htext]
          rfl
      · have hlegible : LegiblePair fields pair := by
          intro raw _ h
          rw [(fieldOf_relayOrigin).mpr (hkey raw h).1] at hf
          exact absurd (Option.some.inj hf).symm hr
        rw [if_pos hlegible, fieldValue, if_neg hr, told, ← set_decoded, if_neg hr]
        rfl

/-- Every value of `r` that the Host comes to can be cut. -/
def Legible (fields : QueryFields) (pairs : List Text) : Prop :=
  ∀ before pair after read, pairs = before ++ pair :: after →
    before.foldlM addRaw fields = .ok read → LegiblePair read pair

theorem legible_cons {fields : QueryFields} {pair : Text} {rest : List Text} :
    Legible fields (pair :: rest) ↔ LegiblePair fields pair ∧
      ∀ read, addRaw fields pair = .ok read → Legible read rest := by
  constructor
  · intro h
    refine ⟨h [] pair rest fields rfl rfl, ?_⟩
    rintro read hread before next after last rfl hlast
    apply h (pair :: before) next after last rfl
    rw [List.foldlM_cons, hread]
    exact hlast
  · rintro ⟨hpair, hrest⟩ before next after read hsplit hread
    cases before with
    | nil =>
      obtain ⟨rfl, -⟩ := List.cons.inj hsplit
      cases hread
      exact hpair
    | cons first before =>
      obtain ⟨rfl, htail⟩ := List.cons.inj hsplit
      rw [List.foldlM_cons] at hread
      cases hfirst : addRaw fields pair with
      | error e =>
        rw [hfirst] at hread
        cases hread
      | ok mid =>
        rw [hfirst] at hread
        exact hrest mid hfirst before next after read htail hread

open Classical in
theorem host_query (pairs : List Text) (fields : QueryFields) :
    addPairs (ε := ε) (decoded hostDecode fields) pairs =
      if Legible fields pairs then some (told hostError hostDecode (pairs.foldlM addRaw fields))
      else none := by
  induction pairs generalizing fields with
  | nil =>
    have hlegible : Legible fields [] := by
      intro before pair after read h
      exact absurd h (by simp)
    rw [if_pos hlegible]
    rfl
  | cons pair rest ih =>
    rw [addPairs, host_addPair, List.foldlM_cons, legible_cons]
    by_cases hpair : LegiblePair fields pair
    · rw [if_pos hpair, and_iff_right hpair]
      cases hread : addRaw fields pair with
      | error e =>
        have hnone : ∀ next, (Except.error e : Except PairingUriErrorCode _) = .ok next →
            Legible next rest := by
          intro next h
          cases h
        rw [if_pos hnone]
        rfl
      | ok read =>
        have hone : (∀ next, (Except.ok read : Except PairingUriErrorCode _) = .ok next →
            Legible next rest) ↔ Legible read rest := by
          constructor
          · exact fun h => h read rfl
          · rintro h next hnext
            cases hnext
            exact h
        simp only [hone]
        exact ih read
    · rw [if_neg hpair, if_neg (fun h => hpair h.1)]

/-- The checks on the length, the scheme and the path. -/
def queryOf (uri : Text) : Except PairingUriErrorCode Text :=
  if (utf8 uri).length > pairingUriMaxLen then .error .tooLong
  else
    match stripPrefix (pairingUriScheme ++ "://".toList) uri with
    | none => .error .scheme
    | some rest =>
      match splitOnce ['?'] rest with
      | none => .error .fieldMissing
      | some (path, query) => if path ≠ "pair".toList then .error .path else .ok query

theorem stripPrefix_bind (first second t : Text) :
    (stripPrefix first t).bind (stripPrefix second) = stripPrefix (first ++ second) t := by
  by_cases hfirst : first <+: t
  · obtain ⟨rest, rfl⟩ := hfirst
    rw [stripPrefix_append, Option.bind_some]
    by_cases hsecond : second <+: rest
    · obtain ⟨tail, rfl⟩ := hsecond
      rw [stripPrefix_append, ← List.append_assoc, stripPrefix_append]
    · have hboth : ¬(first ++ second) <+: first ++ rest := by
        rwa [List.prefix_append_right_inj]
      rw [stripPrefix, stripPrefix, if_neg (mt List.isPrefixOf_iff_prefix.mp hsecond),
        if_neg (mt List.isPrefixOf_iff_prefix.mp hboth)]
  · have hboth : ¬(first ++ second) <+: t := fun h =>
      hfirst ((List.prefix_append first second).trans h)
    rw [stripPrefix, stripPrefix, if_neg (mt List.isPrefixOf_iff_prefix.mp hfirst),
      if_neg (mt List.isPrefixOf_iff_prefix.mp hboth)]
    rfl

theorem host_parse (uri : Text) : PairingUri.parse E uri =
    match queryOf uri with
    | .error e => some (.error (hostError e))
    | .ok query => (Proto.parseQuery query).map fun fields => fields.bind (·.validate E) := by
  rw [PairingUri.parse, queryOf, stripPrefix_bind]
  split
  · rfl
  · cases stripPrefix (pairingUriScheme ++ "://".toList) uri with
    | none => rfl
    | some rest =>
      simp only
      cases splitOnce ['?'] rest with
      | none => rfl
      | some split =>
        simp only
        by_cases hpath : split.1 ≠ "pair".toList
        · rw [if_pos hpath, if_pos hpath]
          rfl
        · rw [if_neg hpath, if_neg hpath]

theorem device_parse (uri : Text) : parsePairingUri dart uri words =
    match queryOf uri with
    | .error e => .error (.uri e)
    | .ok query => (PairingText.parseQuery query).bind (validate dart words) := by
  rw [parsePairingUri, queryOf]
  split
  · rfl
  · cases stripPrefix (pairingUriScheme ++ "://".toList) uri with
    | none => rfl
    | some rest =>
      simp only
      cases splitOnce ['?'] rest with
      | none => rfl
      | some split =>
        simp only
        by_cases hpath : split.1 ≠ "pair".toList
        · rw [if_pos hpath, if_pos hpath]
        · rw [if_neg hpath, if_neg hpath]

theorem queryOf_ok {uri query : Text} : queryOf uri = .ok query ↔
    (utf8 uri).length ≤ pairingUriMaxLen ∧
      uri = pairingUriScheme ++ "://pair?".toList ++ query := by
  constructor
  · intro h
    rw [queryOf] at h
    split at h
    · cases h
    next hlen =>
    split at h
    · cases h
    next rest hstrip =>
    split at h
    · cases h
    next path query' hsplit =>
    split at h
    · cases h
    next hpath =>
    cases h
    refine ⟨by omega, ?_⟩
    rw [eq_append_of_stripPrefix hstrip, eq_of_splitOnce hsplit, not_not.mp hpath]
    rfl
  · rintro ⟨hlen, rfl⟩
    have hstrip : stripPrefix (pairingUriScheme ++ "://".toList)
        (pairingUriScheme ++ "://pair?".toList ++ query) = some ("pair".toList ++ '?' :: query) :=
      stripPrefix_append (pairingUriScheme ++ "://".toList) ("pair".toList ++ '?' :: query)
    have hsplit : splitOnce ['?'] ("pair".toList ++ '?' :: query) = some ("pair".toList, query) :=
      splitOnce_append (by decide) query
    rw [queryOf, if_neg (by omega), hstrip]
    simp only [hsplit]
    exact if_neg (not_not.mpr rfl)

/-- Why the Host refuses a URI or the phrase in it. -/
inductive Refusal (ε : Type) where
  | uri (error : PairingUriError ε)
  | phrase (error : PhraseError)

def Refusal.code : Refusal ε → Option String
  | .uri error => some error.code
  | .phrase error => error.code

/-- The phrase of a parsed URI is still to be validated. -/
def readPhrase (words : List Text) :
    Except (PairingUriError ε) PairingUri → Except (Refusal ε) (PairingUri × Phrase)
  | .error e => .error (.uri e)
  | .ok uri =>
    match Phrase.parseCanonical uri.phrase words with
    | .error e => .error (.phrase e)
    | .ok phrase => .ok (uri, phrase)

/-- What the Host makes of the text; no result is a panic. -/
def readOnHost (E : Engine ε) (uri : Text) (words : List Text) :
    Option (Except (Refusal ε) (PairingUri × Phrase)) :=
  (PairingUri.parse E uri).map (readPhrase words)

/-- Refused with the same code, or accepted with the same origin, handle and phrase. -/
def Same (E : Engine ε) :
    Except (Refusal ε) (PairingUri × Phrase) → Except Cause PairingInput → Prop
  | .ok (uri, phrase), .ok input => input.relayOrigin.canonical = uri.relayOrigin ∧
      input.handle = uri.handle.encode E ∧ input.phrase = phrase.canonical
  | .error refusal, .error cause => cause ≠ .formatException ∧ refusal.code = cause.code
  | _, _ => False

/-- An insecure origin is refused by the Device alone. -/
def Agrees (E : Engine ε) (dart : Dart) (uri : Text) (words : List Text) : Prop :=
  ∃ host, readOnHost E uri words = some host ∧
    (parsePairingUri dart uri words = .error (.origin .relayOriginInsecure) ∨
      Same E host (parsePairingUri dart uri words))

/-- The Host's checks on the four fields, the phrase among them. -/
def readFields (E : Engine ε) (words : List Text) (origin handle phrase : Text) :
    Except (Refusal ε) (PairingUri × Phrase) :=
  readPhrase words (QueryFields.validate E ⟨some ['1'], some origin, some handle, some phrase⟩)

/-- The Device refuses an origin as insecure; or the two texts are none; or both are one, and then
the handle is taken or refused by both, and the phrase is read alike, and beside an accepted phrase
the text of the Host is the canonical one. A port that is too long is no origin to the Device, and
no refusal either. -/
def FieldsAlike (dart : Dart) (parts : Components) (words : List Text) (r h p : Text) : Prop :=
  (∃ origin, Writes parts (PairingText.percentDecode r) origin ∧ Insecure dart origin) ∨
  ((∀ origin, ¬Writes parts (PairingText.percentDecode r) origin) ∧
    ¬WritesOverlong parts (PairingText.percentDecode r) ∧
    isAbsoluteHttpOrigin (hostDecode r) = false) ∨
  ∃ origin, Writes parts (PairingText.percentDecode r) origin ∧
    isAbsoluteHttpOrigin (hostDecode r) = true ∧ HandleAlike h ∧
    (HostTakes h → (words.length ≠ effWordlistEntryCount ∨ ReadsAlike dart p) ∧
      ∀ phrase, Phrase.parseCanonical p words = .ok phrase → origin.canonical = hostDecode r)

section HostFields

variable {origin h p : Text}

theorem readFields_invalid (horigin : isAbsoluteHttpOrigin origin = false) :
    readFields E words origin h p = .error (.uri .relayOriginInvalid) := by
  simp [readFields, QueryFields.validate, horigin, readPhrase]

theorem readFields_malformed (hE : E.UrlSafeNoPad) (words : List Text) (p : Text)
    (horigin : isAbsoluteHttpOrigin origin = true) (hhandle : ¬HostTakes h) :
    ∃ e, readFields E words origin h p = .error (.uri (.handleMalformed e)) := by
  obtain ⟨e, he⟩ := fromStr_of_not_takes hE hhandle
  refine ⟨e, ?_⟩
  simp [readFields, QueryFields.validate, horigin, he, readPhrase]

theorem readFields_taken (hE : E.UrlSafeNoPad) (words : List Text) (p : Text)
    (horigin : isAbsoluteHttpOrigin origin = true) (hhandle : HostTakes h) : ∃ handle, handle.encode E = h ∧
      readFields E words origin h p = readPhrase words (.ok ⟨origin, handle, p⟩) := by
  obtain ⟨handle, hfrom, henc⟩ := fromStr_of_takes hE hhandle
  refine ⟨handle, henc, ?_⟩
  simp [readFields, QueryFields.validate, horigin, hfrom]

theorem parseCanonical_code {e : PhraseError} :
    e.code ≠ some "relay_origin_invalid" ∧ e.code ≠ some "handle_malformed" := by
  cases e with
  | wordListSize found => exact ⟨nofun, nofun⟩
  | _ => exact ⟨by decide, by decide⟩

theorem readPhrase_code {uri : PairingUri} {refusal : Refusal ε}
    (hread : readPhrase words (.ok uri) = .error refusal) :
    refusal.code ≠ some "relay_origin_invalid" ∧ refusal.code ≠ some "handle_malformed" := by
  rw [readPhrase] at hread
  split at hread
  · cases hread
    exact parseCanonical_code
  · cases hread

end HostFields

section DeviceFields

variable {r h p : Text} {origin : RelayOrigin}

/-- The Device's verdict on an origin, by what the text writes. -/
theorem alike_of_ok
    (hok : parseRelayOrigin (withUri dart parts) (PairingText.percentDecode r) = .ok origin) :
    FieldsAlike dart parts words r h p ↔
      isAbsoluteHttpOrigin (hostDecode r) = true ∧ HandleAlike h ∧
        (HostTakes h → (words.length ≠ effWordlistEntryCount ∨ ReadsAlike dart p) ∧
          ∀ phrase, Phrase.parseCanonical p words = .ok phrase →
            origin.canonical = hostDecode r) := by
  obtain ⟨hwrites, hsecure⟩ := parse_ok.mp hok
  have honly : ∀ written, Writes parts (PairingText.percentDecode r) written →
      ¬Insecure dart written ∧ written = origin := by
    intro written hwrites
    have hparse := parse_of_writes dart hwrites
    rw [hok] at hparse
    split at hparse
    · cases hparse
    · rename_i hsecure
      cases hparse
      exact ⟨hsecure, rfl⟩
  constructor
  · rintro (⟨written, hwritten, hinsecure⟩ | ⟨hnone, -⟩ | ⟨written, hwritten, hboth⟩)
    · exact absurd hinsecure (honly written hwritten).1
    · exact absurd hwrites (hnone origin)
    · rwa [(honly written hwritten).2] at hboth
  · exact fun hboth => .inr (.inr ⟨origin, hwrites, hboth⟩)

theorem alike_of_error {cause : Cause}
    (herr : parseRelayOrigin (withUri dart parts) (PairingText.percentDecode r) = .error cause) :
    cause = .origin .relayOriginInsecure ∧ FieldsAlike dart parts words r h p ∨
      cause = .formatException ∧ ¬FieldsAlike dart parts words r h p ∨
      cause = .origin .relayOriginInvalid ∧
        (FieldsAlike dart parts words r h p ↔ isAbsoluteHttpOrigin (hostDecode r) = false) := by
  obtain ⟨hcause, hinsecure⟩ | ⟨hnone, ⟨hcause, hlong⟩ | ⟨hcause, hshort⟩⟩ := parse_error herr
  · exact .inl ⟨hcause, .inl hinsecure⟩
  · refine .inr (.inl ⟨hcause, ?_⟩)
    rintro (⟨written, hwrites, -⟩ | ⟨-, hshort, -⟩ | ⟨written, hwrites, -⟩)
    · exact hnone written hwrites
    · exact hshort hlong
    · exact hnone written hwrites
  · refine .inr (.inr ⟨hcause, ?_⟩)
    constructor
    · rintro (⟨written, hwrites, -⟩ | ⟨-, -, hrelative⟩ | ⟨written, hwrites, -⟩)
      · exact absurd hwrites (hnone written)
      · exact hrelative
      · exact absurd hwrites (hnone written)
    · exact fun hrelative => .inr (.inl ⟨hnone, hshort, hrelative⟩)

theorem validatePhrase_code {cause : Cause} (herr : validatePhrase dart t words = .error cause) :
    cause.code ≠ some "relay_origin_invalid" ∧ cause.code ≠ some "handle_malformed" ∧
      cause ≠ .origin .relayOriginInsecure ∧ cause ≠ .formatException := by
  have horigin : ∀ code, Cause.phrase code ≠ .origin .relayOriginInsecure ∧
      Cause.phrase code ≠ .formatException := by
    intro code
    exact ⟨nofun, nofun⟩
  rw [validatePhrase] at herr
  split at herr
  · cases herr
    refine ⟨?_, ?_, ?_, ?_⟩ <;> intro h <;> cases h
  simp only at herr
  split at herr
  · cases herr
    exact ⟨by decide, by decide, horigin _⟩
  split at herr
  · cases herr
    exact ⟨by decide, by decide, horigin _⟩
  split at herr
  · cases herr
    exact ⟨by decide, by decide, horigin _⟩
  split at herr
  · cases herr
    exact ⟨by decide, by decide, horigin _⟩
  · cases herr

theorem assemble_refused {cause : Cause} (herr : parseRelayOrigin dart r = .error cause) :
    assemblePairingInput dart r h p words = .error cause := by
  rw [assemblePairingInput, herr]
  rfl

theorem assemble_malformed (hok : parseRelayOrigin dart r = .ok origin) (hh : ¬DeviceTakes h) :
    assemblePairingInput dart r h p words = .error (.uri .handleMalformed) := by
  rw [assemblePairingInput, hok, validateHandle_of_not_takes hh]
  rfl

theorem assemble_taken (hok : parseRelayOrigin dart r = .ok origin) (hh : DeviceTakes h) :
    assemblePairingInput dart r h p words =
      (validatePhrase dart p words).map fun phrase => ⟨origin, h, phrase⟩ := by
  rw [assemblePairingInput, hok, validateHandle_of_takes hh]
  cases validatePhrase dart p words <;> rfl

end DeviceFields

/-- With both the origin and the handle taken, what is left is the phrase. -/
theorem taken_iff {origin : RelayOrigin} {text p : Text} {handle : Handle} :
    Same E (readPhrase words (.ok ⟨text, handle, p⟩))
        ((validatePhrase dart p words).map fun phrase =>
          (⟨origin, handle.encode E, phrase⟩ : PairingInput)) ↔
      (words.length ≠ effWordlistEntryCount ∨ ReadsAlike dart p) ∧
        ∀ phrase, Phrase.parseCanonical p words = .ok phrase → origin.canonical = text := by
  rw [← same_phrase_iff, readPhrase]
  cases hhost : Phrase.parseCanonical p words with
  | error e =>
    cases hdevice : validatePhrase dart p words with
    | error cause =>
      have hcaught := (validatePhrase_code hdevice).2.2.2
      exact ⟨fun hsame => ⟨hsame.2, nofun⟩, fun hsame => ⟨hcaught, hsame.1⟩⟩
    | ok phrase => exact ⟨fun hsame => hsame.elim, fun hsame => hsame.1.elim⟩
  | ok phrase =>
    cases hdevice : validatePhrase dart p words with
    | error cause => exact ⟨fun hsame => hsame.elim, fun hsame => hsame.1.elim⟩
    | ok canonical =>
      constructor
      · rintro ⟨horigin, -, hphrase⟩
        exact ⟨hphrase.symm, fun _ _ => horigin⟩
      · rintro ⟨hphrase, horigin⟩
        exact ⟨horigin phrase rfl, rfl, hphrase.symm⟩

theorem fields_iff (hE : E.UrlSafeNoPad) (r h p : Text) :
    (assemblePairingInput (withUri dart parts) (PairingText.percentDecode r) h p words =
          .error (.origin .relayOriginInsecure) ∨
        Same E (readFields E words (hostDecode r) h p)
          (assemblePairingInput (withUri dart parts) (PairingText.percentDecode r) h p words)) ↔
      FieldsAlike dart parts words r h p := by
  cases hparse : parseRelayOrigin (withUri dart parts) (PairingText.percentDecode r) with
  | error cause =>
    rw [assemble_refused hparse]
    obtain ⟨rfl, halike⟩ | ⟨rfl, halike⟩ | ⟨rfl, halike⟩ :=
      @alike_of_error dart parts words r h p cause hparse
    · exact iff_of_true (.inl rfl) halike
    · refine iff_of_false ?_ halike
      rintro (heq | hsame)
      · cases heq
      · cases hhost : readFields E words (hostDecode r) h p with
        | ok result =>
          rw [hhost] at hsame
          exact hsame.elim
        | error refusal =>
          rw [hhost] at hsame
          exact hsame.1 rfl
    rw [halike, or_iff_right nofun]
    cases habsolute : isAbsoluteHttpOrigin (hostDecode r) with
    | false =>
      rw [readFields_invalid habsolute]
      exact ⟨fun _ => rfl, fun _ => ⟨nofun, rfl⟩⟩
    | true =>
      refine ⟨fun hsame => ?_, nofun⟩
      by_cases hh : HostTakes h
      · obtain ⟨handle, -, hread⟩ := readFields_taken hE words p habsolute hh
        rw [hread] at hsame
        cases hphrase : readPhrase words (.ok (⟨hostDecode r, handle, p⟩ : PairingUri)) with
        | ok result =>
          rw [hphrase] at hsame
          exact hsame.elim
        | error refusal =>
          rw [hphrase] at hsame
          exact absurd hsame.2 (readPhrase_code hphrase).1
      · obtain ⟨e, hread⟩ := readFields_malformed hE words p habsolute hh
        rw [hread] at hsame
        exact absurd hsame.2
          (show ¬(some "handle_malformed" = some "relay_origin_invalid") by decide)
  | ok origin =>
    have hletters : ReadsAlike dart p = ReadsAlike (withUri dart parts) p := rfl
    rw [alike_of_ok hparse, hletters]
    have hsecure : assemblePairingInput (withUri dart parts) (PairingText.percentDecode r) h p
        words ≠
        .error (.origin .relayOriginInsecure) := by
      by_cases hh : DeviceTakes h
      · rw [assemble_taken hparse hh]
        cases hphrase : validatePhrase (withUri dart parts) p words with
        | ok phrase => nofun
        | error cause => exact fun heq => (validatePhrase_code hphrase).2.2.1 (Except.error.inj heq)
      · rw [assemble_malformed hparse hh]
        nofun
    rw [or_iff_right hsecure]
    cases habsolute : isAbsoluteHttpOrigin (hostDecode r) with
    | false =>
      refine ⟨fun hsame => ?_, nofun⟩
      rw [readFields_invalid habsolute] at hsame
      by_cases hh : DeviceTakes h
      · rw [assemble_taken hparse hh] at hsame
        cases hphrase : validatePhrase (withUri dart parts) p words with
        | ok phrase =>
          rw [hphrase] at hsame
          exact hsame.elim
        | error cause =>
          rw [hphrase] at hsame
          exact absurd hsame.2.symm (validatePhrase_code hphrase).1
      · rw [assemble_malformed hparse hh] at hsame
        exact absurd hsame.2
          (show ¬(some "relay_origin_invalid" = some "handle_malformed") by decide)
    | true =>
      rw [handleAlike_iff, and_iff_right rfl]
      by_cases hhost : HostTakes h
      · obtain ⟨handle, henc, hread⟩ := readFields_taken hE words p habsolute hhost
        rw [hread]
        by_cases hdevice : DeviceTakes h
        · rw [assemble_taken hparse hdevice, ← henc, taken_iff]
          exact ⟨fun hsame => ⟨⟨fun _ => henc ▸ hdevice, fun _ => henc ▸ hhost⟩, fun _ => hsame⟩,
            fun hsame => hsame.2 (henc ▸ hhost)⟩
        · rw [assemble_malformed hparse hdevice]
          refine ⟨fun hsame => ?_, fun hsame => absurd (hsame.1.mp hhost) hdevice⟩
          cases hphrase : readPhrase words (.ok (⟨hostDecode r, handle, p⟩ : PairingUri)) with
          | ok result =>
            rw [hphrase] at hsame
            exact hsame.elim
          | error refusal =>
            rw [hphrase] at hsame
            exact absurd hsame.2 (readPhrase_code hphrase).2
      · obtain ⟨e, hread⟩ := readFields_malformed hE words p habsolute hhost
        rw [hread]
        by_cases hdevice : DeviceTakes h
        · rw [assemble_taken hparse hdevice]
          refine ⟨fun hsame => ?_, fun hsame => absurd (hsame.1.mpr hdevice) hhost⟩
          cases hphrase : validatePhrase (withUri dart parts) p words with
          | ok phrase =>
            rw [hphrase] at hsame
            exact hsame.elim
          | error cause =>
            rw [hphrase] at hsame
            exact absurd hsame.2.symm (validatePhrase_code hphrase).2.1
        · rw [assemble_malformed hparse hdevice]
          exact ⟨fun _ => ⟨⟨fun hh => absurd hh hhost, fun hh => absurd hh hdevice⟩,
            fun hh => absurd hh hhost⟩, fun _ => ⟨nofun, rfl⟩⟩

def QueryAlike (dart : Dart) (parts : Components) (words : List Text) (query : Text) : Prop :=
  Legible {} (query.splitOn '&') ∧ ∀ r h p,
    (query.splitOn '&').foldlM addRaw {} = .ok ⟨some ['1'], some r, some h, some p⟩ →
      FieldsAlike dart parts words r h p

/-- The query of a URI that is short enough is read alike. -/
def UriAlike (dart : Dart) (parts : Components) (words : List Text) (uri : Text) : Prop :=
  (utf8 uri).length ≤ pairingUriMaxLen → ∀ query,
    uri = pairingUriScheme ++ "://pair?".toList ++ query → QueryAlike dart parts words query

/-- Fields that are not all there, or of another version. -/
theorem unfit_fields (E : Engine ε) (dart : Dart) (words : List Text) {fields : QueryFields}
    (hfit : ∀ r h p, fields ≠ ⟨some ['1'], some r, some h, some p⟩) :
    ∃ e : PairingUriErrorCode,
      (decoded hostDecode fields).validate E = .error (hostError e) ∧
      validate dart words (decoded PairingText.percentDecode fields) = .error (.uri e) := by
  obtain ⟨version, relayOrigin, handle, phrase⟩ := fields
  by_cases hversion : version = some ['1']
  · subst hversion
    refine ⟨.fieldMissing, ?_⟩
    cases relayOrigin with
    | none => exact ⟨rfl, rfl⟩
    | some r =>
      cases handle with
      | none => exact ⟨rfl, rfl⟩
      | some h =>
        cases phrase with
        | none => exact ⟨rfl, rfl⟩
        | some p => exact absurd rfl (hfit r h p)
  · refine ⟨.version, ?_⟩
    rw [QueryFields.validate, validate]
    exact ⟨if_pos hversion, if_pos hversion⟩

theorem same_error (e : PairingUriErrorCode) :
    Same E (.error (.uri (hostError e))) (.error (.uri e)) :=
  ⟨nofun, congrArg some (hostError_code e)⟩

theorem agrees_iff (hE : E.UrlSafeNoPad) (uri : Text) (words : List Text) :
    Agrees E (withUri dart parts) uri words ↔ UriAlike dart parts words uri := by
  rw [Agrees, readOnHost, host_parse, device_parse]
  cases hquery : queryOf uri with
  | error e =>
    refine ⟨fun _ hlen query huri => ?_, fun _ => ⟨_, rfl, .inr (same_error e)⟩⟩
    rw [(queryOf_ok).mpr ⟨hlen, huri⟩] at hquery
    cases hquery
  | ok query =>
    obtain ⟨hlen, huri⟩ := (queryOf_ok).mp hquery
    have honly : UriAlike dart parts words uri ↔ QueryAlike dart parts words query := by
      constructor
      · exact fun h => h hlen query huri
      · intro h _ query' huri'
        obtain rfl := List.append_cancel_left (huri.symm.trans huri')
        exact h
    have hhost := host_query (ε := ε) (query.splitOn '&') {}
    have hdevice := device_query (query.splitOn '&') {}
    change Proto.parseQuery query = _ at hhost
    change PairingText.parseQuery query = _ at hdevice
    simp only
    rw [honly, QueryAlike, hhost, hdevice]
    by_cases hlegible : Legible {} (query.splitOn '&')
    · rw [if_pos hlegible, and_iff_right hlegible]
      cases hread : (query.splitOn '&').foldlM addRaw {} with
      | error e =>
        exact ⟨fun _ r h p hok => absurd hok nofun, fun _ => ⟨_, rfl, .inr (same_error e)⟩⟩
      | ok fields =>
        by_cases hfit : ∃ r h p, fields = ⟨some ['1'], some r, some h, some p⟩
        · obtain ⟨r, h, p, rfl⟩ := hfit
          have hone : (∀ r' h' p', (.ok ⟨some ['1'], some r, some h, some p⟩ :
              Except PairingUriErrorCode QueryFields) =
                .ok ⟨some ['1'], some r', some h', some p'⟩ → FieldsAlike dart parts words r' h' p') ↔
              FieldsAlike dart parts words r h p := by
            constructor
            · exact fun hall => hall r h p rfl
            · rintro hone r' h' p' heq
              cases heq
              exact hone
          rw [hone, ← fields_iff hE]
          constructor
          · rintro ⟨host, hhost, hsame⟩
            cases hhost
            exact hsame
          · intro hsame
            exact ⟨_, rfl, hsame⟩
        · have hfit : ∀ r h p, fields ≠ ⟨some ['1'], some r, some h, some p⟩ :=
            fun r h p heq => hfit ⟨r, h, p, heq⟩
          obtain ⟨e, hhost, hdevice⟩ := unfit_fields E (withUri dart parts) words hfit
          refine ⟨fun _ r h p hok => absurd (Except.ok.inj hok) (hfit r h p), fun _ => ?_⟩
          refine ⟨_, rfl, .inr ?_⟩
          simp only [told, Except.bind, hhost, hdevice, readPhrase]
          exact same_error e
    · rw [if_neg hlegible]
      constructor
      · rintro ⟨host, hhost, -⟩
        cases hhost
      · exact fun h => absurd h.1 hlegible

end HerdrMobile.App.UriAgreement
