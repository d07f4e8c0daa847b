import Mathlib.Algebra.Ring.Nat
import HerdrMobile.Proto.PairingUri

/-!
# What is built is read back

The parts of a pairing URI come back one after the other: the base64 of the handle,
the percent escapes byte by byte, the fields from between the separators. The fields
may stand in any order, because each one sets a slot of its own.
-/

namespace HerdrMobile.Proto

open Lib Strings Utf8

namespace Handle

variable {ε : Type} {E : Engine ε}

theorem encode_symbols (hE : E.UrlSafeNoPad) (handle : Handle) :
    ∀ c ∈ handle.encode E, c.toNat < 128 ∧ c ≠ '&' := by
  intro c hc
  rw [encode, hE.encode] at hc
  have hall : (urlSafe.symbols.all fun s => s.toNat < 128 && s ≠ '&') = true := by decide
  simpa using List.all_eq_true.mp hall c (urlSafe.mem_encode hc)

theorem length_encode (hE : E.UrlSafeNoPad) (handle : Handle) :
    (handle.encode E).length = handleLen := by
  rw [encode, hE.encode, urlSafe.length_encode, handle.size]
  rfl

theorem fromStr_encode (hE : E.UrlSafeNoPad) (handle : Handle) :
    fromStr E (handle.encode E) = .ok handle := by
  have hlen : (utf8 (handle.encode E)).length = handleLen := by
    rw [length_utf8_ascii fun c hc => (encode_symbols hE handle c hc).1, length_encode hE]
  have hdecode : E.decode (handle.encode E) = .ok handle.bytes := by
    rw [hE.decode, encode, hE.encode, urlSafe.decode_encode]
  rw [fromStr, if_neg (not_not.mpr hlen), hdecode]
  simp [handle.size]

theorem encode_of_fromStr (hE : E.UrlSafeNoPad) {candidate : Text} {handle : Handle}
    (h : fromStr E candidate = .ok handle) : handle.encode E = candidate := by
  rw [fromStr] at h
  split at h
  · cases h
  split at h
  · cases h
  · next decoded hdecode =>
    split at h
    · cases h
      rw [encode, hE.encode, urlSafe.encode_of_decode ((hE.decode _ _).mp hdecode)]
    · cases h

end Handle

theorem toNat_ofNat_ascii {n : Nat} (h : n < 128) : (Char.ofNat n).toNat = n := by
  have hvalid : n.isValidChar := .inl (by omega)
  rw [Char.ofNat, dif_pos hvalid]
  exact UInt32.toNat_ofNatLT

theorem hexUpper_digit : ∀ n < 16,
    (hexUpper n).toNat < 128 ∧ hexUpper n ≠ '&' ∧ isBoundary [asciiByte (hexUpper n)] ∧
      asciiByte (hexUpper n) ≠ 0x2B ∧ hexDigit (asciiByte (hexUpper n)) = some n := by
  decide

theorem isUnreserved_range {b : UInt8} (h : isUnreserved b) :
    b.toNat < 128 ∧ b ≠ 0x25 ∧ b ≠ 0x26 := by
  have hne : ∀ c : UInt8, ¬isUnreserved c → b ≠ c := by
    rintro c hc rfl
    exact hc h
  refine ⟨?_, hne _ (by decide), hne _ (by decide)⟩
  simp only [isUnreserved, Bool.or_eq_true, Bool.and_eq_true, decide_eq_true_eq] at h
  omega

theorem percentEncodeByte_chars (b : UInt8) :
    ∀ c ∈ percentEncodeByte b, c.toNat < 128 ∧ c ≠ '&' := by
  have hb := b.toNat_lt
  intro c hc
  rw [percentEncodeByte] at hc
  split at hc
  · next h =>
    obtain ⟨hlt, -, hamp⟩ := isUnreserved_range h
    obtain rfl := List.mem_singleton.mp hc
    refine ⟨by rwa [toNat_ofNat_ascii hlt], fun heq => hamp ?_⟩
    rw [← UInt8.toNat_inj, ← toNat_ofNat_ascii hlt, heq]
    rfl
  · have hhigh := hexUpper_digit (b.toNat / 16) (by omega)
    have hlow := hexUpper_digit (b.toNat % 16) (by omega)
    simp only [List.mem_cons, List.not_mem_nil, or_false] at hc
    rcases hc with rfl | rfl | rfl
    · decide
    · exact ⟨hhigh.1, hhigh.2.1⟩
    · exact ⟨hlow.1, hlow.2.1⟩

theorem percentEncode_chars (t : Text) : ∀ c ∈ percentEncode t, c.toNat < 128 ∧ c ≠ '&' := by
  intro c hc
  obtain ⟨b, -, hcb⟩ := List.mem_flatMap.mp hc
  exact percentEncodeByte_chars b c hcb

/-- An escape is one byte for itself, or a percent sign and two digits. -/
theorem percentEncodeByte_bytes (b : UInt8) :
    ((percentEncodeByte b).map asciiByte = [b] ∧ b ≠ 0x25) ∨
    ∃ first second, (percentEncodeByte b).map asciiByte = [0x25, first, second] ∧
      isBoundary [first] ∧ fromStrRadix16 first second = some b := by
  have hb := b.toNat_lt
  rw [percentEncodeByte]
  split
  · next h =>
    obtain ⟨hlt, hne, -⟩ := isUnreserved_range h
    left
    rw [List.map_singleton, asciiByte, toNat_ofNat_ascii hlt, UInt8.ofNat_toNat]
    exact ⟨rfl, hne⟩
  · obtain ⟨-, -, hbound, hplus, hhigh⟩ := hexUpper_digit (b.toNat / 16) (by omega)
    obtain ⟨-, -, -, -, hlow⟩ := hexUpper_digit (b.toNat % 16) (by omega)
    refine .inr ⟨_, _, rfl, hbound, ?_⟩
    rw [fromStrRadix16, if_neg hplus, hhigh, hlow]
    simp only [Nat.div_add_mod', UInt8.ofNat_toNat]

theorem percentDecodeBytes_plain {b : UInt8} (h : b ≠ 0x25) (rest : List UInt8) :
    percentDecodeBytes (b :: rest) = (percentDecodeBytes rest).map (b :: ·) := by
  rcases rest with _ | ⟨first, _ | ⟨second, more⟩⟩
  · rfl
  · rfl
  · rw [percentDecodeBytes, if_neg h]

theorem percentDecodeBytes_escaped (b : UInt8) {rest : List UInt8} (hr : isBoundary rest) :
    percentDecodeBytes ((percentEncodeByte b).map asciiByte ++ rest)
      = (percentDecodeBytes rest).map (b :: ·) := by
  rcases percentEncodeByte_bytes b with ⟨hb, hne⟩ | ⟨first, second, hb, hfirst, hvalue⟩
  · rw [hb, List.singleton_append, percentDecodeBytes_plain hne]
  · rw [hb, List.cons_append, List.cons_append, List.singleton_append, percentDecodeBytes,
      if_pos rfl, if_pos ⟨hfirst, hr⟩, hvalue]

theorem isBoundary_ascii {t : Text} (h : ∀ c ∈ t, c.toNat < 128) :
    isBoundary (t.map asciiByte) := by
  cases t with
  | nil => rfl
  | cons c rest =>
    have hc := h c List.mem_cons_self
    simp only [List.map_cons, isBoundary, isContinuation, asciiByte, UInt8.toNat_ofNat']
    simp
    omega

theorem percentDecode_percentEncode (t : Text) : percentDecode (percentEncode t) = some t := by
  have hbytes : ∀ bytes : List UInt8,
      percentDecodeBytes ((bytes.flatMap percentEncodeByte).map asciiByte) = some bytes := by
    intro bytes
    induction bytes with
    | nil => rfl
    | cons b rest ih =>
      have hrest : isBoundary ((rest.flatMap percentEncodeByte).map asciiByte) := by
        refine isBoundary_ascii fun c hc => ?_
        obtain ⟨d, -, hcd⟩ := List.mem_flatMap.mp hc
        exact (percentEncodeByte_chars d c hcd).1
      rw [List.flatMap_cons, List.map_append, percentDecodeBytes_escaped b hrest, ih,
        Option.map_some]
  rw [percentDecode, utf8_ascii fun c hc => (percentEncode_chars t c hc).1, percentEncode, hbytes,
    Option.map_some, fromUtf8Lossy_utf8]

/-- The field a pair sets. -/
def keyOf (pair : Text) : Option Field :=
  (splitOnce ['='] pair).bind fun (key, _) => fieldOf key

section Queries

variable {ε : Type}

theorem keyOf_of_split {pair key value : Text} (h : splitOnce ['='] pair = some (key, value)) :
    keyOf pair = fieldOf key := by
  rw [keyOf, h]
  rfl

/-- A pair is accepted with no effect, or it fills the slot of its field. -/
theorem addPair_ok {fields fields' : QueryFields} {pair : Text}
    (h : addPair (ε := ε) fields pair = some (.ok fields')) :
    (keyOf pair = none ∧ fields' = fields) ∨
    ∃ f value, keyOf pair = some f ∧ fields.get f = none ∧ fields' = fields.set value f := by
  rw [addPair] at h
  split at h
  · cases h
  · next key value hsplit =>
    have hkey := keyOf_of_split hsplit
    split at h
    · next hf =>
      cases h
      exact .inl ⟨hkey.trans hf, rfl⟩
    · next f hf =>
      split at h
      · cases h
      · next hnone =>
        obtain ⟨x, -, hx⟩ := Option.map_eq_some_iff.mp h
        cases hx
        exact .inr ⟨f, x, hkey.trans hf, by simpa using hnone, rfl⟩

/-- A field that is read stands in the query once, and so does one that was set before
not at all. -/
theorem count_of_addPairs {pairs : List Text} {fields out : QueryFields}
    (h : addPairs (ε := ε) fields pairs = some (.ok out)) (f : Field) :
    (pairs.filterMap keyOf).count f + (fields.get f).isSome.toNat = (out.get f).isSome.toNat := by
  induction pairs generalizing fields with
  | nil =>
    cases h
    simp
  | cons pair rest ih =>
    rw [addPairs] at h
    split at h
    · next fields' hpair =>
      have hrest := ih h
      rcases addPair_ok hpair with ⟨hkey, rfl⟩ | ⟨g, value, hkey, hnone, rfl⟩
      · rwa [List.filterMap_cons_none hkey]
      · rw [List.filterMap_cons_some hkey]
        rcases eq_or_ne f g with rfl | hne
        · rw [List.count_cons_self, hnone]
          rw [QueryFields.get_set_self] at hrest
          simpa using hrest
        · rw [List.count_cons_of_ne (Ne.symm hne)]
          rwa [QueryFields.get_set_of_ne _ _ hne] at hrest
    · next hfailed => exact absurd h (hfailed out)

/-- What a pair does to the fields where its own slot is free; a panic is nothing. -/
def change (pair : Text) : Option (QueryFields → QueryFields) :=
  match splitOnce ['='] pair with
  | none => some id
  | some (key, value) =>
    match fieldOf key with
    | none => some id
    | some f => (fieldValue f value).map fun value fields => fields.set value f

/-- Every pair has an equals sign, and no field has been set or comes twice. -/
structure Fresh (fields : QueryFields) (pairs : List Text) : Prop where
  equals : ∀ pair ∈ pairs, (splitOnce ['='] pair).isSome
  once : (pairs.filterMap keyOf).Nodup
  free : ∀ f ∈ pairs.filterMap keyOf, fields.get f = none

theorem Fresh.addPair {fields : QueryFields} {pair : Text} {rest : List Text}
    (h : Fresh fields (pair :: rest)) :
    Proto.addPair (ε := ε) fields pair = (change pair).map fun g => .ok (g fields) := by
  obtain ⟨⟨key, value⟩, hsplit⟩ := Option.isSome_iff_exists.mp (h.equals pair List.mem_cons_self)
  rcases hf : fieldOf key with _ | f
  · simp only [Proto.addPair, change, hsplit, hf, Option.map_some, id]
  · have hkey : keyOf pair = some f := (keyOf_of_split hsplit).trans hf
    have hfree := h.free f (by rw [List.filterMap_cons_some hkey]; exact List.mem_cons_self)
    simp only [Proto.addPair, change, hsplit, hf, hfree, Option.isSome_none, Bool.false_eq_true,
      if_false, Option.map_map]
    rfl

/-- A change sets the slot of the pair's field or nothing. -/
theorem change_cases {pair : Text} {g : QueryFields → QueryFields} (h : change pair = some g) :
    g = id ∨ ∃ f value, keyOf pair = some f ∧ g = fun fields => fields.set value f := by
  rw [change] at h
  split at h
  · cases h
    exact .inl rfl
  · next key value hsplit =>
    split at h
    · cases h
      exact .inl rfl
    · next f hf =>
      obtain ⟨x, -, rfl⟩ := Option.map_eq_some_iff.mp h
      exact .inr ⟨f, x, (keyOf_of_split hsplit).trans hf, rfl⟩

theorem Fresh.tail {fields : QueryFields} {pair : Text} {rest : List Text}
    {g : QueryFields → QueryFields} (h : Fresh fields (pair :: rest)) (hg : change pair = some g) :
    Fresh (g fields) rest := by
  have hsub : rest.filterMap keyOf ⊆ (pair :: rest).filterMap keyOf :=
    (List.sublist_cons_self pair rest).filterMap keyOf |>.subset
  have honce : (rest.filterMap keyOf).Nodup :=
    h.once.sublist ((List.sublist_cons_self pair rest).filterMap keyOf)
  refine ⟨fun p hp => h.equals p (List.mem_cons_of_mem pair hp), honce, ?_⟩
  intro f hf
  have hfree := h.free f (hsub hf)
  rcases change_cases hg with rfl | ⟨k, value, hkey, rfl⟩
  · exact hfree
  · have hne : f ≠ k := by
      rintro rfl
      have hnodup := h.once
      rw [List.filterMap_cons_some hkey] at hnodup
      exact (List.nodup_cons.mp hnodup).1 hf
    rwa [QueryFields.get_set_of_ne _ _ hne]

theorem Fresh.addPairs {fields : QueryFields} {pair : Text} {rest : List Text}
    (h : Fresh fields (pair :: rest)) :
    Proto.addPairs (ε := ε) fields (pair :: rest)
      = (change pair).bind fun g => Proto.addPairs (g fields) rest := by
  rw [Proto.addPairs, h.addPair]
  rcases change pair with _ | g <;> rfl

theorem Fresh.perm {fields : QueryFields} {pairs pairs' : List Text} (h : Fresh fields pairs)
    (hp : pairs.Perm pairs') : Fresh fields pairs' :=
  ⟨fun p hmem => h.equals p (hp.mem_iff.mpr hmem), (hp.filterMap keyOf).nodup_iff.mp h.once,
    fun f hmem => h.free f ((hp.filterMap keyOf).mem_iff.mpr hmem)⟩

/-- The changes of two pairs of different fields commute. -/
theorem Fresh.swap {fields : QueryFields} {p q : Text} {rest : List Text}
    (h : Fresh fields (p :: q :: rest)) :
    Proto.addPairs (ε := ε) fields (p :: q :: rest)
      = Proto.addPairs fields (q :: p :: rest) := by
  have h' : Fresh fields (q :: p :: rest) := h.perm (.swap q p rest)
  rw [h.addPairs, h'.addPairs]
  rcases hf : change p with _ | f
  · rcases hg : change q with _ | g
    · rfl
    · rw [Option.bind_none, Option.bind_some, (h'.tail hg).addPairs, hf, Option.bind_none]
  · rcases hg : change q with _ | g
    · rw [Option.bind_none, Option.bind_some, (h.tail hf).addPairs, hg, Option.bind_none]
    · rw [Option.bind_some, Option.bind_some, (h.tail hf).addPairs, (h'.tail hg).addPairs, hf, hg,
        Option.bind_some, Option.bind_some]
      have hcomm : g (f fields) = f (g fields) := by
        rcases change_cases hf with rfl | ⟨k, x, hk, rfl⟩
        · rfl
        rcases change_cases hg with rfl | ⟨l, y, hl, rfl⟩
        · rfl
        have hne : k ≠ l := by
          have honce := h.once
          rw [List.filterMap_cons_some hk, List.filterMap_cons_some hl] at honce
          rintro rfl
          exact (List.nodup_cons.mp honce).1 List.mem_cons_self
        exact QueryFields.set_comm fields x y hne
      rw [hcomm]

theorem Fresh.order {fields : QueryFields} {pairs pairs' : List Text} (hp : pairs.Perm pairs')
    (h : Fresh fields pairs) :
    Proto.addPairs (ε := ε) fields pairs = Proto.addPairs fields pairs' := by
  induction hp generalizing fields with
  | nil => rfl
  | @cons pair l l' hl ih =>
    rw [h.addPairs, (h.perm (hl.cons pair)).addPairs]
    rcases hg : change pair with _ | g
    · rfl
    · exact ih (h.tail hg)
  | swap p q rest => exact h.swap
  | trans hl hr ihl ihr => exact (ihl h).trans (ihr (h.perm hl))

end Queries

/-- A URI with the given pairs in its query. -/
def uriOf (pairs : List Text) : Text :=
  pairingUriScheme ++ "://pair?".toList ++ ['&'].intercalate pairs

section Uris

variable {ε : Type} {E : Engine ε}

theorem parse_of_query {query : Text}
    (hlen : (utf8 (pairingUriScheme ++ "://pair?".toList ++ query)).length ≤ pairingUriMaxLen) :
    PairingUri.parse E (pairingUriScheme ++ "://pair?".toList ++ query)
      = (addPairs {} (query.splitOn '&')).map fun fields => fields.bind (·.validate E) := by
  have hstrip : (stripPrefix pairingUriScheme
      (pairingUriScheme ++ "://pair?".toList ++ query)).bind (stripPrefix "://".toList)
        = some ("pair".toList ++ '?' :: query) := by
    rw [List.append_assoc, stripPrefix_append, Option.bind_some]
    exact stripPrefix_append "://".toList ("pair".toList ++ '?' :: query)
  have hsplit : splitOnce ['?'] ("pair".toList ++ '?' :: query) = some ("pair".toList, query) :=
    splitOnce_append (by decide) query
  rw [PairingUri.parse, if_neg (by omega)]
  simp only [hstrip, hsplit, parseQuery]
  simp

theorem parse_uriOf {pairs : List Text} (hne : pairs ≠ []) (hamp : ∀ pair ∈ pairs, '&' ∉ pair)
    (hlen : (utf8 (uriOf pairs)).length ≤ pairingUriMaxLen) :
    PairingUri.parse E (uriOf pairs)
      = (addPairs {} pairs).map fun fields => fields.bind (·.validate E) := by
  rw [uriOf, parse_of_query hlen, List.splitOn_intercalate '&' hamp hne]

theorem parse_ok {uri : Text} {u : PairingUri} (h : PairingUri.parse E uri = some (.ok u)) :
    ∃ query fields, uri = pairingUriScheme ++ "://pair?".toList ++ query ∧
      addPairs {} (query.splitOn '&') = some (.ok fields : Except (PairingUriError ε) _) ∧
      fields.validate E = .ok u := by
  rw [PairingUri.parse] at h
  split at h
  · cases h
  split at h
  · cases h
  next rest hstrip =>
  split at h
  · cases h
  next path query hsplit =>
  split at h
  · cases h
  next hpath =>
  obtain ⟨result, hresult, hu⟩ := Option.map_eq_some_iff.mp h
  obtain ⟨tail, hscheme, htail⟩ := Option.bind_eq_some_iff.mp hstrip
  have huri : uri = pairingUriScheme ++ "://pair?".toList ++ query := by
    rw [eq_append_of_stripPrefix hscheme, eq_append_of_stripPrefix htail, eq_of_splitOnce hsplit,
      not_not.mp hpath]
    simp
  rcases result with e | fields
  · cases hu
  · exact ⟨query, fields, huri, hresult, hu⟩

/-- A validated query has all four fields. -/
theorem isSome_of_validate {fields : QueryFields} {u : PairingUri}
    (h : fields.validate E = .ok u) (f : Field) : (fields.get f).isSome := by
  rw [QueryFields.validate] at h
  split at h
  · cases h
  next hversion =>
  split at h
  · next horigin hhandle hphrase =>
    cases f <;> simp [QueryFields.get, horigin, hhandle, hphrase, not_not.mp hversion]
  · cases h

theorem length_utf8_intercalate (pairs : List Text) :
    (utf8 (['&'].intercalate pairs)).length
      = (pairs.map fun pair => (utf8 pair).length).sum + (pairs.length - 1) := by
  induction pairs with
  | nil => rfl
  | cons pair rest ih =>
    rcases eq_or_ne rest [] with rfl | hne
    · simp
    · have hpos := List.length_pos_iff.mpr hne
      have hamp : (utf8 ['&']).length = 1 := by decide
      rw [List.intercalate_cons_of_ne_nil hne, utf8_append, utf8_append, List.length_append,
        List.length_append, hamp, ih, List.map_cons, List.sum_cons, List.length_cons]
      omega

theorem length_uriOf_perm {pairs pairs' : List Text} (hp : pairs.Perm pairs') :
    (utf8 (uriOf pairs)).length = (utf8 (uriOf pairs')).length := by
  have hjoin : (utf8 (['&'].intercalate pairs)).length
      = (utf8 (['&'].intercalate pairs')).length := by
    rw [length_utf8_intercalate, length_utf8_intercalate, (hp.map _).sum_nat, hp.length_eq]
  rw [uriOf, uriOf, utf8_append, utf8_append _ (['&'].intercalate pairs'), List.length_append,
    List.length_append, hjoin]

/-- The pairs of the URI that is built. -/
def builtPairs (E : Engine ε) (u : PairingUri) : List Text :=
  ["v=1".toList, "r=".toList ++ percentEncode u.relayOrigin, "h=".toList ++ u.handle.encode E,
    "p=".toList ++ u.phrase]

theorem build_eq (u : PairingUri) : u.build E = uriOf (builtPairs E u) := by
  simp [PairingUri.build, uriOf, builtPairs, List.intercalate_cons_cons]

/-- A field that is free takes its value. -/
theorem addPair_eq {fields : QueryFields} {key : Char} {value x : Text} {f : Field}
    (hkey : key ≠ '=') (hf : fieldOf [key] = some f) (hfree : fields.get f = none)
    (hx : fieldValue f value = some x) :
    addPair (ε := ε) fields (key :: '=' :: value) = some (.ok (fields.set x f)) := by
  have hnot : '=' ∉ [key] := by simpa using hkey.symm
  have hsplit : splitOnce ['='] (key :: '=' :: value) = some ([key], value) :=
    splitOnce_append hnot value
  simp only [addPair, hsplit, hf, hfree, hx, Option.isSome_none, Option.map_some]
  rfl

theorem builtPairs_amp (hE : E.UrlSafeNoPad) (u : PairingUri) (hphrase : IsCanonical u.phrase) :
    ∀ pair ∈ builtPairs E u, '&' ∉ pair := by
  have horigin : '&' ∉ percentEncode u.relayOrigin := fun h => (percentEncode_chars _ _ h).2 rfl
  have hhandle : '&' ∉ u.handle.encode E := fun h => (Handle.encode_symbols hE _ _ h).2 rfl
  have hcanonical : '&' ∉ u.phrase := fun h => absurd (hphrase _ h) (by decide)
  simp [builtPairs, horigin, hhandle, hcanonical]

theorem addPairs_built (u : PairingUri) :
    addPairs (ε := ε) {} (builtPairs E u) = some (.ok
      ⟨some ['1'], some u.relayOrigin, some (u.handle.encode E), some u.phrase⟩) := by
  have hv : addPair (ε := ε) {} "v=1".toList = some (.ok { version := some ['1'] }) := rfl
  have hr : addPair (ε := ε) { version := some ['1'] }
      ('r' :: '=' :: percentEncode u.relayOrigin)
        = some (.ok { version := some ['1'], relayOrigin := some u.relayOrigin }) :=
    addPair_eq (f := .relayOrigin) (by decide) rfl rfl
      (percentDecode_percentEncode u.relayOrigin)
  have hh : addPair (ε := ε) { version := some ['1'], relayOrigin := some u.relayOrigin }
      ('h' :: '=' :: u.handle.encode E)
        = some (.ok ⟨some ['1'], some u.relayOrigin, some (u.handle.encode E), none⟩) :=
    addPair_eq (f := .handle) (by decide) rfl rfl rfl
  have hp : addPair (ε := ε) ⟨some ['1'], some u.relayOrigin, some (u.handle.encode E), none⟩
      ('p' :: '=' :: u.phrase)
        = some (.ok ⟨some ['1'], some u.relayOrigin, some (u.handle.encode E), some u.phrase⟩) :=
    addPair_eq (f := .phrase) (by decide) rfl rfl rfl
  simp only [builtPairs, addPairs, hv]
  simp [hr, hh, hp]

end Uris

/-- The pairing URI and the handle: what is built is read back, the order of the fields
does not matter, each of the four fields is there exactly once in an accepted text, and
the encoding of handles is inverse to the parser. -/
theorem pairing_uri_read_back {ε : Type} (E : Engine ε) (hE : E.UrlSafeNoPad) :
    (∀ u : PairingUri, isAbsoluteHttpOrigin u.relayOrigin → IsCanonical u.phrase →
      (utf8 (u.build E)).length ≤ pairingUriMaxLen →
      PairingUri.parse E (u.build E) = some (.ok u)) ∧
    (∀ pairs pairs' : List Text, pairs.Perm pairs' →
      (∀ pair ∈ pairs, '&' ∉ pair ∧ '=' ∈ pair) → (pairs.filterMap keyOf).Nodup →
      PairingUri.parse E (uriOf pairs) = PairingUri.parse E (uriOf pairs')) ∧
    (∀ uri u, PairingUri.parse E uri = some (.ok u) →
      ∃ query, uri = pairingUriScheme ++ "://pair?".toList ++ query ∧
        ∀ f : Field, ((query.splitOn '&').filterMap keyOf).count f = 1) ∧
    (∀ handle, Handle.fromStr E (handle.encode E) = .ok handle) ∧
    ∀ candidate handle, Handle.fromStr E candidate = .ok handle →
      handle.encode E = candidate ∧ candidate.length = handleLen := by
  refine ⟨?_, ?_, ?_, Handle.fromStr_encode hE, ?_⟩
  · intro u horigin hphrase hlen
    have hne : builtPairs E u ≠ [] := List.cons_ne_nil _ _
    rw [build_eq] at hlen ⊢
    rw [parse_uriOf hne (builtPairs_amp hE u hphrase) hlen, addPairs_built]
    simp [Except.bind, QueryFields.validate, horigin, Handle.fromStr_encode hE]
  · intro pairs pairs' hp hpairs honce
    have hlen := length_uriOf_perm hp
    by_cases htoo : (utf8 (uriOf pairs)).length > pairingUriMaxLen
    · rw [PairingUri.parse, PairingUri.parse, if_pos htoo, if_pos (hlen ▸ htoo)]
    rcases eq_or_ne pairs [] with rfl | hne
    · rw [List.nil_perm.mp hp]
    have hfresh : Fresh {} pairs := by
      refine ⟨fun pair hmem => ?_, honce, fun f _ => by cases f <;> rfl⟩
      exact splitOnce_of_mem (hpairs pair hmem).2
    have hne' : pairs' ≠ [] := fun h => hne (List.perm_nil.mp (h ▸ hp))
    rw [parse_uriOf hne (fun pair h => (hpairs pair h).1) (by omega),
      parse_uriOf hne' (fun pair h => (hpairs pair (hp.mem_iff.mpr h)).1) (by omega),
      hfresh.order hp]
  · intro uri u h
    obtain ⟨query, fields, huri, hpairs, hu⟩ := parse_ok h
    refine ⟨query, huri, fun f => ?_⟩
    have hcount := count_of_addPairs hpairs f
    have hstart : (({} : QueryFields).get f).isSome.toNat = 0 := by cases f <;> rfl
    rw [isSome_of_validate hu f, hstart] at hcount
    exact hcount
  · intro candidate handle h
    have henc := Handle.encode_of_fromStr hE h
    exact ⟨henc, henc ▸ Handle.length_encode hE handle⟩

/-- An engine that is the RFC's encoding. -/
def plainEngine : Engine Unit where
  encode := urlSafe.encode
  decode text :=
    match urlSafe.decode text with
    | some bytes => .ok bytes
    | none => .error ()

theorem plainEngine_urlSafe : plainEngine.UrlSafeNoPad where
  encode _ := rfl
  decode text bytes := by
    simp only [plainEngine]
    rcases urlSafe.decode text with _ | decoded <;> simp

def exampleUri : PairingUri :=
  ⟨"https://relay.example.com".toList, ⟨.replicate 16 0, rfl⟩, "remedy-tapestry-hubcap".toList⟩

theorem pairing_uri_read_back_example :
    PairingUri.parse plainEngine (exampleUri.build plainEngine) = some (.ok exampleUri) :=
  (pairing_uri_read_back plainEngine plainEngine_urlSafe).1 exampleUri (by decide) (by decide)
    (by decide +kernel)

end HerdrMobile.Proto
