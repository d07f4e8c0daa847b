import HerdrMobile.Proto.UriRoundTrip

/-!
# The escapes of a pairing URI

The decoder slices the two bytes after every percent sign and gives them to
`u8::from_str_radix`. The slice ends inside a character where a character of two bytes or
more follows the first one, and one of three or more is the first; the number is also read
where a plus sign stands before a single digit. Nothing else goes wrong.
-/

namespace HerdrMobile.Proto

open Lib Strings Utf8

/-- The byte of exactly two hexadecimal digits. -/
def hexPair (first second : UInt8) : Option UInt8 :=
  match hexDigit first, hexDigit second with
  | some high, some low => some (UInt8.ofNat (high * 16 + low))
  | _, _ => none

/-- An escape is a percent sign with two digits; any other byte stands for itself. -/
@[grind =]
def strictDecodeBytes : List UInt8 → List UInt8
  | [] => []
  | byte :: first :: second :: rest =>
    if byte = 0x25 then
      match hexPair first second with
      | some value => value :: strictDecodeBytes rest
      | none => byte :: strictDecodeBytes (first :: second :: rest)
    else byte :: strictDecodeBytes (first :: second :: rest)
  | byte :: rest => byte :: strictDecodeBytes rest

/-- The slice of the next two bytes, where there are two, ends inside a character. -/
@[grind =]
def cutsCharacter : Text → Bool
  | first :: second :: _ => 3 ≤ first.utf8Size || (first.utf8Size = 1 && 2 ≤ second.utf8Size)
  | [first] => 3 ≤ first.utf8Size
  | [] => false

def hexChars : Text := "0123456789abcdefABCDEF".toList

/-- The next two characters are a plus sign and a digit. -/
@[grind =]
def signedDigit : Text → Bool
  | '+' :: digit :: _ => digit ∈ hexChars
  | _ => false

/-- What stands after some percent sign of the text is as `p` says. -/
def AfterPercent (p : Text → Bool) (value : Text) : Prop :=
  ∃ before after, value = before ++ '%' :: after ∧ p after

/-- The parser comes to decode this value: the query holds it under `r`, and nothing
before it is refused. -/
def Decodes (uri value : Text) : Prop :=
  (utf8 uri).length ≤ pairingUriMaxLen ∧
    ∃ query before after, uri = pairingUriScheme ++ "://pair?".toList ++ query ∧
      query.splitOn '&' = before ++ ("r=".toList ++ value) :: after ∧
      Fresh {} (before ++ ["r=".toList ++ value])

@[simp] theorem not_afterPercent_nil (p : Text → Bool) : ¬AfterPercent p [] := by
  rintro ⟨before, after, heq, -⟩
  exact absurd heq.symm (by simp)

theorem afterPercent_percent (p : Text → Bool) (t : Text) :
    AfterPercent p ('%' :: t) ↔ p t ∨ AfterPercent p t := by
  constructor
  · rintro ⟨_ | ⟨c, before⟩, after, heq, hp⟩
    · rw [List.nil_append, List.cons.injEq] at heq
      exact .inl (heq.2 ▸ hp)
    · rw [List.cons_append, List.cons.injEq] at heq
      exact .inr ⟨before, after, heq.2, hp⟩
  · rintro (hp | ⟨before, after, rfl, hp⟩)
    · exact ⟨[], t, rfl, hp⟩
    · exact ⟨'%' :: before, after, rfl, hp⟩

theorem afterPercent_of_ne (p : Text → Bool) {c : Char} (h : c ≠ '%') (t : Text) :
    AfterPercent p (c :: t) ↔ AfterPercent p t := by
  constructor
  · rintro ⟨_ | ⟨d, before⟩, after, heq, hp⟩
    · rw [List.nil_append, List.cons.injEq] at heq
      exact absurd heq.1 h
    · rw [List.cons_append, List.cons.injEq] at heq
      exact ⟨before, after, heq.2, hp⟩
  · rintro ⟨before, after, rfl, hp⟩
    exact ⟨c :: before, after, rfl, hp⟩

theorem hexDigit_ascii {b : UInt8} {n : Nat} (h : hexDigit b = some n) : b.toNat < 128 := by
  simp only [hexDigit] at h
  split at h
  · omega
  split at h
  · omega
  split at h
  · omega
  · cases h

theorem hexDigit_lead {b : UInt8} (h : 0xC0 ≤ b.toNat) : hexDigit b = none := by
  cases hdigit : hexDigit b with
  | none => rfl
  | some n =>
    have hlt := hexDigit_ascii hdigit
    omega

theorem hexPair_some {first second value : UInt8} (h : hexPair first second = some value) :
    ∃ high low, hexDigit first = some high ∧ hexDigit second = some low := by
  rw [hexPair] at h
  split at h
  · next high low hhigh hlow => exact ⟨high, low, hhigh, hlow⟩
  · cases h

theorem fromStrRadix16_of_ne {first : UInt8} (h : first ≠ 0x2B) (second : UInt8) :
    fromStrRadix16 first second = hexPair first second := by
  rw [fromStrRadix16, if_neg h]
  rfl

theorem fromStrRadix16_plus (second : UInt8) :
    fromStrRadix16 0x2B second = (hexDigit second).map UInt8.ofNat := by
  rw [fromStrRadix16, if_pos rfl]

theorem fromStrRadix16_lead {first : UInt8} (h : 0xC0 ≤ first.toNat) (second : UInt8) :
    fromStrRadix16 first second = none := by
  have hne : first ≠ 0x2B := by
    rintro rfl
    exact absurd h (by decide)
  rw [fromStrRadix16_of_ne hne, hexPair, hexDigit_lead h]

/-- The byte the next two characters are read as. -/
@[grind =]
def escapeOf : Text → Option UInt8
  | first :: second :: _ =>
    if first.toNat < 128 ∧ second.toNat < 128 then
      fromStrRadix16 (asciiByte first) (asciiByte second)
    else none
  | _ => none

theorem percentDecodeBytes_other {bytes : List UInt8} (h : ∀ b ∈ bytes, b ≠ 0x25)
    (rest : List UInt8) :
    percentDecodeBytes (bytes ++ rest) = (percentDecodeBytes rest).map (bytes ++ ·) := by
  induction bytes with
  | nil => simp
  | cons b more ih =>
    rw [List.cons_append, percentDecodeBytes_plain (h b List.mem_cons_self),
      ih fun x hx => h x (List.mem_cons_of_mem b hx), Option.map_map]
    rfl

theorem strictDecodeBytes_plain {b : UInt8} (h : b ≠ 0x25) (rest : List UInt8) :
    strictDecodeBytes (b :: rest) = b :: strictDecodeBytes rest := by
  rcases rest with _ | ⟨first, _ | ⟨second, more⟩⟩
  · rfl
  · rfl
  · rw [strictDecodeBytes, if_neg h]

theorem strictDecodeBytes_other {bytes : List UInt8} (h : ∀ b ∈ bytes, b ≠ 0x25)
    (rest : List UInt8) :
    strictDecodeBytes (bytes ++ rest) = bytes ++ strictDecodeBytes rest := by
  induction bytes with
  | nil => rfl
  | cons b more ih =>
    rw [List.cons_append, strictDecodeBytes_plain (h b List.mem_cons_self),
      ih fun x hx => h x (List.mem_cons_of_mem b hx), List.cons_append]

/-- The byte of the percent sign stands for no other character, and in none. -/
theorem no_percent {c : Char} (h : c ≠ '%') : ∀ b ∈ String.utf8EncodeChar c, b ≠ 0x25 := by
  rintro b hb rfl
  obtain ⟨hascii, hbyte⟩ := ascii_of_mem hb (by decide)
  exact h (asciiByte_inj hascii (by decide) hbyte.symm)

theorem utf8_percent (t : Text) : utf8 ('%' :: t) = 0x25 :: utf8 t := rfl

/-- One percent sign: the slice panics, or two characters are an escape, or the sign
stands for itself. -/
theorem percentDecodeBytes_percent (t : Text) :
    percentDecodeBytes (utf8 ('%' :: t))
      = if cutsCharacter t then none
        else
          match escapeOf t with
          | some value => (percentDecodeBytes (utf8 (t.drop 2))).map (value :: ·)
          | none => (percentDecodeBytes (utf8 t)).map (0x25 :: ·) := by
  rw [utf8_percent]
  rcases t with _ | ⟨first, rest⟩
  · rfl
  by_cases hfirst : first.toNat < 128
  · have hsize := utf8Size_ascii hfirst
    rw [utf8_ascii_cons hfirst]
    rcases rest with _ | ⟨second, rest⟩
    · simp only [cutsCharacter, hsize, escapeOf, utf8_nil]
      rfl
    by_cases hsecond : second.toNat < 128
    · have hbound : isBoundary (asciiByte first :: asciiByte second :: utf8 rest) := by
        rw [← utf8_ascii_cons hsecond, ← utf8_ascii_cons hfirst]
        exact isBoundary_utf8 _
      rw [utf8_ascii_cons hsecond, percentDecodeBytes, if_pos rfl,
        if_pos ⟨hbound, isBoundary_utf8 rest⟩]
      simp only [cutsCharacter, hsize, utf8Size_ascii hsecond, escapeOf, hfirst, hsecond]
      rfl
    · obtain ⟨lead, next, more, hbytes, -, hmore⟩ := utf8EncodeChar_long hsecond
      have hlen := String.length_utf8EncodeChar second
      rw [hbytes] at hlen
      have hcuts : cutsCharacter (first :: second :: rest) := by
        simp only [cutsCharacter, hsize, ← hlen, List.length_cons]
        simp
      have hnext : ¬isBoundary (next :: (more ++ utf8 rest)) := by
        simpa [isBoundary] using hmore next List.mem_cons_self
      rw [utf8_cons, hbytes, if_pos hcuts, List.cons_append, List.cons_append, percentDecodeBytes,
        if_pos rfl, if_neg fun h => hnext h.2]
  · obtain ⟨lead, next, more, hbytes, hlead, hmore⟩ := utf8EncodeChar_long hfirst
    have hlen := String.length_utf8EncodeChar first
    rw [hbytes, List.length_cons, List.length_cons] at hlen
    have hcuts : cutsCharacter (first :: rest) = decide (3 ≤ first.utf8Size) := by
      rcases rest with _ | ⟨second, rest⟩
      · rfl
      · have hne : first.utf8Size ≠ 1 := by omega
        simp [cutsCharacter, hne]
    have hescape : escapeOf (first :: rest) = none := by
      rcases rest with _ | ⟨second, rest⟩
      · rfl
      · rw [escapeOf, if_neg fun h => hfirst h.1]
    have hbound : isBoundary (lead :: next :: (more ++ utf8 rest)) := by
      have hall := isBoundary_utf8 (first :: rest)
      rwa [utf8_cons, hbytes] at hall
    rw [hcuts, hescape, utf8_cons, hbytes, List.cons_append, List.cons_append, percentDecodeBytes,
      if_pos rfl, fromStrRadix16_lead hlead]
    cases more with
    | nil =>
      have hsize : ¬3 ≤ first.utf8Size := by
        rw [← hlen]
        decide
      rw [if_pos ⟨hbound, isBoundary_utf8 rest⟩, decide_eq_false hsize]
      rfl
    | cons third more =>
      have hsize : 3 ≤ first.utf8Size := by
        rw [← hlen, List.length_cons]
        omega
      have hthird : ¬isBoundary (third :: more ++ utf8 rest) := by
        simpa [isBoundary] using hmore third (List.mem_cons_of_mem next List.mem_cons_self)
      rw [if_neg fun h => hthird h.2, decide_eq_true hsize, if_pos rfl]

theorem strictDecodeBytes_escape {first second value : UInt8}
    (h : hexPair first second = some value) (rest : List UInt8) :
    strictDecodeBytes (0x25 :: first :: second :: rest) = value :: strictDecodeBytes rest := by
  rw [strictDecodeBytes, if_pos rfl, h]

theorem strictDecodeBytes_literal {bytes : List UInt8}
    (h : ∀ first second rest, bytes = first :: second :: rest → hexPair first second = none) :
    strictDecodeBytes (0x25 :: bytes) = 0x25 :: strictDecodeBytes bytes := by
  rcases bytes with _ | ⟨first, _ | ⟨second, rest⟩⟩
  · rfl
  · rfl
  · rw [strictDecodeBytes, if_pos rfl, h first second rest rfl]

theorem escapeOf_some {t : Text} {value : UInt8} (h : escapeOf t = some value) :
    ∃ first second rest, t = first :: second :: rest ∧ first.toNat < 128 ∧ second.toNat < 128 ∧
      fromStrRadix16 (asciiByte first) (asciiByte second) = some value := by
  rcases t with _ | ⟨first, _ | ⟨second, rest⟩⟩
  · cases h
  · cases h
  rw [escapeOf] at h
  split at h
  · next hascii => exact ⟨first, second, rest, rfl, hascii.1, hascii.2, h⟩
  · cases h

theorem hexDigit_asciiByte {d : Char} (h : d.toNat < 128) :
    (hexDigit (asciiByte d)).isSome ↔ d ∈ hexChars := by
  have hall : ∀ n < 128, (hexDigit (asciiByte (Char.ofNat n))).isSome ↔
      Char.ofNat n ∈ hexChars := by
    decide +kernel
  have hd := hall d.toNat h
  rwa [Char.ofNat_toNat] at hd

/-- A sign or a digit is no percent sign, so that an escape hides none. -/
theorem escape_no_percent {first second : Char} {value : UInt8}
    (h : fromStrRadix16 (asciiByte first) (asciiByte second) = some value) :
    first ≠ '%' ∧ second ≠ '%' := by
  constructor
  · rintro rfl
    cases h
  · rintro rfl
    have hdigit : hexDigit (asciiByte '%') = none := rfl
    rw [fromStrRadix16, hdigit] at h
    split at h
    · cases h
    · split at h
      · next hlow => cases hlow
      · cases h

/-- The code reads as an escape what the strict decoder reads as one, and a plus sign with
a digit. -/
theorem escapeOf_cases {t : Text} {value : UInt8} (h : escapeOf t = some value) :
    ∃ first second rest, t = first :: second :: rest ∧ first ≠ '%' ∧ second ≠ '%' ∧
      ((signedDigit t = false ∧
          strictDecodeBytes (utf8 ('%' :: t)) = value :: strictDecodeBytes (utf8 rest)) ∨
        (signedDigit t = true ∧
          strictDecodeBytes (utf8 ('%' :: t))
            = 0x25 :: 0x2B :: asciiByte second :: strictDecodeBytes (utf8 rest))) := by
  obtain ⟨first, second, rest, rfl, hfirst, hsecond, hvalue⟩ := escapeOf_some h
  obtain ⟨hne, hne'⟩ := escape_no_percent hvalue
  refine ⟨first, second, rest, rfl, hne, hne', ?_⟩
  rw [utf8_percent, utf8_ascii_cons hfirst, utf8_ascii_cons hsecond]
  by_cases hplus : first = '+'
  · subst hplus
    obtain ⟨n, hdigit, -⟩ := Option.map_eq_some_iff.mp hvalue
    have hsome : (hexDigit (asciiByte second)).isSome := by
      rw [hdigit]
      rfl
    have hsecond' : asciiByte second ≠ 0x25 := by
      intro heq
      rw [heq] at hdigit
      cases hdigit
    right
    refine ⟨decide_eq_true ((hexDigit_asciiByte hsecond).mp hsome), ?_⟩
    rw [strictDecodeBytes_literal, strictDecodeBytes_plain (by decide),
      strictDecodeBytes_plain hsecond']
    · rfl
    · rintro a b more heq
      rw [List.cons.injEq] at heq
      rw [← heq.1]
      rfl
  · left
    have hbyte : asciiByte first ≠ 0x2B :=
      fun heq => hplus (asciiByte_inj hfirst (by decide) heq)
    rw [fromStrRadix16_of_ne hbyte] at hvalue
    refine ⟨?_, strictDecodeBytes_escape hvalue _⟩
    rw [signedDigit.eq_def]
    split
    · next heq => exact absurd (List.cons.inj heq).1 hplus
    · rfl

theorem escapeOf_none {t : Text} (h : escapeOf t = none) :
    signedDigit t = false ∧
      strictDecodeBytes (utf8 ('%' :: t)) = 0x25 :: strictDecodeBytes (utf8 t) := by
  constructor
  · rw [signedDigit.eq_def]
    split
    · next digit rest =>
      by_contra hdigit
      have hmem : digit ∈ hexChars := of_decide_eq_true (Bool.of_not_eq_false hdigit)
      have hall : (hexChars.all fun c => c.toNat < 128) = true := by decide
      have hascii : digit.toNat < 128 := by simpa using List.all_eq_true.mp hall digit hmem
      obtain ⟨n, hn⟩ := Option.isSome_iff_exists.mp ((hexDigit_asciiByte hascii).mpr hmem)
      rw [escapeOf, if_pos ⟨by decide, hascii⟩] at h
      have hread : fromStrRadix16 (asciiByte '+') (asciiByte digit) = some (UInt8.ofNat n) := by
        rw [show asciiByte '+' = 0x2B from rfl, fromStrRadix16_plus, hn]
        rfl
      rw [hread] at h
      cases h
    · rfl
  · rw [utf8_percent]
    refine strictDecodeBytes_literal fun a b rest heq => ?_
    cases hpair : hexPair a b with
    | none => rfl
    | some value =>
      obtain ⟨high, low, hhigh, hlow⟩ := hexPair_some hpair
      obtain ⟨first, more, rfl, hfirst, rfl, hmore⟩ := cons_of_utf8 heq (hexDigit_ascii hhigh)
      obtain ⟨second, rest, rfl, hsecond, rfl, -⟩ := cons_of_utf8 hmore.symm (hexDigit_ascii hlow)
      have hne : asciiByte first ≠ 0x2B := by
        intro hplus
        rw [hplus] at hhigh
        cases hhigh
      rw [escapeOf, if_pos ⟨hfirst, hsecond⟩, fromStrRadix16_of_ne hne, hpair] at h
      cases h

/-- A text is read one percent sign after the other: what follows it cuts a character, or
is an escape, or is read on its own. -/
theorem percent_induction {motive : Text → Prop} (nil : motive [])
    (other : ∀ c t, c ≠ '%' → motive t → motive (c :: t))
    (cut : ∀ t, cutsCharacter t = true → motive ('%' :: t))
    (escape : ∀ first second rest value, cutsCharacter (first :: second :: rest) = false →
      escapeOf (first :: second :: rest) = some value → motive rest →
        motive ('%' :: first :: second :: rest))
    (literal : ∀ t, cutsCharacter t = false → escapeOf t = none → motive t → motive ('%' :: t))
    (t : Text) : motive t := by
  induction hn : t.length using Nat.strong_induction_on generalizing t with
  | _ n ih =>
    rcases t with _ | ⟨c, t⟩
    · exact nil
    have hlen : t.length < n := by
      rw [← hn, List.length_cons]
      omega
    by_cases hc : c = '%'
    · subst hc
      cases hcut : cutsCharacter t with
      | true => exact cut t hcut
      | false =>
        cases hescape : escapeOf t with
        | none => exact literal t hcut hescape (ih t.length hlen t rfl)
        | some value =>
          obtain ⟨first, second, rest, rfl, -⟩ := escapeOf_some hescape
          refine escape first second rest value hcut hescape (ih rest.length ?_ rest rfl)
          simp only [List.length_cons] at hlen
          omega
    · exact other c t hc (ih t.length hlen t rfl)

theorem percentDecodeBytes_none (t : Text) :
    percentDecodeBytes (utf8 t) = none ↔ AfterPercent cutsCharacter t := by
  induction t using percent_induction with
  | nil => simp [percentDecodeBytes]
  | other c t hc ih =>
    rw [utf8_cons, percentDecodeBytes_other (no_percent hc), Option.map_eq_none_iff, ih,
      afterPercent_of_ne _ hc]
  | cut t hcut =>
    rw [percentDecodeBytes_percent, if_pos hcut, afterPercent_percent]
    simp [hcut]
  | escape first second rest value hcut hescape ih =>
    obtain ⟨x, y, more, heq, hx, hy, -⟩ := escapeOf_cases hescape
    cases heq
    rw [percentDecodeBytes_percent, hcut, if_neg Bool.false_ne_true, hescape, afterPercent_percent,
      hcut, afterPercent_of_ne _ hx, afterPercent_of_ne _ hy, ← ih]
    simp
  | literal t hcut hescape ih =>
    rw [percentDecodeBytes_percent, hcut, if_neg Bool.false_ne_true, hescape, afterPercent_percent,
      hcut, ← ih]
    simp

/-- Where the loop comes to an end, it read no less than the strict decoder into an escape,
and more exactly where a sign stands for a digit. -/
theorem percentDecodeBytes_some (t : Text) {out : List UInt8}
    (h : percentDecodeBytes (utf8 t) = some out) :
    out.length ≤ (strictDecodeBytes (utf8 t)).length ∧
      (out = strictDecodeBytes (utf8 t) ↔ ¬AfterPercent signedDigit t) := by
  induction t using percent_induction generalizing out with
  | nil =>
    cases h
    simp [strictDecodeBytes]
  | other c t hc ih =>
    rw [utf8_cons, percentDecodeBytes_other (no_percent hc)] at h
    obtain ⟨out, hout, rfl⟩ := Option.map_eq_some_iff.mp h
    obtain ⟨hle, hiff⟩ := ih hout
    rw [utf8_cons, strictDecodeBytes_other (no_percent hc), afterPercent_of_ne _ hc, ← hiff]
    simpa using hle
  | cut t hcut =>
    rw [percentDecodeBytes_percent, if_pos hcut] at h
    cases h
  | escape first second rest value hcut hescape ih =>
    rw [percentDecodeBytes_percent, hcut, if_neg Bool.false_ne_true, hescape] at h
    obtain ⟨out, hout, rfl⟩ := Option.map_eq_some_iff.mp h
    obtain ⟨hle, hiff⟩ := ih hout
    obtain ⟨x, y, more, heq, hx, hy, hstrict⟩ := escapeOf_cases hescape
    cases heq
    rw [afterPercent_percent, afterPercent_of_ne _ hx, afterPercent_of_ne _ hy]
    rcases hstrict with ⟨hsigned, hstrict⟩ | ⟨hsigned, hstrict⟩
    · rw [hstrict, hsigned, List.cons.injEq, hiff]
      simpa using hle
    · rw [hstrict, hsigned]
      simp only [List.length_cons]
      refine ⟨by omega, fun heq => ?_, fun hnone => absurd (.inl trivial) hnone⟩
      have hlength := congrArg List.length heq
      simp only [List.length_cons] at hlength
      omega
  | literal t hcut hescape ih =>
    rw [percentDecodeBytes_percent, hcut, if_neg Bool.false_ne_true, hescape] at h
    obtain ⟨out, hout, rfl⟩ := Option.map_eq_some_iff.mp h
    obtain ⟨hle, hiff⟩ := ih hout
    obtain ⟨hsigned, hstrict⟩ := escapeOf_none hescape
    rw [hstrict, afterPercent_percent, hsigned, List.cons.injEq, hiff]
    simpa using hle

section Queries

variable {ε : Type}

theorem splitOnce_origin (value : Text) :
    splitOnce ['='] ("r=".toList ++ value) = some (['r'], value) := by
  have hkey : '=' ∉ ['r'] := by decide
  exact splitOnce_append hkey value

theorem keyOf_origin (value : Text) : keyOf ("r=".toList ++ value) = some .relayOrigin :=
  (keyOf_of_split (splitOnce_origin value)).trans rfl

/-- A pair that panics is `r` with a value that does. -/
theorem addPair_none {fields : QueryFields} {pair : Text}
    (h : addPair (ε := ε) fields pair = none) :
    ∃ value, pair = "r=".toList ++ value ∧ fields.get .relayOrigin = none ∧
      AfterPercent cutsCharacter value := by
  rw [addPair] at h
  split at h
  · cases h
  next key value hsplit =>
  split at h
  · cases h
  next f hf =>
  split at h
  · cases h
  next hfree =>
  rw [Option.map_eq_none_iff, fieldValue] at h
  split at h
  · next horigin =>
    subst horigin
    have hkey : key = ['r'] := by
      simp only [fieldOf] at hf
      split at hf
      · cases hf
      split at hf
      · next hr => exact hr
      repeat' split at hf
      all_goals cases hf
    rw [percentDecode, Option.map_eq_none_iff, percentDecodeBytes_none] at h
    refine ⟨value, ?_, by simpa using hfree, h⟩
    rw [eq_of_splitOnce hsplit, hkey]
    rfl
  · cases h

theorem addPair_equals {fields fields' : QueryFields} {pair : Text}
    (h : addPair (ε := ε) fields pair = some (.ok fields')) : (splitOnce ['='] pair).isSome := by
  rw [addPair] at h
  split at h
  · cases h
  · next key value hsplit =>
    rw [hsplit]
    rfl

/-- A pair that was accepted is fresh before what is fresh after it. -/
theorem Fresh.cons {fields fields' : QueryFields} {pair : Text} {rest : List Text}
    (h : Proto.addPair (ε := ε) fields pair = some (.ok fields')) (hrest : Fresh fields' rest) :
    Fresh fields (pair :: rest) := by
  have hequals : ∀ p ∈ pair :: rest, (splitOnce ['='] p).isSome :=
    List.forall_mem_cons.mpr ⟨addPair_equals h, hrest.equals⟩
  rcases addPair_ok h with ⟨hkey, rfl⟩ | ⟨f, value, hkey, hnone, rfl⟩
  · refine ⟨hequals, ?_, ?_⟩ <;> rw [List.filterMap_cons_none hkey]
    · exact hrest.once
    · exact hrest.free
  · have hnot : f ∉ rest.filterMap keyOf := by
      intro hmem
      have hfree := hrest.free f hmem
      rw [QueryFields.get_set_self] at hfree
      cases hfree
    refine ⟨hequals, ?_, ?_⟩ <;> rw [List.filterMap_cons_some hkey]
    · exact List.nodup_cons.mpr ⟨hnot, hrest.once⟩
    · refine List.forall_mem_cons.mpr ⟨hnone, fun g hg => ?_⟩
      have hne : g ≠ f := by
        rintro rfl
        exact hnot hg
      rw [← hrest.free g hg, QueryFields.get_set_of_ne _ _ hne]

theorem Fresh.origin {fields : QueryFields} {value : Text}
    (h : fields.get .relayOrigin = none) : Fresh fields ["r=".toList ++ value] := by
  refine ⟨?_, ?_, ?_⟩
  · rw [List.forall_mem_singleton, splitOnce_origin]
    rfl
  · rw [List.filterMap_cons_some (keyOf_origin value)]
    exact List.nodup_singleton _
  · rw [List.filterMap_cons_some (keyOf_origin value)]
    simpa using h

/-- The query panics at the first `r` where nothing before it was refused. -/
theorem addPairs_none {pairs : List Text} {fields : QueryFields} :
    addPairs (ε := ε) fields pairs = none ↔
      ∃ before value after, pairs = before ++ ("r=".toList ++ value) :: after ∧
        Fresh fields (before ++ ["r=".toList ++ value]) ∧ AfterPercent cutsCharacter value := by
  constructor
  · intro h
    induction pairs generalizing fields with
    | nil => cases h
    | cons pair rest ih =>
      rw [addPairs] at h
      split at h
      · next fields' hpair =>
        obtain ⟨before, value, after, rfl, hfresh, hcut⟩ := ih h
        exact ⟨pair :: before, value, after, rfl, hfresh.cons hpair, hcut⟩
      · obtain ⟨value, rfl, hfree, hcut⟩ := addPair_none h
        exact ⟨[], value, rest, rfl, .origin hfree, hcut⟩
  · rintro ⟨before, value, after, rfl, hfresh, hcut⟩
    induction before generalizing fields with
    | nil =>
      have hdecode : percentDecode value = none := by
        rw [percentDecode, (percentDecodeBytes_none value).mpr hcut]
        rfl
      have hchange : change ("r=".toList ++ value) = none := by
        rw [change, splitOnce_origin]
        simp only [fieldOf, fieldValue, hdecode]
        rfl
      rw [List.nil_append, addPairs, hfresh.addPair, hchange]
      rfl
    | cons pair more ih =>
      rw [List.cons_append, addPairs, hfresh.addPair]
      cases hchange : change pair with
      | none => rfl
      | some g => exact ih (hfresh.tail hchange)

end Queries

section Uris

variable {ε : Type} {E : Engine ε}

/-- A panic is one of the decoder, in the query of a URI of the right form. -/
theorem parse_none {uri : Text} (h : PairingUri.parse E uri = none) :
    (utf8 uri).length ≤ pairingUriMaxLen ∧
      ∃ query, uri = pairingUriScheme ++ "://pair?".toList ++ query ∧
        addPairs (ε := ε) {} (query.splitOn '&') = none := by
  rw [PairingUri.parse] at h
  split at h
  · cases h
  next hlen =>
  split at h
  · cases h
  next rest hstrip =>
  split at h
  · cases h
  next path query hsplit =>
  split at h
  · cases h
  next hpath =>
  obtain ⟨tail, hscheme, htail⟩ := Option.bind_eq_some_iff.mp hstrip
  refine ⟨by omega, query, ?_, by simpa [parseQuery] using h⟩
  rw [eq_append_of_stripPrefix hscheme, eq_append_of_stripPrefix htail, eq_of_splitOnce hsplit,
    not_not.mp hpath]
  simp

theorem parse_panics {uri : Text} :
    PairingUri.parse E uri = none ↔
      ∃ value, Decodes uri value ∧ AfterPercent cutsCharacter value := by
  constructor
  · intro h
    obtain ⟨hlen, query, huri, hpairs⟩ := parse_none h
    obtain ⟨before, value, after, hquery, hfresh, hcut⟩ := (addPairs_none).mp hpairs
    exact ⟨value, ⟨hlen, query, before, after, huri, hquery, hfresh⟩, hcut⟩
  · rintro ⟨value, ⟨hlen, query, before, after, rfl, hquery, hfresh⟩, hcut⟩
    rw [parse_of_query hlen, (addPairs_none).mpr ⟨before, value, after, hquery, hfresh, hcut⟩]
    rfl

end Uris

/-- The parser has a result exactly where no value it comes to decode has a percent sign
whose slice cuts a character, and the decoder reads a text as it should exactly where no
such sign and no sign before a signed digit stands in it. -/
theorem uri_escapes_iff {ε : Type} (E : Engine ε) (uri input : Text) :
    (PairingUri.parse E uri ≠ none ↔
        ∀ value, Decodes uri value → ¬AfterPercent cutsCharacter value) ∧
      (percentDecodeBytes (utf8 input) = some (strictDecodeBytes (utf8 input)) ↔
        ¬AfterPercent cutsCharacter input ∧ ¬AfterPercent signedDigit input) := by
  constructor
  · rw [Ne, parse_panics]
    push Not
    rfl
  · rw [← percentDecodeBytes_none]
    cases hout : percentDecodeBytes (utf8 input) with
    | none => simp
    | some out =>
      rw [← (percentDecodeBytes_some input hout).2, Option.some.injEq]
      simp

/-- A percent sign before a euro sign stops the parser, and `%+1` is read as a byte. -/
theorem uri_escapes_violated :
    PairingUri.parse plainEngine "herdr-remote://pair?v=1&r=%€".toList = none ∧
      percentDecodeBytes (utf8 "%+1".toList) = some [0x01] ∧
        strictDecodeBytes (utf8 "%+1".toList) = "%+1".toList.map asciiByte := by
  decide

end HerdrMobile.Proto
