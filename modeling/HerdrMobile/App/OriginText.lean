import HerdrMobile.App.DartUri

/-!
# Texts that write an origin

What `parseRelayOrigin` makes of a text, by how the text is written: an origin, one whose port is
too long to be read, or none.
-/
namespace HerdrMobile.App.OriginText

open HerdrMobile.Lib HerdrMobile.Lib.Strings HerdrMobile.App.PairingText HerdrMobile.App.DartUri

set_option autoImplicit false

/-- The Device with the parser of `DartUri`. -/
def withUri (dart : Dart) (parts : Components) : Dart := { dart with uriParse := uriParse parts }

/-- `http` or `https` in letters of either case, then a host without user info, and behind its port
at most a slash. -/
structure Shaped (parts : Components) (name : Text) (authority : Authority) (scheme host : Text) :
    Prop where
  web : scheme = "http".toList ∨ scheme = "https".toList
  named : host ≠ []
  scheme : makeScheme name = some scheme
  host : makeHost parts authority.host = some host
  userInfo : parts.makeUserInfo authority.userInfo = []
  path : parts.makePath (pathText authority.rest) = [] ∨
    parts.makePath (pathText authority.rest) = ['/']
  query : parts.makeQuery (queryText authority.rest) = []
  fragment : parts.makeFragment (fragmentText authority.rest) = []

/-- The text writes the origin, with a port of 64 bits where it has one. -/
def Writes (parts : Components) (text : Text) (origin : RelayOrigin) : Prop :=
  ∃ name rest, splitScheme text = some (name, rest) ∧
    Shaped parts name (authorityOf rest) origin.scheme origin.host ∧
    makePort origin.scheme (authorityOf rest).port = some origin.port

/-- The text writes an origin, and is simple, but for the number of its port. -/
def WritesOverlong (parts : Components) (text : Text) : Prop :=
  ∃ name rest scheme host digits, splitScheme text = some (name, rest) ∧
    Shaped parts name (authorityOf rest) scheme host ∧
    isSimple parts text name (authorityOf rest) = true ∧
    (authorityOf rest).port = some digits ∧ 2 ^ 63 ≤ Nat.ofDigitChars 10 digits 0

/-- Without encryption, and outside the networks where that is permitted. -/
def Insecure (dart : Dart) (origin : RelayOrigin) : Prop :=
  origin.scheme = "http".toList ∧ isLocalDevelopmentHost dart origin.host = false

instance (dart : Dart) (origin : RelayOrigin) : Decidable (Insecure dart origin) :=
  inferInstanceAs (Decidable (_ ∧ _))

section Parse

variable {dart : Dart} {parts : Components} {text name rest scheme host : Text}
  {authority : Authority} {origin : RelayOrigin}

theorem intTryParse_digits {digits : Text} (hne : digits ≠ [])
    (h : ∀ c ∈ digits, c.isDigit = true) :
    intTryParse digits = inInt64 (Nat.ofDigitChars 10 digits 0) := by
  have htrim : PairingText.trim digits = digits := by
    refine Collapse.trimBy_eq_self fun c hc => ?_
    have hrange := isDigit_range (h c hc)
    rw [isTrimmed, isWhitespace]
    simp only [Bool.or_eq_false_iff, Bool.and_eq_false_iff, decide_eq_false_iff_not]
    omega
  have hvalue : unsignedValue digits = inInt64 (Nat.ofDigitChars 10 digits 0) := by
    rw [(decimal_digits h).1, digitsValue, if_neg hne, foldlM_digits h]
    exact Option.bind_some _ _
  rw [intTryParse, htrim]
  split
  · exact absurd rfl (isDigit_ne (h '-' List.mem_cons_self) (by decide))
  · exact absurd rfl (isDigit_ne (h '+' List.mem_cons_self) (by decide))
  · exact hvalue

/-- The port of a simple text is a number, and only its size can be wrong. -/
theorem makePort_simple (scheme : Text) (h : isSimple parts text name authority = true) :
    makePort scheme authority.port = none ↔
      ∃ digits, authority.port = some digits ∧ 2 ^ 63 ≤ Nat.ofDigitChars 10 digits 0 := by
  rw [isSimple] at h
  split at h
  · rename_i first digits hport
    simp only [Bool.and_eq_true] at h
    have hdigits := List.all_eq_true.mp h.1.1.2
    rw [hport, makePort, intTryParse_digits (List.cons_ne_nil _ _) hdigits, Option.map_eq_none_iff,
      inInt64]
    · simp only [Option.some.injEq, exists_eq_left', ite_eq_right_iff, reduceCtorEq]
      constructor
      · intro hlong
        by_contra hfits
        exact hlong ⟨by omega, by omega⟩
      · rintro hlong ⟨-, hfits⟩
        omega
    · intro hempty
      cases hempty
  · cases h

theorem uriParse_shaped (hsplit : splitScheme text = some (name, rest))
    (h : Shaped parts name (authorityOf rest) scheme host) :
    uriParse parts text = (portOf parts text name scheme (authorityOf rest)).map fun port =>
      ⟨scheme, [], host, port, parts.makePath (pathText (authorityOf rest).rest), [], []⟩ := by
  simp only [uriParse, hsplit, Option.bind_eq_bind, Option.bind_some, h.scheme, h.host, h.userInfo,
    h.query, h.fragment]
  cases portOf parts text name scheme (authorityOf rest) <;> rfl

theorem parse_shaped (hsplit : splitScheme text = some (name, rest))
    (h : Shaped parts name (authorityOf rest) scheme host) {port : Option (Option Int)}
    (hport : portOf parts text name scheme (authorityOf rest) = some port) :
    parseRelayOrigin (withUri dart parts) text =
      port.elim (.error .formatException) fun port =>
        if Insecure dart ⟨scheme, host, port⟩ then .error (.origin .relayOriginInsecure)
        else .ok ⟨scheme, host, port⟩ := by
  have huri : (withUri dart parts).uriParse text =
      some ⟨scheme, [], host, port, parts.makePath (pathText (authorityOf rest).rest), [], []⟩ := by
    change uriParse parts text = _
    rw [uriParse_shaped hsplit h, hport]
    rfl
  rw [parseRelayOrigin, huri]
  dsimp only
  rw [if_pos ⟨h.web, h.named, rfl, h.path, rfl, rfl⟩]
  cases port with
  | none => rfl
  | some port => rfl

theorem parse_of_writes (dart : Dart) (h : Writes parts text origin) :
    parseRelayOrigin (withUri dart parts) text =
      if Insecure dart origin then .error (.origin .relayOriginInsecure) else .ok origin := by
  obtain ⟨name, rest, hsplit, hshaped, hport⟩ := h
  exact parse_shaped hsplit hshaped (portOf_ok.mpr hport)

theorem parse_of_overlong (dart : Dart) (h : WritesOverlong parts text) :
    parseRelayOrigin (withUri dart parts) text = .error .formatException := by
  obtain ⟨name, rest, scheme, host, digits, hsplit, hshaped, hsimple, hdigits, hlong⟩ := h
  have hport := (makePort_simple scheme hsimple).mpr ⟨digits, hdigits, hlong⟩
  exact parse_shaped hsplit hshaped (portOf_throws.mpr ⟨hport, hsimple⟩)

/-- What is refused as no origin writes none, and what is not refused so writes one. -/
theorem parse_cases (dart : Dart) (parts : Components) (text : Text) :
    (∃ origin, Writes parts text origin) ∨ WritesOverlong parts text ∨
      parseRelayOrigin (withUri dart parts) text = .error (.origin .relayOriginInvalid) := by
  rw [parseRelayOrigin]
  split
  · exact .inr (.inr rfl)
  rename_i uri huri
  split
  · rename_i hshape
    obtain ⟨hweb, hnamed, huser, hpath, hquery, hfragment⟩ := hshape
    change uriParse parts text = some uri at huri
    simp only [uriParse, Option.bind_eq_bind, Option.bind_eq_some_iff] at huri
    obtain ⟨⟨name, rest⟩, hsplit, scheme, hscheme, host, hhost, port, hport, heq⟩ := huri
    cases heq
    have hshaped : Shaped parts name (authorityOf rest) scheme host :=
      ⟨hweb, hnamed, hscheme, hhost, huser, hpath, hquery, hfragment⟩
    cases port with
    | some port =>
      exact .inl ⟨⟨scheme, host, port⟩, name, rest, hsplit, hshaped, portOf_ok.mp hport⟩
    | none =>
      obtain ⟨hnone, hsimple⟩ := portOf_throws.mp hport
      obtain ⟨digits, hdigits, hlong⟩ := (makePort_simple scheme hsimple).mp hnone
      exact .inr (.inl ⟨name, rest, scheme, host, digits, hsplit, hshaped, hsimple, hdigits, hlong⟩)
  · exact .inr (.inr rfl)

theorem parse_ok : parseRelayOrigin (withUri dart parts) text = .ok origin ↔
    Writes parts text origin ∧ ¬Insecure dart origin := by
  constructor
  · intro hok
    obtain ⟨written, hwrites⟩ | hlong | hinvalid := parse_cases dart parts text
    · have hparse := parse_of_writes dart hwrites
      rw [hok] at hparse
      split at hparse
      · cases hparse
      · rename_i hsecure
        cases hparse
        exact ⟨hwrites, hsecure⟩
    · cases hok.symm.trans (parse_of_overlong dart hlong)
    · cases hok.symm.trans hinvalid
  · rintro ⟨hwrites, hsecure⟩
    rw [parse_of_writes dart hwrites, if_neg hsecure]

/-- An origin is refused as insecure, and what is none as invalid unless its port throws. -/
theorem parse_error {cause : PairingText.Cause}
    (herr : parseRelayOrigin (withUri dart parts) text = .error cause) :
    cause = .origin .relayOriginInsecure ∧
        (∃ origin, Writes parts text origin ∧ Insecure dart origin) ∨
      (∀ origin, ¬Writes parts text origin) ∧
        (cause = .formatException ∧ WritesOverlong parts text ∨
          cause = .origin .relayOriginInvalid ∧ ¬WritesOverlong parts text) := by
  have hwritten : ∀ written, Writes parts text written →
      Insecure dart written ∧ cause = .origin .relayOriginInsecure := by
    intro written hwrites
    have hparse := parse_of_writes dart hwrites
    rw [herr] at hparse
    split at hparse
    · rename_i hinsecure
      cases hparse
      exact ⟨hinsecure, rfl⟩
    · cases hparse
  obtain ⟨written, hwrites⟩ | hlong | hinvalid := parse_cases dart parts text
  · obtain ⟨hinsecure, hcause⟩ := hwritten written hwrites
    exact .inl ⟨hcause, written, hwrites, hinsecure⟩
  · cases herr.symm.trans (parse_of_overlong dart hlong)
    refine .inr ⟨fun written hwrites => ?_, .inl ⟨rfl, hlong⟩⟩
    cases (hwritten written hwrites).2
  · cases herr.symm.trans hinvalid
    refine .inr ⟨fun written hwrites => ?_, .inr ⟨rfl, fun hlong => ?_⟩⟩
    · cases (hwritten written hwrites).2
    · cases hinvalid.symm.trans (parse_of_overlong dart hlong)

end Parse

/-- A library that knows one IPv6 address, and leaves alone what stands around a host. -/
def loopback (raw : Text) : Option Text :=
  if raw = "::1".toList then some "::1".toList else none

theorem loopback_some {raw host : Text} (h : loopback raw = some host) : host = "::1".toList :=
  (Option.some.inj (Option.ite_none_right_eq_some.mp h).2).symm

def plainParts : Components where
  isSimpleRest text := text = [] || text = ['/']
  ipv6 := loopback
  ipv6_colon raw host h := by
    rw [loopback_some h]
    decide
  ipv6_bracket raw host h := by
    rw [loopback_some h]
    decide
  ipvFuture _ := none
  ipvFuture_version _ _ := nofun
  ipvFuture_bracket _ _ := nofun
  ipvFuture_self _ _ := nofun
  makeUserInfo text := text
  makeUserInfo_nil := rfl
  makePath text := text
  makePath_nil := rfl
  makeQuery text := text
  makeQuery_nil := rfl
  makeFragment text := text
  makeFragment_nil := rfl

end HerdrMobile.App.OriginText
