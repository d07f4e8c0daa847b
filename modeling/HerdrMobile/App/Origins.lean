import HerdrMobile.App.InputAgreement

/-!
# A relay origin is read again

A Device stores the canonical text of an origin and reads it again after a restart and at every
switch. A host that is a name or an IPv4 address comes back as it was; the brackets of an IPv6
address are lost when it is written.
-/
namespace HerdrMobile.App.Origins

open HerdrMobile.Lib.Strings HerdrMobile.App.PairingText HerdrMobile.App.DartUri
open HerdrMobile.App.OriginText (withUri plainParts)

set_option autoImplicit false

/-- `newUri` is the constructor of `Uri`, with a scheme, a host, a port and a path. -/
def webSocketUri (newUri : Text → Text → Option Int → Text → Uri) (origin : RelayOrigin)
    (path : Text) : Uri :=
  newUri (if origin.scheme = "https".toList then "wss".toList else "ws".toList) origin.host
    origin.port path

/-- The canonical text is read as an equal origin, with the same text and the same addresses. -/
def RoundTrips (dart : Dart) (origin : RelayOrigin) : Prop :=
  ∃ again, parseRelayOrigin dart origin.canonical = .ok again ∧ again = origin ∧
    again.canonical = origin.canonical ∧
    ∀ newUri path, webSocketUri newUri again path = webSocketUri newUri origin path

/-- The text writes its host as an IPv6 literal: in brackets, and without a later version. -/
def WritesIpv6 (text : Text) : Prop :=
  ∃ literal, hostText text = some ('[' :: literal) ∧ isFuture literal = false

/-- An origin that is accepted for its parts. -/
structure Accepted (dart : Dart) (origin : RelayOrigin) : Prop where
  scheme : origin.scheme = "http".toList ∨ origin.scheme = "https".toList
  host : origin.host ≠ []
  secure : ¬(origin.scheme = "http".toList ∧ isLocalDevelopmentHost dart origin.host = false)

section Parse

variable {dart : Dart} {text : Text} {origin : RelayOrigin}

theorem accepted_of_parse (h : parseRelayOrigin dart text = .ok origin) :
    Accepted dart origin ∧ ∃ uri, dart.uriParse text = some uri ∧
      uri.scheme = origin.scheme ∧ uri.host = origin.host ∧ uri.port = some origin.port := by
  rw [parseRelayOrigin] at h
  split at h
  · cases h
  · rename_i uri huri
    split at h
    · rename_i hshape
      split at h
      · cases h
      · rename_i port hport
        split at h
        · cases h
        · rename_i hsecure
          cases h
          exact ⟨⟨hshape.1, hshape.2.1, hsecure⟩, uri, huri, rfl, rfl, hport⟩
    · cases h

theorem parse_of_accepted (h : Accepted dart origin)
    (huri : dart.uriParse text = some ⟨origin.scheme, [], origin.host, some origin.port, [], [], []⟩) :
    parseRelayOrigin dart text = .ok origin := by
  have hshape : (origin.scheme = "http".toList ∨ origin.scheme = "https".toList) ∧
      origin.host ≠ [] ∧ ([] : Text) = [] ∧ (([] : Text) = [] ∨ ([] : Text) = ['/']) ∧
      ([] : Text) = [] ∧ ([] : Text) = [] :=
    ⟨h.scheme, h.host, rfl, .inl rfl, rfl, rfl⟩
  rw [parseRelayOrigin, huri]
  dsimp only
  rw [if_pos hshape, if_neg h.secure]

theorem canonical_eq (origin : RelayOrigin) :
    origin.canonical = origin.scheme ++ "://".toList ++ (origin.host ++ portText origin.port) := by
  unfold RelayOrigin.canonical
  split
  · rename_i hport
    rw [hport, portText, List.append_nil]
  · rename_i port hport
    rw [hport, portText, written, List.append_assoc]

variable {parts : Components}

theorem round_trip_of_itself (h : Accepted (withUri dart parts) origin)
    (hhost : Itself parts origin.host)
    (hport : makePort origin.scheme (origin.port.map written) = some origin.port) :
    RoundTrips (withUri dart parts) origin := by
  refine ⟨origin, parse_of_accepted h ?_, rfl, rfl, fun _ _ => rfl⟩
  rw [canonical_eq]
  exact uriParse_origin h.scheme (hhost.authority origin.port) hhost.made hport

/-- The first colon of the address ends the host that is read. -/
theorem lost_of_colon (h : Accepted (withUri dart parts) origin) (hcolon : ':' ∈ origin.host)
    (hbracket : '[' ∉ origin.host) : ¬ RoundTrips (withUri dart parts) origin := by
  rintro ⟨again, hparse, rfl, -⟩
  obtain ⟨-, uri, huri, -, heq, -⟩ := accepted_of_parse hparse
  have hrest : '[' ∉ again.host ++ portText again.port := by
    intro hmem
    obtain hhost | hport := List.mem_append.mp hmem
    · exact hbracket hhost
    · cases hvalue : again.port with
      | none =>
        rw [hvalue] at hport
        exact List.not_mem_nil hport
      | some value =>
        rw [hvalue] at hport
        obtain hcolon | hwritten := List.mem_cons.mp hport
        · cases hcolon
        · exact plain_ne (isPlain_written hwritten) (by decide) rfl
  rw [canonical_eq] at huri
  refine colonless_of_parse h.scheme hrest huri ?_
  rw [heq]
  exact hcolon

/-- What a Device has accepted it reads again exactly when the text wrote no IPv6 literal. -/
theorem origin_round_trip_iff (dart : Dart) (parts : Components) (text : Text)
    (origin : RelayOrigin) (h : parseRelayOrigin (withUri dart parts) text = .ok origin) :
    RoundTrips (withUri dart parts) origin ↔ ¬ WritesIpv6 text := by
  obtain ⟨haccepted, uri, huri, hscheme, hname, hread⟩ := accepted_of_parse h
  obtain ⟨name, rest, hsplit, hhost, hport⟩ := uriParse_some huri
  rw [hname] at hhost
  rw [hscheme, hread, portOf_ok] at hport
  have hwritten : hostText text = some (authorityOf rest).host := by rw [hostText, hsplit]; rfl
  obtain ⟨hitself, hfuture⟩ | ⟨⟨literal, hliteral, hnow⟩, hcolon, hbracket⟩ :=
    host_cases hhost haccepted.host
  · refine iff_of_true (round_trip_of_itself haccepted hitself (makePort_read hport)) ?_
    rintro ⟨literal, hliteral, hnow⟩
    rw [hwritten] at hliteral
    exact Bool.false_ne_true (hnow.symm.trans (hfuture literal (Option.some.inj hliteral)))
  · refine iff_of_false (lost_of_colon haccepted hcolon hbracket) fun hnone => hnone ?_
    exact ⟨literal, hwritten.trans (congrArg some hliteral), hnow⟩

end Parse

def plainUri : Dart := withUri InputAgreement.plainDart plainParts

theorem origin_round_trip_iff_name :
    RoundTrips plainUri ⟨"https".toList, "relay.example.com".toList, some 8443⟩ := by
  have hparse : parseRelayOrigin plainUri "https://Relay.example.com:8443/".toList =
      .ok ⟨"https".toList, "relay.example.com".toList, some 8443⟩ := by
    decide
  refine (origin_round_trip_iff InputAgreement.plainDart plainParts _ _ hparse).mpr ?_
  rintro ⟨literal, hliteral, -⟩
  have hhost : hostText "https://Relay.example.com:8443/".toList =
      some "Relay.example.com".toList := by
    decide
  rw [hhost] at hliteral
  cases hliteral

/-- The text of a loopback origin has no host when it is read again. -/
theorem ipv6_origin_lost :
    ¬∀ text origin, parseRelayOrigin plainUri text = .ok origin → RoundTrips plainUri origin := by
  intro hall
  have hparse : parseRelayOrigin plainUri "https://[::1]".toList =
      .ok ⟨"https".toList, "::1".toList, none⟩ := by
    decide
  obtain ⟨again, hagain, -⟩ := hall _ _ hparse
  have hrefused : parseRelayOrigin plainUri
      (RelayOrigin.canonical ⟨"https".toList, "::1".toList, none⟩) =
      .error (.origin .relayOriginInvalid) := by
    decide
  rw [hrefused] at hagain
  cases hagain

end HerdrMobile.App.Origins
