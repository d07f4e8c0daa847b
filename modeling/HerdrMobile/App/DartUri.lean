import HerdrMobile.App.PairingText
import HerdrMobile.Proto.Phrase
import Mathlib.Algebra.Ring.Int.Defs
import Mathlib.Algebra.Ring.Nat

/-!
# `Uri.parse` and `int.tryParse` of Dart

A URI with a scheme and an authority, and what the library makes of its host and its port. What is
no such URI has no parse here: `parseRelayOrigin` refuses it like one that is malformed. A port of
more than 64 bits throws at once, or only when it is asked for. The checks of an IP literal, and
what is done to the parts around the host, are parameters.
-/
namespace HerdrMobile.App.DartUri

open HerdrMobile.Lib HerdrMobile.Lib.Strings HerdrMobile.Lib.Utf8 HerdrMobile.App.PairingText
open HerdrMobile.Proto (hexUpper isUnreserved isLower_iff isUpper_iff toLower_of_not_isUpper)

set_option autoImplicit false

/-- The digits of a base, of which there is one at least. -/
def digitsValue (base : Nat) (digits : Text) : Option Nat :=
  if digits = [] then none
  else digits.foldlM (fun n c => ((hexDigit c.toNat).filter (· < base)).map (base * n + ·)) 0

def inInt64 (value : Int) : Option Int :=
  if -2 ^ 63 ≤ value ∧ value < 2 ^ 63 then some value else none

/-- Hexadecimal digits without a minus sign may fill all 64 bits. -/
def unsignedValue : Text → Option Int
  | '0' :: 'x' :: digits | '0' :: 'X' :: digits =>
    (digitsValue 16 digits).bind fun n =>
      if n < 2 ^ 63 then some n else if n < 2 ^ 64 then some (n - 2 ^ 64) else none
  | digits => (digitsValue 10 digits).bind fun n => inInt64 n

def negatedValue : Text → Option Int
  | '0' :: 'x' :: digits | '0' :: 'X' :: digits =>
    (digitsValue 16 digits).bind fun n => inInt64 (-n)
  | digits => (digitsValue 10 digits).bind fun n => inInt64 (-n)

def intTryParse (source : Text) : Option Int :=
  match PairingText.trim source with
  | '-' :: digits => negatedValue digits
  | '+' :: digits => unsignedValue digits
  | digits => unsignedValue digits

/-- `_isRegNameChar`: the unreserved characters and the delimiters within a part. -/
def isRegNameChar (c : Char) : Bool :=
  c.isAlphanum || c ∈ "-._~!$&'()*+,;=".toList

def isGeneralDelimiter (c : Char) : Bool := c ∈ ":/?#[]@".toList

def escapeByte (byte : UInt8) : Text :=
  ['%', hexUpper (byte.toNat / 16), hexUpper (byte.toNat % 16)]

def escapeChar (c : Char) : Text := (utf8 [c]).flatMap escapeByte

/-- `_normalizeEscape` of two digits: an unreserved character stands for itself. -/
def normalizeEscape (high low : Nat) : Text :=
  if isUnreserved (UInt8.ofNat (high * 16 + low)) then [(Char.ofNat (high * 16 + low)).toLower]
  else ['%', hexUpper high, hexUpper low]

@[grind =]
def normalizeRegName : Text → Option Text
  | [] => some []
  | '%' :: first :: second :: rest =>
    match hexDigit first.toNat, hexDigit second.toNat with
    | some high, some low => (normalizeRegName rest).map (normalizeEscape high low ++ ·)
    | _, _ => (normalizeRegName (first :: second :: rest)).map (escapeByte 0x25 ++ ·)
  | c :: rest =>
    if c = '%' then (normalizeRegName rest).map (escapeByte 0x25 ++ ·)
    else if isRegNameChar c then (normalizeRegName rest).map (c.toLower :: ·)
    else if isGeneralDelimiter c then none
    else (normalizeRegName rest).map (escapeChar c ++ ·)

/-- What the library does to the parts of an authority and behind it. An IP literal is what stands
between the brackets. The host that an IPv6 address gives has no brackets and a zone without one,
and the one of a later version keeps them. `isSimpleRest` is the scanner behind an authority, where
it finds nothing to normalize. -/
structure Components where
  isSimpleRest : Text → Bool
  ipv6 : Text → Option Text
  ipv6_colon : ∀ raw host, ipv6 raw = some host → ':' ∈ host
  ipv6_bracket : ∀ raw host, ipv6 raw = some host → '[' ∉ host
  ipvFuture : Text → Option Text
  ipvFuture_version : ∀ raw host, ipvFuture raw = some host → host.head? = some 'v'
  ipvFuture_bracket : ∀ raw host, ipvFuture raw = some host → ']' ∉ host
  ipvFuture_self : ∀ raw host, ipvFuture raw = some host → ipvFuture host = some host
  makeUserInfo : Text → Text
  makeUserInfo_nil : makeUserInfo [] = []
  makePath : Text → Text
  makePath_nil : makePath [] = []
  makeQuery : Text → Text
  makeQuery_nil : makeQuery [] = []
  makeFragment : Text → Text
  makeFragment_nil : makeFragment [] = []

/-- An IP literal of a version after 6. -/
def isFuture (raw : Text) : Bool := raw.head? = some 'v' || raw.head? = some 'V'

section Parse

variable (parts : Components)

/-- `_makeHost` after the opening bracket, as `host` gives it. -/
def makeLiteral (text : Text) : Option Text :=
  if text.getLast? = some ']' then
    let raw := text.dropLast
    if isFuture raw then (parts.ipvFuture raw).map fun host => '[' :: host ++ [']']
    else parts.ipv6 raw
  else none

def makeHost : Text → Option Text
  | '[' :: text => makeLiteral parts text
  | host => normalizeRegName host

def isSlash (c : Char) : Bool := c = '/' || c = '\\'

def endsAuthority (c : Char) : Bool := isSlash c || c = '?' || c = '#'

/-- The text of an authority, and what comes after it. -/
structure Authority where
  userInfo : Text
  host : Text
  port : Option Text
  rest : Text
deriving DecidableEq

inductive State where
  | userInfoOrHost0
  | userInfoOrHost
  | userInfoOrPort
  | ipv6Host
deriving DecidableEq

/-- The scanner in an authority, of which `seen` has come so far: a port begins at the first
colon of a host, and what came before an `@` was the user info. -/
@[grind =]
def scan : State → Text → Authority → Text → Authority
  | _, _, a, [] => a
  | .ipv6Host, seen, a, c :: rest =>
    scan (if c = ']' then .userInfoOrHost else .ipv6Host) (seen ++ [c])
      { a with host := a.host ++ [c] } rest
  | state, seen, a, c :: rest =>
    if endsAuthority c then { a with rest := c :: rest }
    else if c = '@' then scan .userInfoOrHost0 (seen ++ [c]) ⟨seen, [], none, []⟩ rest
    else if state = .userInfoOrPort then
      scan .userInfoOrPort (seen ++ [c]) { a with port := a.port.map (· ++ [c]) } rest
    else if c = ':' then scan .userInfoOrPort (seen ++ [c]) { a with port := some [] } rest
    else
      scan (if c = '[' ∧ state = .userInfoOrHost0 then .ipv6Host else .userInfoOrHost)
        (seen ++ [c]) { a with host := a.host ++ [c] } rest

def authorityOf (text : Text) : Authority := scan .userInfoOrHost0 [] ⟨[], [], none, []⟩ text

/-- The scheme and what stands after the two slashes that follow it. -/
def splitScheme (text : Text) : Option (Text × Text) :=
  let name := text.takeWhile fun c => c ≠ ':' && !endsAuthority c
  match text.drop name.length with
  | ':' :: first :: second :: rest =>
    if isSlash first && isSlash second then some (name, rest) else none
  | _ => none

/-- `_makeScheme`. -/
def makeScheme (name : Text) : Option Text :=
  match name with
  | [] => none
  | first :: _ =>
    if first.isAlpha && name.all fun c => c.isAlphanum || c ∈ "+-.".toList then
      some (name.map Char.toLower)
    else none

def defaultPort (scheme : Text) : Int :=
  if scheme = "http".toList then 80 else if scheme = "https".toList then 443 else 0

/-- `_makePort`. A port that does not fit 64 bits cannot be made. -/
def makePort (scheme : Text) : Option Text → Option (Option Int)
  | none | some [] => some none
  | some digits => (intTryParse digits).map fun port =>
    if port = defaultPort scheme then none else some port

/-- A text with a port in which the scanner finds nothing to normalize: a `_SimpleUri`. -/
def isSimple (text name : Text) (authority : Authority) : Bool :=
  match authority.port with
  | some (first :: digits) =>
    text = name ++ "://".toList ++ authority.host ++ ':' :: first :: digits ++ authority.rest &&
      name.all (fun c => c.isLower || c.isDigit || c ∈ "+-.".toList) &&
      authority.host.all (fun c => isRegNameChar c && !c.isUpper) &&
      (first :: digits).all Char.isDigit && first ≠ '0' && parts.isSimpleRest authority.rest
  | _ => false

/-- A simple text is kept as it is, and its port is read each time it is asked for. -/
def portOf (text name scheme : Text) (authority : Authority) : Option (Option (Option Int)) :=
  match makePort scheme authority.port with
  | some port => some (some port)
  | none => if isSimple parts text name authority then some none else none

def pathText (rest : Text) : Text := rest.takeWhile fun c => c ≠ '?' && c ≠ '#'

def queryText (rest : Text) : Text :=
  ((rest.drop (pathText rest).length).takeWhile (· ≠ '#')).drop 1

def fragmentText (rest : Text) : Text := (rest.dropWhile (· ≠ '#')).drop 1

def uriParse (text : Text) : Option Uri := do
  let (name, afterSlashes) ← splitScheme text
  let scheme ← makeScheme name
  let authority := authorityOf afterSlashes
  let host ← makeHost parts authority.host
  let port ← portOf parts text name scheme authority
  return {
    scheme, host, port
    userInfo := parts.makeUserInfo authority.userInfo
    path := parts.makePath (pathText authority.rest)
    query := parts.makeQuery (queryText authority.rest)
    fragment := parts.makeFragment (fragmentText authority.rest) }

end Parse

theorem isDigit_range {c : Char} (h : c.isDigit = true) : 48 ≤ c.toNat ∧ c.toNat ≤ 57 := by
  simpa [Char.isDigit, Char.le_def, UInt32.le_iff_toNat_le] using h

theorem digit_of_isDigit {c : Char} (h : c.isDigit = true) :
    ((hexDigit c.toNat).filter (· < 10)) = some (c.toNat - 48) := by
  have hrange := isDigit_range h
  rw [hexDigit, if_pos hrange, Option.filter_some, if_pos]
  rw [decide_eq_true_eq]
  omega

theorem foldlM_digits {digits : Text} (h : ∀ c ∈ digits, c.isDigit = true) (n : Nat) :
    digits.foldlM (fun n c => ((hexDigit c.toNat).filter (· < 10)).map (10 * n + ·)) n =
      some (Nat.ofDigitChars 10 digits n) := by
  induction digits generalizing n with
  | nil => rfl
  | cons c rest ih =>
    rw [List.foldlM_cons, digit_of_isDigit (h c List.mem_cons_self), Nat.ofDigitChars_cons]
    exact ih (fun d hd => h d (List.mem_cons_of_mem c hd)) _

theorem digitsValue_toDigits (n : Nat) : digitsValue 10 (Nat.toDigits 10 n) = some n := by
  rw [digitsValue, if_neg Nat.toDigits_ne_nil, foldlM_digits, Nat.ofDigitChars_ten_toDigits]
  exact fun c hc => Nat.isDigit_of_mem_toDigits (by decide) (by decide) hc

/-- Digits are no sign, no white space and no prefix of a base. -/
theorem isDigit_ne {c d : Char} (h : c.isDigit = true) (hd : d.toNat < 48 ∨ 57 < d.toNat) :
    c ≠ d := by
  rintro rfl
  have hrange := isDigit_range h
  omega

theorem decimal_digits {digits : Text} (h : ∀ c ∈ digits, c.isDigit = true) :
    unsignedValue digits = (digitsValue 10 digits).bind (fun n => inInt64 n) ∧
      negatedValue digits = (digitsValue 10 digits).bind fun n => inInt64 (-n) := by
  have hplain : ∀ x rest, digits = '0' :: x :: rest → x ≠ 'x' ∧ x ≠ 'X' := by
    rintro x rest rfl
    have hx := h x (by simp)
    exact ⟨isDigit_ne hx (by decide), isDigit_ne hx (by decide)⟩
  constructor
  · unfold unsignedValue
    split
    · exact absurd rfl (hplain _ _ rfl).1
    · exact absurd rfl (hplain _ _ rfl).2
    · rfl
  · unfold negatedValue
    split
    · exact absurd rfl (hplain _ _ rfl).1
    · exact absurd rfl (hplain _ _ rfl).2
    · rfl

/-- A number as `toString` writes it. -/
def written (value : Int) : Text := (toString value).toList

theorem written_eq (value : Int) :
    written value =
      match value with
      | .ofNat n => Nat.toDigits 10 n
      | .negSucc n => '-' :: Nat.toDigits 10 (n + 1) := by
  cases value with
  | ofNat n => exact Nat.toList_repr
  | negSucc n =>
    show ("-" ++ Nat.repr (n + 1)).toList = _
    rw [String.toList_append, Nat.toList_repr]
    rfl

theorem written_chars {value : Int} {c : Char} (h : c ∈ written value) :
    c = '-' ∨ c.isDigit = true := by
  rw [written_eq] at h
  cases value with
  | ofNat n => exact .inr (Nat.isDigit_of_mem_toDigits (by decide) (by decide) h)
  | negSucc n =>
    obtain rfl | hdigit := List.mem_cons.mp h
    · exact .inl rfl
    · exact .inr (Nat.isDigit_of_mem_toDigits (by decide) (by decide) hdigit)

theorem trim_written (value : Int) : PairingText.trim (written value) = written value := by
  refine Collapse.trimBy_eq_self fun c hc => ?_
  have hrange : c.toNat = 45 ∨ 48 ≤ c.toNat ∧ c.toNat ≤ 57 := by
    obtain rfl | hdigit := written_chars hc
    · exact .inl rfl
    · exact .inr (isDigit_range hdigit)
  rw [isTrimmed, isWhitespace]
  simp only [Bool.or_eq_false_iff, Bool.and_eq_false_iff, decide_eq_false_iff_not]
  omega

theorem inInt64_of {value : Int} (h : -2 ^ 63 ≤ value ∧ value < 2 ^ 63) :
    inInt64 value = some value := if_pos h

theorem intTryParse_written {value : Int} (h : -2 ^ 63 ≤ value ∧ value < 2 ^ 63) :
    intTryParse (written value) = some value := by
  have hdigits : ∀ n, ∀ c ∈ Nat.toDigits 10 n, c.isDigit = true := fun n c hc =>
    Nat.isDigit_of_mem_toDigits (by decide) (by decide) hc
  rw [intTryParse, trim_written, written_eq]
  cases value with
  | ofNat n =>
    have hsign : ∀ rest, Nat.toDigits 10 n ≠ '-' :: rest ∧ Nat.toDigits 10 n ≠ '+' :: rest := by
      intro rest
      constructor
      · intro heq
        exact isDigit_ne (hdigits n '-' (by rw [heq]; exact List.mem_cons_self)) (by decide) rfl
      · intro heq
        exact isDigit_ne (hdigits n '+' (by rw [heq]; exact List.mem_cons_self)) (by decide) rfl
    have hunsigned : unsignedValue (Nat.toDigits 10 n) = some (Int.ofNat n) := by
      rw [(decimal_digits (hdigits n)).1, digitsValue_toDigits, Option.bind_some]
      exact inInt64_of h
    dsimp only
    split
    · exact absurd ‹_› (hsign _).1
    · exact absurd ‹_› (hsign _).2
    · exact hunsigned
  | negSucc n =>
    show negatedValue (Nat.toDigits 10 (n + 1)) = _
    rw [(decimal_digits (hdigits (n + 1))).2, digitsValue_toDigits, Option.bind_some]
    exact inInt64_of h

theorem inInt64_range {value port : Int} (h : inInt64 value = some port) :
    -2 ^ 63 ≤ port ∧ port < 2 ^ 63 := by
  obtain ⟨hrange, heq⟩ := Option.ite_none_right_eq_some.mp h
  cases heq
  exact hrange

theorem unsignedValue_range {digits : Text} {port : Int} (h : unsignedValue digits = some port) :
    -2 ^ 63 ≤ port ∧ port < 2 ^ 63 := by
  have hhex : ∀ n : Nat, (if n < 2 ^ 63 then some (n : Int)
      else if n < 2 ^ 64 then some ((n : Int) - 2 ^ 64) else none) = some port →
      -2 ^ 63 ≤ port ∧ port < 2 ^ 63 := by
    intro n hn
    split at hn
    · cases hn
      omega
    · split at hn
      · cases hn
        omega
      · cases hn
  unfold unsignedValue at h
  split at h
  · obtain ⟨n, -, hn⟩ := Option.bind_eq_some_iff.mp h
    exact hhex n hn
  · obtain ⟨n, -, hn⟩ := Option.bind_eq_some_iff.mp h
    exact hhex n hn
  · obtain ⟨n, -, hn⟩ := Option.bind_eq_some_iff.mp h
    exact inInt64_range hn

theorem negatedValue_range {digits : Text} {port : Int} (h : negatedValue digits = some port) :
    -2 ^ 63 ≤ port ∧ port < 2 ^ 63 := by
  unfold negatedValue at h
  split at h
  · obtain ⟨n, -, hn⟩ := Option.bind_eq_some_iff.mp h
    exact inInt64_range hn
  · obtain ⟨n, -, hn⟩ := Option.bind_eq_some_iff.mp h
    exact inInt64_range hn
  · obtain ⟨n, -, hn⟩ := Option.bind_eq_some_iff.mp h
    exact inInt64_range hn

theorem intTryParse_range {source : Text} {port : Int} (h : intTryParse source = some port) :
    -2 ^ 63 ≤ port ∧ port < 2 ^ 63 := by
  unfold intTryParse at h
  split at h
  · exact negatedValue_range h
  · exact unsignedValue_range h
  · exact unsignedValue_range h

/-- What `normalizeRegName` makes, and what it leaves as it is. -/
inductive Normal : Text → Prop
  | nil : Normal []
  | char {c : Char} {rest : Text} : isRegNameChar c = true → c.isUpper = false → Normal rest →
      Normal (c :: rest)
  | escape {high low : Nat} {rest : Text} : high < 16 → low < 16 →
      isUnreserved (UInt8.ofNat (high * 16 + low)) = false → Normal rest →
      Normal ('%' :: hexUpper high :: hexUpper low :: rest)

theorem hexDigit_lt {unit value : Nat} (h : hexDigit unit = some value) : value < 16 := by
  unfold hexDigit at h
  split at h
  · cases h
    omega
  · split at h
    · cases h
      omega
    · split at h
      · cases h
        omega
      · cases h

theorem hexDigit_hexUpper : ∀ value < 16, hexDigit (hexUpper value).toNat = some value := by
  decide

/-- An unreserved byte is a character of a name, and so is its lower case. -/
theorem unreserved_char : ∀ value < 256, isUnreserved (UInt8.ofNat value) = true →
    isRegNameChar (Char.ofNat value).toLower = true ∧
      (Char.ofNat value).toLower.isUpper = false := by
  decide +kernel

theorem Normal.normalizeEscape {high low : Nat} {rest : Text} (hhigh : high < 16) (hlow : low < 16)
    (h : Normal rest) : Normal (normalizeEscape high low ++ rest) := by
  rw [DartUri.normalizeEscape]
  split
  · rename_i hunreserved
    obtain ⟨hname, hlower⟩ := unreserved_char (high * 16 + low) (by omega) hunreserved
    exact .char hname hlower h
  · rename_i hreserved
    exact .escape hhigh hlow (by simpa using hreserved) h

/-- A byte that needs an escape. -/
theorem Normal.escapeByte {byte : UInt8} {rest : Text} (hreserved : isUnreserved byte = false)
    (h : Normal rest) : Normal (escapeByte byte ++ rest) := by
  have hlt := byte.toNat_lt
  refine .escape (by omega) (by omega) ?_ h
  rw [Nat.div_add_mod', UInt8.ofNat_toNat]
  exact hreserved

theorem toLower_char {c : Char} (h : isRegNameChar c = true) :
    isRegNameChar c.toLower = true ∧ c.toLower.isUpper = false := by
  by_cases hupper : c.isUpper = true
  · have hrange := (isUpper_iff).mp hupper
    have hall : ∀ n < 26, isRegNameChar (Char.ofNat (65 + n)).toLower = true ∧
        (Char.ofNat (65 + n)).toLower.isUpper = false := by
      decide
    have hc := hall (c.toNat - 65) (by omega)
    rw [Nat.add_sub_cancel' hrange.1, Char.ofNat_toNat] at hc
    exact hc
  · rw [toLower_of_not_isUpper hupper]
    exact ⟨h, Bool.not_eq_true _ ▸ hupper⟩

/-- The escapes of a character are of reserved bytes. -/
theorem utf8_reserved {c : Char} (hname : isRegNameChar c = false) :
    ∀ byte ∈ String.utf8EncodeChar c, isUnreserved byte = false := by
  intro byte hbyte
  by_contra hunreserved
  rw [Bool.not_eq_false] at hunreserved
  have hlt : byte.toNat < 128 := by
    simp only [isUnreserved, Bool.or_eq_true, Bool.and_eq_true, decide_eq_true_eq] at hunreserved
    omega
  obtain ⟨hc, rfl⟩ := ascii_of_mem hbyte hlt
  have hall : ∀ n < 128, isUnreserved (UInt8.ofNat n) = true →
      isRegNameChar (Char.ofNat n) = true := by
    decide
  have hchar := hall c.toNat hc hunreserved
  rw [Char.ofNat_toNat, hname] at hchar
  cases hchar

theorem Normal.escapeBytes {bytes : List UInt8} {rest : Text}
    (hreserved : ∀ byte ∈ bytes, isUnreserved byte = false) (h : Normal rest) :
    Normal (bytes.flatMap DartUri.escapeByte ++ rest) := by
  induction bytes with
  | nil => exact h
  | cons byte bytes ih =>
    rw [List.flatMap_cons, List.append_assoc]
    exact (ih fun b hb => hreserved b (List.mem_cons_of_mem byte hb)).escapeByte
      (hreserved byte List.mem_cons_self)

theorem normal_of_some {t name : Text} (h : normalizeRegName t = some name) : Normal name := by
  fun_induction normalizeRegName t generalizing name with
  | case1 =>
    cases h
    exact .nil
  | case2 first second rest high low hlow hhigh ih =>
    obtain ⟨name, hname, rfl⟩ := Option.map_eq_some_iff.mp h
    exact (ih hname).normalizeEscape (hexDigit_lt hhigh) (hexDigit_lt hlow)
  | case3 first second rest _ ih | case4 rest _ ih =>
    obtain ⟨name, hname, rfl⟩ := Option.map_eq_some_iff.mp h
    exact (ih hname).escapeByte (by decide)
  | case5 c rest _ _ hchar ih =>
    obtain ⟨name, hname, rfl⟩ := Option.map_eq_some_iff.mp h
    exact .char (toLower_char hchar).1 (toLower_char hchar).2 (ih hname)
  | case6 => cases h
  | case7 c rest _ _ hchar _ ih =>
    obtain ⟨name, hname, rfl⟩ := Option.map_eq_some_iff.mp h
    rw [escapeChar, utf8_cons, utf8_nil, List.append_nil]
    exact (ih hname).escapeBytes (utf8_reserved (by simpa using hchar))

theorem Normal.fixed {t : Text} (h : Normal t) : normalizeRegName t = some t := by
  induction h with
  | nil => rfl
  | @char c rest hchar hlower hrest ih =>
    have hne : c ≠ '%' := by
      rintro rfl
      revert hchar
      decide
    rw [normalizeRegName]
    · rw [if_neg hne, if_pos hchar, ih, Option.map_some, toLower_of_not_isUpper (Bool.not_eq_true _ ▸ hlower)]
    · exact fun _ _ _ heq => absurd heq hne
  | @escape high low rest hhigh hlow hreserved hrest ih =>
    rw [normalizeRegName, hexDigit_hexUpper high hhigh, hexDigit_hexUpper low hlow]
    simp only [ih, Option.map_some, DartUri.normalizeEscape, hreserved]
    rfl

/-- No character that the scanner stops at. -/
def isPlain (c : Char) : Bool := !isGeneralDelimiter c && c ≠ '\\'

theorem isPlain_of_name {c : Char} (h : isRegNameChar c = true) : isPlain c = true := by
  have hstops : (('\\' :: ":/?#[]@".toList).all fun d => !isRegNameChar d) = true := by decide
  have hnot : c ∉ '\\' :: ":/?#[]@".toList := by
    intro hmem
    have hname := List.all_eq_true.mp hstops c hmem
    rw [h] at hname
    cases hname
  rw [List.mem_cons, not_or] at hnot
  simp only [isPlain, isGeneralDelimiter, Bool.and_eq_true, Bool.not_eq_true', decide_eq_true_eq,
    decide_eq_false_iff_not]
  exact ⟨hnot.2, hnot.1⟩

theorem Normal.plain {t : Text} (h : Normal t) : ∀ c ∈ t, isPlain c = true := by
  have hhex : ∀ value < 16, isPlain (hexUpper value) = true := by decide
  induction h with
  | nil => exact List.forall_mem_nil _
  | char hchar _ _ ih => exact List.forall_mem_cons.mpr ⟨isPlain_of_name hchar, ih⟩
  | escape hhigh hlow _ _ ih =>
    refine List.forall_mem_cons.mpr ⟨by decide, ?_⟩
    exact List.forall_mem_cons.mpr ⟨hhex _ hhigh, List.forall_mem_cons.mpr ⟨hhex _ hlow, ih⟩⟩

theorem plain_ne {c d : Char} (h : isPlain c = true) (hd : isPlain d = false) : c ≠ d := by
  rintro rfl
  exact Bool.false_ne_true (hd.symm.trans h)

section Scan

variable {seen t tail : Text} {a : Authority} {c : Char}

theorem plain_goes_on (h : isPlain c = true) :
    endsAuthority c = false ∧ c ≠ '@' ∧ c ≠ ':' ∧ c ≠ '[' := by
  have hne := fun d hd => plain_ne (d := d) h hd
  refine ⟨?_, hne _ (by decide), hne _ (by decide), hne _ (by decide)⟩
  simp [endsAuthority, isSlash, hne '/' (by decide), hne '\\' (by decide), hne '?' (by decide),
    hne '#' (by decide)]

theorem scan_cons (h : isPlain c = true) {state : State}
    (hstate : state = .userInfoOrHost0 ∨ state = .userInfoOrHost) :
    scan state seen a (c :: t) =
      scan .userInfoOrHost (seen ++ [c]) { a with host := a.host ++ [c] } t := by
  obtain ⟨hends, huser, hport, hliteral⟩ := plain_goes_on h
  obtain rfl | rfl := hstate
  · rw [scan]
    · rw [hends, if_neg Bool.false_ne_true, if_neg huser, if_neg (by decide), if_neg hport,
        if_neg fun h => hliteral h.1]
    · nofun
  · rw [scan]
    · rw [hends, if_neg Bool.false_ne_true, if_neg huser, if_neg (by decide), if_neg hport,
        if_neg fun h => hliteral h.1]
    · nofun

theorem scan_plain (h : ∀ c ∈ t, isPlain c = true) :
    scan .userInfoOrHost seen a (t ++ tail) =
      scan .userInfoOrHost (seen ++ t) { a with host := a.host ++ t } tail := by
  induction t generalizing seen a with
  | nil => simp
  | cons c rest ih =>
    rw [List.cons_append, scan_cons (h c List.mem_cons_self) (.inr rfl),
      ih fun d hd => h d (List.mem_cons_of_mem c hd)]
    simp

/-- A literal is read to its bracket. -/
theorem scan_literal (h : ']' ∉ t) :
    scan .ipv6Host seen a (t ++ ']' :: tail) =
      scan .userInfoOrHost (seen ++ t ++ [']']) { a with host := a.host ++ t ++ [']'] } tail := by
  induction t generalizing seen a with
  | nil => simp [scan]
  | cons c rest ih =>
    rw [List.mem_cons, not_or] at h
    obtain ⟨hc, hrest⟩ := h
    rw [List.cons_append, scan, if_neg (Ne.symm hc), ih hrest]
    simp

theorem scan_port (h : ∀ c ∈ t, isPlain c = true) (port : Text) :
    scan .userInfoOrPort seen { a with port := some port } t =
      { a with port := some (port ++ t) } := by
  induction t generalizing seen port with
  | nil => simp [scan]
  | cons c rest ih =>
    obtain ⟨hends, huser, -, -⟩ := plain_goes_on (h c List.mem_cons_self)
    rw [scan]
    · rw [hends, if_neg Bool.false_ne_true, if_neg huser, if_pos rfl]
      have hnext := @ih (seen ++ [c]) (fun d hd => h d (List.mem_cons_of_mem c hd)) (port ++ [c])
      rw [List.append_assoc] at hnext
      exact hnext
    · nofun

/-- What an origin has behind its host. -/
def portText : Option Int → Text
  | none => []
  | some port => ':' :: written port

theorem isPlain_written {value : Int} {c : Char} (h : c ∈ written value) : isPlain c = true := by
  obtain rfl | hdigit := written_chars h
  · decide
  · refine isPlain_of_name ?_
    simp [isRegNameChar, Char.isAlphanum, hdigit]

theorem scan_portText (port : Option Int) (hport : a.port = none) :
    scan .userInfoOrHost seen a (portText port) = { a with port := port.map written } := by
  cases port with
  | none => simp [portText, scan, ← hport]
  | some port =>
    rw [portText, scan]
    · rw [if_neg (by decide), if_neg (by decide), if_neg (by decide), if_pos rfl,
        scan_port (fun c hc => isPlain_written hc)]
      rfl
    · nofun

/-- Without an opening bracket there is no literal, and a host has no colon. -/
theorem scan_colonless {state : State} (hstate : state ≠ .ipv6Host) (ht : '[' ∉ t)
    (hcolon : ':' ∉ a.host) (hbracket : '[' ∉ a.host) :
    ':' ∉ (scan state seen a t).host ∧ '[' ∉ (scan state seen a t).host := by
  induction t generalizing state seen a with
  | nil =>
    rw [scan]
    exact ⟨hcolon, hbracket⟩
  | cons c rest ih =>
    rw [List.mem_cons, not_or] at ht
    obtain ⟨hc, hrest⟩ := ht
    rw [scan]
    · split
      · exact ⟨hcolon, hbracket⟩
      · split
        · exact ih nofun hrest (List.not_mem_nil) (List.not_mem_nil)
        · split
          · exact ih nofun hrest hcolon hbracket
          · split
            · exact ih nofun hrest hcolon hbracket
            · rename_i hne
              rw [if_neg fun h => hc h.1.symm]
              refine ih nofun hrest ?_ ?_
              · simp [hcolon, Ne.symm hne]
              · simp [hbracket, hc]
    · exact hstate

end Scan

/-- The host as the text writes it. -/
def hostText (text : Text) : Option Text :=
  (splitScheme text).map fun split => (authorityOf split.2).host

section Parse

variable {parts : Components} {text scheme : Text} {uri : Uri}

theorem uriParse_some (h : uriParse parts text = some uri) :
    ∃ name rest, splitScheme text = some (name, rest) ∧
      makeHost parts (authorityOf rest).host = some uri.host ∧
      portOf parts text name uri.scheme (authorityOf rest) = some uri.port := by
  simp only [uriParse, Option.bind_eq_bind, Option.bind_eq_some_iff] at h
  obtain ⟨⟨name, rest⟩, hsplit, scheme, -, host, hhost, port, hport, heq⟩ := h
  cases heq
  exact ⟨name, rest, hsplit, hhost, hport⟩

theorem portOf_ok {name : Text} {authority : Authority} {port : Option Int} :
    portOf parts text name scheme authority = some (some port) ↔
      makePort scheme authority.port = some port := by
  rw [portOf]
  cases makePort scheme authority.port with
  | some made => simp
  | none => simp

theorem portOf_throws {name : Text} {authority : Authority} :
    portOf parts text name scheme authority = some none ↔
      makePort scheme authority.port = none ∧ isSimple parts text name authority = true := by
  rw [portOf]
  cases makePort scheme authority.port with
  | some made => simp
  | none => simp

theorem splitScheme_http (hscheme : scheme = "http".toList ∨ scheme = "https".toList)
    (rest : Text) : splitScheme (scheme ++ "://".toList ++ rest) = some (scheme, rest) := by
  obtain rfl | rfl := hscheme
  · rfl
  · rfl

/-- Nothing but a scheme, a host and a port. -/
theorem uriParse_origin (hscheme : scheme = "http".toList ∨ scheme = "https".toList)
    {rest host hostRead : Text} {port : Option Text} {portRead : Option Int}
    (hauthority : authorityOf rest = ⟨[], host, port, []⟩)
    (hhost : makeHost parts host = some hostRead) (hport : makePort scheme port = some portRead) :
    uriParse parts (scheme ++ "://".toList ++ rest) =
      some ⟨scheme, [], hostRead, some portRead, [], [], []⟩ := by
  have hread := fun text name => (@portOf_ok parts text scheme name
    ⟨[], host, port, []⟩ portRead).mpr hport
  have hmade : makeScheme scheme = some scheme := by
    obtain rfl | rfl := hscheme
    · decide
    · decide
  simp only [uriParse, splitScheme_http hscheme, Option.bind_eq_bind, Option.bind_some, hmade,
    hauthority, hhost, hread]
  simp [pathText, queryText, fragmentText, parts.makeUserInfo_nil, parts.makePath_nil, parts.makeQuery_nil, parts.makeFragment_nil]

theorem makePort_read {port : Option Text} {portRead : Option Int}
    (h : makePort scheme port = some portRead) :
    makePort scheme (portRead.map written) = some portRead := by
  cases portRead with
  | none => rfl
  | some value =>
    have hkept : (-2 ^ 63 ≤ value ∧ value < 2 ^ 63) ∧ value ≠ defaultPort scheme := by
      unfold makePort at h
      split at h
      · cases h
      · cases h
      · obtain ⟨n, hn, heq⟩ := Option.map_eq_some_iff.mp h
        obtain ⟨hne, heq⟩ := Option.ite_none_left_eq_some.mp heq
        cases heq
        exact ⟨intTryParse_range hn, hne⟩
    have hwritten : written value ≠ [] := by
      intro hnil
      have hread := intTryParse_written hkept.1
      rw [hnil] at hread
      cases hread
    obtain ⟨c, rest, hcons⟩ := List.exists_cons_of_ne_nil hwritten
    rw [Option.map_some, hcons, makePort]
    · rw [← hcons, intTryParse_written hkept.1, Option.map_some, if_neg hkept.2]
    · nofun

/-- A host that stands for itself, with any port behind it. -/
structure Itself (parts : Components) (host : Text) : Prop where
  authority : ∀ port, authorityOf (host ++ portText port) = ⟨[], host, port.map written, []⟩
  made : makeHost parts host = some host

theorem Normal.itself {host : Text} (h : Normal host) (hne : host ≠ []) : Itself parts host := by
  obtain ⟨c, rest, rfl⟩ := List.exists_cons_of_ne_nil hne
  have hplain := h.plain
  constructor
  · intro port
    rw [authorityOf, List.cons_append, scan_cons (hplain c List.mem_cons_self) (.inl rfl),
      scan_plain fun d hd => hplain d (List.mem_cons_of_mem c hd), scan_portText port rfl]
    rfl
  · rw [makeHost]
    · exact h.fixed
    · rintro text ⟨⟩
      exact plain_ne (hplain _ List.mem_cons_self) (by decide) rfl

theorem itself_future {raw host : Text} (h : parts.ipvFuture raw = some host) :
    Itself parts ('[' :: host ++ [']']) := by
  have hversion := parts.ipvFuture_version raw host h
  constructor
  · intro port
    have hopen : ∀ tail, authorityOf ('[' :: tail) =
        scan .ipv6Host ['['] ⟨[], ['['], none, []⟩ tail := fun _ => rfl
    have hassoc :
        '[' :: host ++ [']'] ++ portText port = '[' :: (host ++ ']' :: portText port) := by
      simp
    rw [hassoc, hopen, scan_literal (parts.ipvFuture_bracket raw host h), scan_portText port rfl]
    rfl
  · have hfuture : isFuture host = true := by simp [isFuture, hversion]
    show makeLiteral parts (host ++ [']']) = _
    rw [makeLiteral, if_pos (by simp), List.dropLast_concat, if_pos hfuture,
      parts.ipvFuture_self raw host h]
    rfl

/-- A host is a name or an IP literal, and the one of version 6 has a colon and no bracket. -/
theorem host_cases {raw host : Text} (h : makeHost parts raw = some host) (hne : host ≠ []) :
    (Itself parts host ∧ ∀ literal, raw = '[' :: literal → isFuture literal = true) ∨
      (∃ literal, raw = '[' :: literal ∧ isFuture literal = false) ∧ ':' ∈ host ∧ '[' ∉ host := by
  have hdrop : ∀ literal : Text, literal.getLast? = some ']' →
      isFuture literal.dropLast = isFuture literal := by
    rintro (_ | ⟨c, _ | ⟨d, rest⟩⟩) hlast
    · rfl
    · cases hlast
      rfl
    · rfl
  unfold makeHost at h
  split at h
  · rename_i literal
    obtain ⟨hlast, h⟩ := Option.ite_none_right_eq_some.mp h
    dsimp only at h
    rw [hdrop literal hlast] at h
    split at h
    · rename_i hfuture
      obtain ⟨read, hread, rfl⟩ := Option.map_eq_some_iff.mp h
      refine .inl ⟨itself_future hread, ?_⟩
      rintro _ ⟨⟩
      exact hfuture
    · rename_i hnow
      refine .inr ⟨⟨literal, rfl, by simpa using hnow⟩, ?_⟩
      exact ⟨parts.ipv6_colon _ _ h, parts.ipv6_bracket _ _ h⟩
  · rename_i hname
    exact .inl ⟨(normal_of_some h).itself hne, fun literal heq => absurd heq (hname literal)⟩

/-- A text without an opening bracket gives no host with a colon. -/
theorem colonless_of_parse {rest : Text}
    (hscheme : scheme = "http".toList ∨ scheme = "https".toList) (hrest : '[' ∉ rest)
    (h : uriParse parts (scheme ++ "://".toList ++ rest) = some uri) :
    ':' ∉ uri.host := by
  obtain ⟨name, after, hsplit, hhost, -⟩ := uriParse_some h
  rw [splitScheme_http hscheme] at hsplit
  cases hsplit
  have hbracket : '[' ∉ (authorityOf rest).host := by
    have hscan := @scan_colonless [] rest ⟨[], [], none, []⟩ .userInfoOrHost0 nofun hrest
    exact (hscan List.not_mem_nil List.not_mem_nil).2
  rw [makeHost] at hhost
  · intro hcolon
    exact plain_ne ((normal_of_some hhost).plain _ hcolon) (by decide) rfl
  · intro text heq
    rw [heq] at hbracket
    exact hbracket List.mem_cons_self

end Parse

end HerdrMobile.App.DartUri
