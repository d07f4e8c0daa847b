import HerdrMobile.Lib.Strings

/-!
# UTF-8

The bytes of a text, and the lossy reading of bytes as text: a character is read
where the bytes hold one, and every longest run of bytes that begins a character
but does not finish it becomes one replacement character. Reading the bytes of a
text gives the text back.
-/

namespace HerdrMobile.Lib.Utf8

open Strings (Text)

def utf8 (t : Text) : List UInt8 := t.flatMap String.utf8EncodeChar

def isContinuation (b : UInt8) : Bool := 0x80 ≤ b.toNat && b.toNat < 0xC0

/-- The index of the next byte is a character boundary. -/
def isBoundary : List UInt8 → Bool
  | [] => true
  | b :: _ => !isContinuation b

/-- The second bytes that may follow the first byte of a sequence of three or four. -/
def secondOk (b c : Nat) : Bool :=
  if b = 0xE0 then 0xA0 ≤ c && c ≤ 0xBF
  else if b = 0xED then 0x80 ≤ c && c ≤ 0x9F
  else if b = 0xF0 then 0x90 ≤ c && c ≤ 0xBF
  else if b = 0xF4 then 0x80 ≤ c && c ≤ 0x8F
  else 0xE1 ≤ b && b ≤ 0xF3 && 0x80 ≤ c && c ≤ 0xBF

/-- How many bytes one replacement character stands for. -/
def brokenLength (bytes : List UInt8) : Nat :=
  let first := (bytes.getD 0 0).toNat
  if secondOk first (bytes.getD 1 0).toNat then
    if 0xF0 ≤ first && isContinuation (bytes.getD 2 0) then 3 else 2
  else 1

def decodeChar (bytes : List UInt8) : Option Char := bytes.toByteArray.utf8DecodeChar? 0

/-- The reading of the bytes after the next `skip` ones. -/
def lossyFrom : Nat → List UInt8 → Text
  | _, [] => []
  | skip + 1, _ :: rest => lossyFrom skip rest
  | 0, b :: rest =>
    match decodeChar (b :: rest) with
    | some c => c :: lossyFrom (c.utf8Size - 1) rest
    | none => Char.ofNat 0xFFFD :: lossyFrom (brokenLength (b :: rest) - 1) rest

def fromUtf8Lossy (bytes : List UInt8) : Text := lossyFrom 0 bytes

@[simp] theorem utf8_nil : utf8 [] = [] := rfl

@[simp] theorem utf8_cons (c : Char) (t : Text) :
    utf8 (c :: t) = String.utf8EncodeChar c ++ utf8 t := rfl

@[simp] theorem utf8_append (s t : Text) : utf8 (s ++ t) = utf8 s ++ utf8 t :=
  List.flatMap_append

theorem lossyFrom_drop (more rest : List UInt8) :
    lossyFrom more.length (more ++ rest) = lossyFrom 0 rest := by
  induction more with
  | nil => rfl
  | cons b more ih => exact ih

theorem lossyFrom_char (c : Char) (rest : List UInt8) :
    lossyFrom 0 (String.utf8EncodeChar c ++ rest) = c :: lossyFrom 0 rest := by
  have hdecode : decodeChar (String.utf8EncodeChar c ++ rest) = some c := by
    rw [decodeChar, List.toByteArray_append]
    exact ByteArray.utf8DecodeChar?_utf8EncodeChar_append
  have hlen := String.length_utf8EncodeChar c
  obtain ⟨b, more, hb⟩ := List.exists_cons_of_ne_nil (String.utf8EncodeChar_ne_nil (c := c))
  rw [hb] at hdecode hlen ⊢
  have hmore : c.utf8Size - 1 = more.length := by
    rw [← hlen, List.length_cons, Nat.add_sub_cancel]
  simp only [List.cons_append] at hdecode ⊢
  rw [lossyFrom, hdecode]
  simp only [hmore, lossyFrom_drop]

theorem fromUtf8Lossy_utf8 (t : Text) : fromUtf8Lossy (utf8 t) = t := by
  rw [fromUtf8Lossy]
  induction t with
  | nil => rfl
  | cons c rest ih => rw [utf8_cons, lossyFrom_char, ih]

/-- The text that has the bytes, if they are those of a text. -/
def fromUtf8 (bytes : List UInt8) : Option Text :=
  if utf8 (fromUtf8Lossy bytes) = bytes then some (fromUtf8Lossy bytes) else none

theorem fromUtf8_eq_some {bytes : List UInt8} {t : Text} :
    fromUtf8 bytes = some t ↔ utf8 t = bytes := by
  rw [fromUtf8, Option.ite_none_right_eq_some, Option.some.injEq]
  constructor
  · rintro ⟨h, rfl⟩
    exact h
  · rintro rfl
    rw [fromUtf8Lossy_utf8]
    exact ⟨rfl, rfl⟩

/-- The byte of an ASCII character. -/
def asciiByte (c : Char) : UInt8 := UInt8.ofNat c.toNat

theorem utf8EncodeChar_ascii {c : Char} (h : c.toNat < 128) :
    String.utf8EncodeChar c = [asciiByte c] := by
  have hle : c.toNat ≤ 127 := by omega
  simp [String.utf8EncodeChar, asciiByte, hle]

theorem utf8_ascii {t : Text} (h : ∀ c ∈ t, c.toNat < 128) : utf8 t = t.map asciiByte := by
  induction t with
  | nil => rfl
  | cons c rest ih =>
    rw [utf8_cons, utf8EncodeChar_ascii (h c List.mem_cons_self),
      ih fun d hd => h d (List.mem_cons_of_mem c hd)]
    rfl

theorem length_utf8_ascii {t : Text} (h : ∀ c ∈ t, c.toNat < 128) :
    (utf8 t).length = t.length := by
  rw [utf8_ascii h, List.length_map]

theorem toNat_asciiByte {c : Char} (h : c.toNat < 128) : (asciiByte c).toNat = c.toNat := by
  rw [asciiByte, UInt8.toNat_ofNat', Nat.mod_eq_of_lt (by omega)]

theorem asciiByte_inj {c d : Char} (hc : c.toNat < 128) (hd : d.toNat < 128)
    (h : asciiByte c = asciiByte d) : c = d := by
  rw [← Char.toNat_inj, ← toNat_asciiByte hc, ← toNat_asciiByte hd, h]

theorem utf8_ascii_cons {c : Char} (h : c.toNat < 128) (t : Text) :
    utf8 (c :: t) = asciiByte c :: utf8 t := by
  rw [utf8_cons, utf8EncodeChar_ascii h, List.singleton_append]

theorem utf8Size_ascii {c : Char} (h : c.toNat < 128) : c.utf8Size = 1 := by
  rw [← String.length_utf8EncodeChar, utf8EncodeChar_ascii h, List.length_singleton]

theorem isContinuation_ofNat (n : Nat) : isContinuation (UInt8.ofNat (n % 0x40 + 0x80)) := by
  simp only [isContinuation, UInt8.toNat_ofNat']
  simp
  omega

/-- The first byte of a longer character does not continue one, and the others do. -/
theorem utf8EncodeChar_long {c : Char} (h : ¬c.toNat < 128) :
    ∃ lead next more, String.utf8EncodeChar c = lead :: next :: more ∧ 0xC0 ≤ lead.toNat ∧
      ∀ b ∈ next :: more, isContinuation b := by
  have hc : ¬c.val.toNat ≤ 127 := by
    have hval : c.toNat = c.val.toNat := rfl
    omega
  have hlead : ∀ n k m : Nat, n < m → m + k ≤ 256 → 0xC0 ≤ k →
      0xC0 ≤ (UInt8.ofNat (n + k)).toNat := by
    intro n k m hn hm hk
    rw [UInt8.toNat_ofNat', Nat.mod_eq_of_lt] <;> omega
  simp only [String.utf8EncodeChar, if_neg hc]
  split
  · refine ⟨_, _, _, rfl, hlead _ _ 32 (Nat.mod_lt _ (by decide)) (by decide) (by decide), ?_⟩
    exact List.forall_mem_singleton.mpr (isContinuation_ofNat _)
  · split
    · refine ⟨_, _, _, rfl, hlead _ _ 16 (Nat.mod_lt _ (by decide)) (by decide) (by decide), ?_⟩
      exact List.forall_mem_cons.mpr ⟨isContinuation_ofNat _,
        List.forall_mem_singleton.mpr (isContinuation_ofNat _)⟩
    · refine ⟨_, _, _, rfl, hlead _ _ 8 (Nat.mod_lt _ (by decide)) (by decide) (by decide), ?_⟩
      exact List.forall_mem_cons.mpr ⟨isContinuation_ofNat _,
        List.forall_mem_cons.mpr ⟨isContinuation_ofNat _,
          List.forall_mem_singleton.mpr (isContinuation_ofNat _)⟩⟩

theorem isContinuation_range {b : UInt8} : isContinuation b ↔ 0x80 ≤ b.toNat ∧ b.toNat < 0xC0 := by
  simp [isContinuation]

/-- A text begins at a boundary. -/
theorem isBoundary_utf8 (t : Text) : isBoundary (utf8 t) := by
  cases t with
  | nil => rfl
  | cons c rest =>
    rw [utf8_cons]
    by_cases h : c.toNat < 128
    · have hb : ¬isContinuation (asciiByte c) := by
        rw [isContinuation_range, toNat_asciiByte h]
        omega
      rw [utf8EncodeChar_ascii h]
      simpa [isBoundary] using hb
    · obtain ⟨lead, next, more, hbytes, hlead, -⟩ := utf8EncodeChar_long h
      have hb : ¬isContinuation lead := by
        rw [isContinuation_range]
        omega
      rw [hbytes]
      simpa [isBoundary] using hb

/-- A byte of ASCII in the bytes of a character is the character. -/
theorem ascii_of_mem {c : Char} {b : UInt8} (hb : b ∈ String.utf8EncodeChar c)
    (h : b.toNat < 128) : c.toNat < 128 ∧ b = asciiByte c := by
  by_cases hc : c.toNat < 128
  · rw [utf8EncodeChar_ascii hc] at hb
    exact ⟨hc, List.mem_singleton.mp hb⟩
  · obtain ⟨lead, next, more, hbytes, hlead, hmore⟩ := utf8EncodeChar_long hc
    rw [hbytes] at hb
    rcases List.mem_cons.mp hb with rfl | hb
    · omega
    · have hcont := (isContinuation_range).mp (hmore b hb)
      omega

theorem cons_of_utf8 {t : Text} {b : UInt8} {rest : List UInt8} (h : utf8 t = b :: rest)
    (hb : b.toNat < 128) : ∃ c more, t = c :: more ∧ c.toNat < 128 ∧ b = asciiByte c ∧
      rest = utf8 more := by
  rcases t with _ | ⟨c, more⟩
  · cases h
  · have hmem : b ∈ String.utf8EncodeChar c := by
      obtain ⟨first, others, hbytes⟩ :=
        List.exists_cons_of_ne_nil (String.utf8EncodeChar_ne_nil (c := c))
      rw [utf8_cons, hbytes, List.cons_append, List.cons.injEq] at h
      rw [hbytes, h.1]
      exact List.mem_cons_self
    obtain ⟨hc, rfl⟩ := ascii_of_mem hmem hb
    rw [utf8_ascii_cons hc, List.cons.injEq] at h
    exact ⟨c, more, rfl, hc, rfl, h.2.symm⟩

end HerdrMobile.Lib.Utf8
