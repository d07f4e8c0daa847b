import Mathlib.Data.List.Basic
import Mathlib.Data.List.Nodup

/-!
# Base64

Octets as sextets, three for four, over any alphabet of 64 symbols. The last group
may be short; the bits it has left over are zero, and a text in which they are not
is refused, as is one whose last group has a single symbol. With that the encoding
and the decoding are inverse to each other. A padded text has a further symbol in
place of those that its last group lacks.
-/

namespace HerdrMobile.Lib.Base64

abbrev Sextet := Fin 64

def sextet₁ (a : UInt8) : Sextet := .ofNat 64 (a.toNat / 4)
def sextet₂ (a b : UInt8) : Sextet := .ofNat 64 (a.toNat % 4 * 16 + b.toNat / 16)
def sextet₃ (b c : UInt8) : Sextet := .ofNat 64 (b.toNat % 16 * 4 + c.toNat / 64)
def sextet₄ (c : UInt8) : Sextet := .ofNat 64 c.toNat

def octet₁ (p q : Sextet) : UInt8 := .ofNat (p.val * 4 + q.val / 16)
def octet₂ (q r : Sextet) : UInt8 := .ofNat (q.val * 16 + r.val / 4)
def octet₃ (r s : Sextet) : UInt8 := .ofNat (r.val * 64 + s.val)

theorem octet₁_sextets (a b : UInt8) : octet₁ (sextet₁ a) (sextet₂ a b) = a := by
  have ha := a.toNat_lt
  have hb := b.toNat_lt
  rw [← UInt8.toNat_inj, octet₁, UInt8.toNat_ofNat', sextet₁, sextet₂, Fin.val_ofNat,
    Fin.val_ofNat]
  omega

theorem octet₂_sextets (a b c : UInt8) : octet₂ (sextet₂ a b) (sextet₃ b c) = b := by
  have hb := b.toNat_lt
  have hc := c.toNat_lt
  rw [← UInt8.toNat_inj, octet₂, UInt8.toNat_ofNat', sextet₂, sextet₃, Fin.val_ofNat,
    Fin.val_ofNat]
  omega

theorem octet₃_sextets (b c : UInt8) : octet₃ (sextet₃ b c) (sextet₄ c) = c := by
  have hc := c.toNat_lt
  rw [← UInt8.toNat_inj, octet₃, UInt8.toNat_ofNat', sextet₃, sextet₄, Fin.val_ofNat,
    Fin.val_ofNat]
  omega

theorem sextet₁_octets (p q : Sextet) : sextet₁ (octet₁ p q) = p := by
  apply Fin.ext
  rw [sextet₁, octet₁, Fin.val_ofNat, UInt8.toNat_ofNat']
  omega

theorem sextet₂_octets (p q r : Sextet) : sextet₂ (octet₁ p q) (octet₂ q r) = q := by
  apply Fin.ext
  rw [sextet₂, octet₁, octet₂, Fin.val_ofNat, UInt8.toNat_ofNat', UInt8.toNat_ofNat']
  omega

theorem sextet₃_octets (q r s : Sextet) : sextet₃ (octet₂ q r) (octet₃ r s) = r := by
  apply Fin.ext
  rw [sextet₃, octet₂, octet₃, Fin.val_ofNat, UInt8.toNat_ofNat', UInt8.toNat_ofNat']
  omega

theorem sextet₄_octets (r s : Sextet) : sextet₄ (octet₃ r s) = s := by
  apply Fin.ext
  rw [sextet₄, octet₃, Fin.val_ofNat, UInt8.toNat_ofNat']
  omega

/-! The short groups end as if zero octets followed. -/

theorem sextet₂_rest (a : UInt8) : (sextet₂ a 0).val % 16 = 0 := by
  simp only [sextet₂, Fin.val_ofNat, UInt8.toNat_zero]
  omega

theorem sextet₃_rest (b : UInt8) : (sextet₃ b 0).val % 4 = 0 := by
  simp only [sextet₃, Fin.val_ofNat, UInt8.toNat_zero]
  omega

theorem sextet₂_of_rest {p q : Sextet} (h : q.val % 16 = 0) : sextet₂ (octet₁ p q) 0 = q := by
  apply Fin.ext
  rw [sextet₂, octet₁, Fin.val_ofNat, UInt8.toNat_ofNat', UInt8.toNat_zero]
  omega

theorem sextet₃_of_rest {q r : Sextet} (h : r.val % 4 = 0) : sextet₃ (octet₂ q r) 0 = r := by
  apply Fin.ext
  rw [sextet₃, octet₂, Fin.val_ofNat, UInt8.toNat_ofNat', UInt8.toNat_zero]
  omega

@[grind =]
def sextets : List UInt8 → List Sextet
  | [] => []
  | [a] => [sextet₁ a, sextet₂ a 0]
  | [a, b] => [sextet₁ a, sextet₂ a b, sextet₃ b 0]
  | a :: b :: c :: rest => sextet₁ a :: sextet₂ a b :: sextet₃ b c :: sextet₄ c :: sextets rest

@[grind =]
def octets : List Sextet → Option (List UInt8)
  | [] => some []
  | [_] => none
  | [p, q] => if q.val % 16 = 0 then some [octet₁ p q] else none
  | [p, q, r] => if r.val % 4 = 0 then some [octet₁ p q, octet₂ q r] else none
  | p :: q :: r :: s :: rest =>
    (octets rest).map fun tail => octet₁ p q :: octet₂ q r :: octet₃ r s :: tail

theorem octets_sextets (bytes : List UInt8) : octets (sextets bytes) = some bytes := by
  induction bytes using sextets.induct with
  | case1 => rfl
  | case2 a => rw [sextets, octets, if_pos (sextet₂_rest a), octet₁_sextets]
  | case3 a b => rw [sextets, octets, if_pos (sextet₃_rest b), octet₁_sextets, octet₂_sextets]
  | case4 a b c rest ih =>
    rw [sextets, octets, ih, Option.map_some, octet₁_sextets, octet₂_sextets, octet₃_sextets]

theorem sextets_octets {vs : List Sextet} {bytes : List UInt8} (h : octets vs = some bytes) :
    sextets bytes = vs := by
  induction vs using octets.induct generalizing bytes with
  | case1 =>
    cases h
    rfl
  | case2 => cases h
  | case3 p q hq =>
    rw [octets, if_pos hq] at h
    cases h
    rw [sextets, sextet₁_octets, sextet₂_of_rest hq]
  | case4 p q hq =>
    rw [octets, if_neg hq] at h
    cases h
  | case5 p q r hr =>
    rw [octets, if_pos hr] at h
    cases h
    rw [sextets, sextet₁_octets, sextet₂_octets, sextet₃_of_rest hr]
  | case6 p q r hr =>
    rw [octets, if_neg hr] at h
    cases h
  | case7 p q r s rest ih =>
    rw [octets, Option.map_eq_some_iff] at h
    obtain ⟨tail, htail, rfl⟩ := h
    rw [sextets, sextet₁_octets, sextet₂_octets, sextet₃_octets, sextet₄_octets, ih htail]

theorem length_sextets (bytes : List UInt8) :
    (sextets bytes).length = (4 * bytes.length + 2) / 3 := by
  induction bytes using sextets.induct with
  | case1 => rfl
  | case2 | case3 => simp [sextets]
  | case4 a b c rest ih =>
    simp only [sextets, List.length_cons, ih]
    omega

structure Alphabet (α : Type*) where
  symbols : List α
  size : symbols.length = 64
  distinct : symbols.Nodup

namespace Alphabet

variable {α : Type*} (A : Alphabet α)

def symbol (v : Sextet) : α := A.symbols.get (v.cast A.size.symm)

theorem symbol_mem (v : Sextet) : A.symbol v ∈ A.symbols := List.get_mem _ _

def encode (bytes : List UInt8) : List α := (sextets bytes).map A.symbol

theorem mem_encode {bytes : List UInt8} {s : α} (h : s ∈ A.encode bytes) : s ∈ A.symbols := by
  obtain ⟨v, -, rfl⟩ := List.mem_map.mp h
  exact A.symbol_mem v

theorem length_encode (bytes : List UInt8) :
    (A.encode bytes).length = (4 * bytes.length + 2) / 3 := by
  rw [encode, List.length_map, length_sextets]

variable [DecidableEq α]

def value (s : α) : Option Sextet := (A.symbols.finIdxOf? s).map (Fin.cast A.size)

theorem value_eq_some_iff {s : α} {v : Sextet} : A.value s = some v ↔ A.symbol v = s := by
  rw [value, Option.map_eq_some_iff]
  constructor
  · rintro ⟨i, hi, rfl⟩
    exact (List.finIdxOf?_eq_some_iff.mp hi).1
  · intro h
    refine ⟨v.cast A.size.symm, List.finIdxOf?_eq_some_iff.mpr ⟨h, ?_⟩, rfl⟩
    intro j hj hs
    exact absurd (A.distinct.get_inj_iff.mp (hs.trans h.symm)) (Fin.ne_of_lt hj)

def decode (text : List α) : Option (List UInt8) := (text.mapM A.value).bind octets

theorem mapM_value_iff {text : List α} {vs : List Sextet} :
    text.mapM A.value = some vs ↔ vs.map A.symbol = text := by
  induction text generalizing vs with
  | nil => cases vs <;> simp
  | cons s rest ih =>
    simp only [List.mapM_cons, Option.bind_eq_bind, Option.bind_eq_some_iff, Option.pure_def]
    constructor
    · rintro ⟨v, hv, ws, hws, h⟩
      cases h
      rw [List.map_cons, A.value_eq_some_iff.mp hv, ih.mp hws]
    · intro h
      obtain ⟨v, ws, rfl, hv, hws⟩ := List.map_eq_cons_iff.mp h
      exact ⟨v, A.value_eq_some_iff.mpr hv, ws, ih.mpr hws, rfl⟩

theorem decode_encode (bytes : List UInt8) : A.decode (A.encode bytes) = some bytes := by
  rw [decode, encode, A.mapM_value_iff.mpr rfl, Option.bind_some, octets_sextets]

theorem encode_of_decode {text : List α} {bytes : List UInt8} (h : A.decode text = some bytes) :
    A.encode bytes = text := by
  obtain ⟨vs, hvs, hb⟩ := Option.bind_eq_some_iff.mp h
  rw [encode, sextets_octets hb, A.mapM_value_iff.mp hvs]

theorem length_of_decode {text : List α} {bytes : List UInt8} (h : A.decode text = some bytes) :
    text.length = (4 * bytes.length + 2) / 3 := by
  rw [← A.encode_of_decode h, length_encode]

theorem mem_of_decode {text : List α} {s : α} (h : (A.decode text).isSome) (hs : s ∈ text) :
    s ∈ A.symbols := by
  obtain ⟨bytes, hbytes⟩ := Option.isSome_iff_exists.mp h
  exact A.mem_encode (A.encode_of_decode hbytes ▸ hs)

variable (pad : α)

/-- The padding of a text with so many symbols. -/
def padding (length : Nat) : List α := List.replicate ((4 - length % 4) % 4) pad

omit [DecidableEq α] in
def encodePadded (bytes : List UInt8) : List α :=
  A.encode bytes ++ padding pad (A.encode bytes).length

def decodePadded (text : List α) : Option (List UInt8) :=
  let body := text.takeWhile (· ≠ pad)
  if text = body ++ padding pad body.length then A.decode body else none

theorem decodePadded_encodePadded (hpad : pad ∉ A.symbols) (bytes : List UInt8) :
    A.decodePadded pad (A.encodePadded pad bytes) = some bytes := by
  have hne : ∀ s ∈ A.encode bytes, decide (s ≠ pad) = true := fun s hs =>
    decide_eq_true fun h => hpad (h ▸ A.mem_encode hs)
  have hbody : (A.encodePadded pad bytes).takeWhile (· ≠ pad) = A.encode bytes := by
    rw [encodePadded, List.takeWhile_append_of_pos hne, padding, List.takeWhile_replicate]
    simp
  rw [decodePadded, hbody, ← encodePadded, if_pos rfl, A.decode_encode]

theorem length_of_decodePadded {text : List α} {bytes : List UInt8}
    (h : A.decodePadded pad text = some bytes) : text.length = 4 * ((bytes.length + 2) / 3) := by
  simp only [decodePadded] at h
  split at h
  · next htext =>
    have hbody := A.length_of_decode h
    rw [htext, List.length_append, padding, List.length_replicate, hbody]
    omega
  · cases h

end Alphabet

end HerdrMobile.Lib.Base64
