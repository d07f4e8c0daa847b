import HerdrMobile.App.PairingText

/-!
# Code units

A Dart string is a list of code units, and not each such list is a text: half of a surrogate
pair stands for no character.
-/
namespace HerdrMobile.App.CodeUnits

open HerdrMobile.Lib.Strings HerdrMobile.App.PairingText

set_option autoImplicit false

variable {t : Text} {c : Char} {unit : Nat} {u v : List Nat}

/-- The code units of a character, and what is behind them. -/
theorem codeUnits_cons (c : Char) (t : Text) : codeUnits (c :: t) =
    (if c.toNat < 0x10000 then [c.toNat]
      else [0xD800 + (c.toNat - 0x10000) / 0x400, 0xDC00 + (c.toNat - 0x10000) % 0x400]) ++
    codeUnits t := rfl

theorem char_lt (c : Char) : c.toNat < 0xD800 ∨ (0xDFFF < c.toNat ∧ c.toNat < 0x110000) := c.valid

@[simp] theorem codeUnits_append (t u : Text) : codeUnits (t ++ u) = codeUnits t ++ codeUnits u :=
  List.flatMap_append

/-- No text ends within the code units of another one's characters. -/
theorem append_of_codeUnits {head : Text} (h : codeUnits t = codeUnits head ++ u) :
    ∃ tail, t = head ++ tail ∧ codeUnits tail = u := by
  induction head generalizing t with
  | nil => exact ⟨t, rfl, h⟩
  | cons c head ih =>
    cases t with
    | nil =>
      rw [codeUnits_cons] at h
      split at h <;> cases h
    | cons d t =>
      have hc := char_lt c
      have hd := char_lt d
      rw [codeUnits_cons, codeUnits_cons, List.append_assoc] at h
      have hsame : d.toNat = c.toNat ∧ codeUnits t = codeUnits head ++ u := by
        split at h
        · split at h
          · exact ⟨(List.cons.inj h).1, (List.cons.inj h).2⟩
          · have hhead := (List.cons.inj h).1
            omega
        · split at h
          · have hhead := (List.cons.inj h).1
            omega
          · have hhead := (List.cons.inj h).1
            have hnext := (List.cons.inj (List.cons.inj h).2).1
            exact ⟨by omega, (List.cons.inj (List.cons.inj h).2).2⟩
      obtain ⟨tail, htail, hunits⟩ := ih hsame.2
      exact ⟨tail, by rw [Char.toNat_inj.mp hsame.1, htail, List.cons_append], hunits⟩

theorem eq_nil_of_codeUnits (h : codeUnits t = []) : t = [] := by
  cases t with
  | nil => rfl
  | cons c t =>
    rw [codeUnits_cons] at h
    split at h <;> cases h

theorem codeUnits_injective : Function.Injective codeUnits := by
  intro t u h
  obtain ⟨tail, rfl, htail⟩ := append_of_codeUnits (h.trans (List.append_nil _).symm)
  rw [eq_nil_of_codeUnits htail, List.append_nil]

theorem codeUnits_length (t : Text) : t.length ≤ (codeUnits t).length := by
  induction t with
  | nil => exact Nat.le_refl _
  | cons c rest ih =>
    rw [codeUnits, List.flatMap_cons, List.length_append, List.length_cons]
    change rest.length + 1 ≤ _ + (codeUnits rest).length
    split <;> simp only [List.length_cons, List.length_nil] <;> omega

theorem codeUnits_ascii (h : ∀ c ∈ t, c.toNat < 128) : codeUnits t = t.map Char.toNat := by
  induction t with
  | nil => rfl
  | cons c rest ih =>
    have hc := h c List.mem_cons_self
    rw [codeUnits, List.flatMap_cons, if_pos (by omega)]
    exact congrArg (c.toNat :: ·) (ih fun d hd => h d (List.mem_cons_of_mem c hd))

def IsSurrogate (unit : Nat) : Prop := 0xD800 ≤ unit ∧ unit ≤ 0xDFFF

instance : DecidablePred IsSurrogate := fun unit =>
  inferInstanceAs (Decidable (0xD800 ≤ unit ∧ unit ≤ 0xDFFF))

def WellFormed (u : List Nat) : Prop := ∃ t : Text, codeUnits t = u

theorem char_of_codeUnits (h : codeUnits t = [unit]) :
    ∃ c : Char, t = [c] ∧ c.toNat = unit ∧ c.toNat < 0x10000 := by
  cases t with
  | nil => cases h
  | cons c t =>
    rw [codeUnits_cons] at h
    split at h
    · next hlt =>
      obtain ⟨hc, ht⟩ := List.cons.inj h
      exact ⟨c, by rw [eq_nil_of_codeUnits ht], hc, hlt⟩
    · have hlen := congrArg List.length h
      simp at hlen

theorem codeUnits_single (h : c.toNat < 0x10000) : codeUnits [c] = [c.toNat] := by
  rw [codeUnits_cons, if_pos h]
  rfl

/-- A unit that is no surrogate is a character, and without it the rest is a text as before. -/
theorem WellFormed.erase (h : WellFormed (u ++ unit :: v)) (hunit : ¬IsSurrogate unit) :
    WellFormed (u ++ v) := by
  obtain ⟨t, ht⟩ := h
  induction t generalizing u with
  | nil =>
    have hlen := congrArg List.length ht
    simp [codeUnits] at hlen
  | cons c t ih =>
    have hc := char_lt c
    unfold IsSurrogate at hunit
    rw [codeUnits_cons] at ht
    split at ht
    · next hlt =>
      cases u with
      | nil => exact ⟨t, (List.cons.inj ht).2⟩
      | cons x u =>
        obtain ⟨hx, ht⟩ := List.cons.inj ht
        obtain ⟨t', ht'⟩ := ih ht
        refine ⟨c :: t', ?_⟩
        rw [codeUnits_cons, if_pos hlt, ht', hx]
        rfl
    · next hge =>
      cases u with
      | nil =>
        have hx := (List.cons.inj ht).1
        omega
      | cons x u =>
        obtain ⟨hx, ht⟩ := List.cons.inj ht
        cases u with
        | nil =>
          have hy := (List.cons.inj ht).1
          omega
        | cons y u =>
          obtain ⟨hy, ht⟩ := List.cons.inj ht
          obtain ⟨t', ht'⟩ := ih ht
          refine ⟨c :: t', ?_⟩
          rw [codeUnits_cons, if_neg hge, ht', hx, hy]
          rfl

end HerdrMobile.App.CodeUnits
