import Mathlib.Data.List.Sublists
import HerdrMobile.Host.Keys

/-!
# The language of keys

The names that Herdr takes, as its table has them, against the names that `validateKey` lets
through. Both are languages of lower-case text. What is printable is a parameter.
-/
namespace HerdrMobile.Host.KeyGrammar

open HerdrMobile.Lib.Strings (not_mem_of_mem_splitOn)
open HerdrMobile.Proto.Messages HerdrMobile.Host.Keys

set_option autoImplicit false

variable {printable : Char → Prop} {key base base' digits raw : Text}
  {modifiers modifiers' : List Text}

/-- The names of the accepted table. -/
def acceptedNames : List Text :=
  ["Up".toList, "Down".toList, "Left".toList, "Right".toList, "Enter".toList, "Return".toList,
    "Tab".toList, "Esc".toList, "escape".toList, "Escape".toList, "Backspace".toList,
    "Space".toList]

/-- A key without modifiers. -/
inductive Base (printable : Char → Prop) : Text → Prop
  | named {name : Text} : name ∈ acceptedNames → Base printable (toAsciiLowercase name)
  | function {n : Nat} : n ≤ 99 → Base printable ('f' :: Nat.toDigits 10 n)
  | character {c : Char} : printable c → Base printable [c]

/-- `ctrl`, `alt` and `shift` in that order, each at most once. -/
structure Chorded (modifiers : List Text) : Prop where
  some : modifiers ≠ []
  ordered : modifiers.Sublist ["ctrl".toList, "alt".toList, "shift".toList]

def joined (modifiers : List Text) (base : Text) : Text :=
  ['+'].intercalate (modifiers ++ [base])

inductive Grammar (printable : Char → Prop) : Text → Prop
  | base {key : Text} : Base printable key → Grammar printable key
  | chord {modifiers : List Text} {base : Text} : Chorded modifiers →
      Base printable base → Grammar printable (joined modifiers base)

/-- Where `validateKey` and the table part. -/
inductive Astray (printable : Char → Prop) : Text → Prop
  | bare {c : Char} : printable c → Astray printable [c]
  | zeros {digits : Text} : digits ≠ [] → (∀ c ∈ digits, c.isDigit = true) →
      decimal digits ≤ 99 → Astray printable ('f' :: '0' :: digits)
  | chordFunction {modifiers : List Text} {n : Nat} : Chorded modifiers → n ≤ 99 →
      Astray printable (joined modifiers ('f' :: Nat.toDigits 10 n))
  | chordPlus {modifiers : List Text} : Chorded modifiers → printable '+' →
      Astray printable (joined modifiers ['+'])
  | chordHidden {modifiers : List Text} {c : Char} : Chorded modifiers →
      ¬printable c → c ≠ '+' → Astray printable (joined modifiers [c])

theorem Chorded.plain (h : Chorded modifiers) : ∀ m ∈ modifiers, '+' ∉ m ∧ m ≠ [] := by
  intro m hm
  have hplain : ∀ m ∈ ["ctrl".toList, "alt".toList, "shift".toList], '+' ∉ m ∧ m ≠ [] := by
    decide
  exact hplain m (h.ordered.subset hm)

theorem plus_mem_joined (h : modifiers ≠ []) : '+' ∈ joined modifiers base := by
  obtain ⟨m, ms, rfl⟩ := List.exists_cons_of_ne_nil h
  unfold joined
  rw [List.cons_append, List.intercalate_cons_of_ne_nil (by simp)]
  simp

theorem splitChord_joined (h : modifiers ≠ []) (hm : ∀ m ∈ modifiers, '+' ∉ m)
    (hb : '+' ∉ base) : splitChord (joined modifiers base) = some (modifiers, base) := by
  have hparts : (joined modifiers base).splitOn '+' = modifiers ++ [base] := by
    refine List.splitOn_intercalate '+' ?_ (by simp)
    intro part hpart
    cases List.mem_append.mp hpart with
    | inl hpart => exact hm part hpart
    | inr hpart => exact List.mem_singleton.mp hpart ▸ hb
  rw [splitChord, if_pos (plus_mem_joined h), hparts]
  simp

theorem splitChord_plain (h : '+' ∉ key) : splitChord key = none := if_neg h

theorem eq_joined_of_splitChord (h : splitChord key = some (modifiers, base)) :
    key = joined modifiers base ∧ modifiers ≠ [] ∧ '+' ∉ base := by
  unfold splitChord at h
  split at h
  · rename_i hplus
    obtain ⟨last, hlast, heq⟩ := Option.map_eq_some_iff.mp h
    obtain ⟨rfl, rfl⟩ := Prod.mk.inj heq
    have hparts : (key.splitOn '+').dropLast ++ [last] = key.splitOn '+' :=
      List.dropLast_append_getLast? last hlast
    have hkey : key = joined (key.splitOn '+').dropLast last := by
      unfold joined
      rw [hparts, List.intercalate_splitOn]
    have hbase : '+' ∉ last := not_mem_of_mem_splitOn (List.mem_of_getLast? hlast)
    refine ⟨hkey, ?_, hbase⟩
    intro hnone
    have hlast : key = last := by
      rw [hkey, hnone]
      simp [joined]
    exact hbase (hlast ▸ hplus)
  · cases h

theorem joined_plus : joined modifiers ['+'] = joined (modifiers ++ [[]]) [] := by
  unfold joined
  induction modifiers with
  | nil => rfl
  | cons m ms ih =>
    rw [List.cons_append, List.intercalate_cons_of_ne_nil (by simp), List.cons_append,
      List.cons_append, List.intercalate_cons_of_ne_nil (by simp), ih]

theorem ordered_iff : modifiers = permittedModifiers.filter modifiers.contains ↔
    modifiers.Sublist ["ctrl".toList, "alt".toList, "shift".toList] := by
  constructor
  · intro h
    rw [h]
    exact List.filter_sublist
  · intro h
    have hall : ∀ ms ∈ ["ctrl".toList, "alt".toList, "shift".toList].sublists,
        ms = permittedModifiers.filter ms.contains := by
      decide
    exact hall modifiers (List.mem_sublists.mpr h)

theorem validateChord_ok_iff : validateChord modifiers base raw = .ok () ↔
    Chorded modifiers ∧ base ≠ [] ∧ (base.length = 1 ∨ base ∈ namedKeys) := by
  unfold validateChord
  by_cases hempty : (modifiers.isEmpty || base.isEmpty) = true
  · rw [if_pos hempty]
    refine iff_of_false nofun ?_
    rintro ⟨hchord, hbase, -⟩
    have hsome := hchord.some
    simp [hsome, hbase] at hempty
  · rw [if_neg hempty]
    obtain ⟨hsome, hbase⟩ : modifiers ≠ [] ∧ base ≠ [] := by simpa using hempty
    by_cases hforbidden : (modifiers.any fun m =>
        !permittedModifiers.contains m || forbiddenModifiers.contains m) = true
    · rw [if_pos hforbidden]
      refine iff_of_false nofun ?_
      rintro ⟨hchord, -, -⟩
      obtain ⟨m, hm, hbad⟩ := List.any_eq_true.mp hforbidden
      have hall : ∀ m ∈ ["ctrl".toList, "alt".toList, "shift".toList],
          (!permittedModifiers.contains m || forbiddenModifiers.contains m) = false := by
        decide
      rw [hall m (hchord.ordered.subset hm)] at hbad
      cases hbad
    · rw [if_neg hforbidden]
      by_cases horder : modifiers ≠ permittedModifiers.filter modifiers.contains
      · rw [if_pos horder]
        refine iff_of_false nofun ?_
        rintro ⟨hchord, -, -⟩
        exact horder ((ordered_iff).mpr hchord.ordered)
      · rw [if_neg horder]
        have hchord : Chorded modifiers := ⟨hsome, (ordered_iff).mp (not_not.mp horder)⟩
        by_cases hkind : base.length = 1 ∨ base ∈ namedKeys
        · rw [if_pos hkind]
          exact iff_of_true rfl ⟨hchord, hbase, hkind⟩
        · rw [if_neg hkind]
          exact iff_of_false nofun fun h => hkind h.2.2

theorem validateKey_plain (h : '+' ∉ toAsciiLowercase raw) : validateKey raw = .ok () ↔
    toAsciiLowercase raw ∈ namedKeys ∨ isFunctionKey (toAsciiLowercase raw) = true := by
  simp only [validateKey, splitChord_plain h]
  split
  · rename_i hkind
    exact iff_of_true rfl hkind
  · rename_i hkind
    exact iff_of_false nofun hkind

theorem validateKey_joined (hraw : toAsciiLowercase raw = joined modifiers base)
    (h : modifiers ≠ []) (hm : ∀ m ∈ modifiers, '+' ∉ m) (hb : '+' ∉ base) :
    validateKey raw = .ok () ↔
      Chorded modifiers ∧ base ≠ [] ∧ (base.length = 1 ∨ base ∈ namedKeys) := by
  simp only [validateKey, hraw, splitChord_joined h hm hb]
  exact validateChord_ok_iff

/-- The base of a chord is one character or a name. -/
theorem validateKey_chord (hraw : toAsciiLowercase raw = joined modifiers base)
    (h : Chorded modifiers) (hb : '+' ∉ base) (hbase : base ≠ []) :
    validateKey raw = .ok () ↔ base.length = 1 ∨ base ∈ namedKeys := by
  rw [validateKey_joined hraw h.some (fun m hm => (h.plain m hm).1) hb]
  exact ⟨fun hall => hall.2.2, fun hkind => ⟨h, hbase, hkind⟩⟩

/-- After a second `+` there is no base, and the first ends a modifier without a name. -/
theorem validateKey_plus (hraw : toAsciiLowercase raw = joined modifiers ['+'])
    (h : Chorded modifiers) : validateKey raw ≠ .ok () := by
  rw [joined_plus] at hraw
  rw [ne_eq, validateKey_joined hraw (by simp) ?_ (by simp)]
  · exact fun hall => hall.2.1 rfl
  · intro m hm
    cases List.mem_append.mp hm with
    | inl hm => exact (h.plain m hm).1
    | inr hm =>
      rw [List.mem_singleton.mp hm]
      exact List.not_mem_nil

theorem plain_function (h : ∀ c ∈ digits, c.isDigit = true) : '+' ∉ 'f' :: digits := by
  intro hmem
  cases List.mem_cons.mp hmem with
  | inl heq => exact absurd heq (by decide)
  | inr hmem => exact absurd (h '+' hmem) (by decide)

theorem isFunctionKey_iff : isFunctionKey key = true ↔
    ∃ digits, key = 'f' :: digits ∧ digits ≠ [] ∧ (∀ c ∈ digits, c.isDigit = true) ∧
      decimal digits ≤ 99 := by
  constructor
  · intro h
    unfold isFunctionKey at h
    split at h
    · simp only [Bool.and_eq_true, Bool.not_eq_true', List.isEmpty_eq_false_iff, List.all_eq_true,
        decide_eq_true_eq] at h
      exact ⟨_, rfl, h.1.1, h.1.2, h.2⟩
    · cases h
  · rintro ⟨digits, rfl, hne, hdigits, hle⟩
    simp only [isFunctionKey, Bool.and_eq_true, Bool.not_eq_true', List.isEmpty_eq_false_iff,
      List.all_eq_true, decide_eq_true_eq]
    exact ⟨⟨hne, hdigits⟩, hle⟩

/-- The numbers of the table, as they are written there. -/
theorem toDigits_written {n : Nat} (h : n ≤ 99) :
    Nat.toDigits 10 n ≠ [] ∧ (∀ c ∈ Nat.toDigits 10 n, c.isDigit = true) ∧
      decimal (Nat.toDigits 10 n) ≤ 99 ∧
      ∀ rest, Nat.toDigits 10 n = '0' :: rest → rest = [] := by
  have hall : ∀ n < 100, Nat.toDigits 10 n ≠ [] ∧ (Nat.toDigits 10 n).all Char.isDigit = true ∧
      decimal (Nat.toDigits 10 n) ≤ 99 ∧
      ((Nat.toDigits 10 n).head? = some '0' → (Nat.toDigits 10 n).tail = []) := by
    decide
  obtain ⟨hne, hdigits, hle, hzero⟩ := hall n (by omega)
  refine ⟨hne, List.all_eq_true.mp hdigits, hle, ?_⟩
  intro rest hrest
  rw [hrest] at hzero
  exact hzero rfl

theorem digit_eq {c : Char} (h : c.isDigit = true) :
    ∃ v < 10, c = Char.ofNat (48 + v) ∧ c.toNat - '0'.toNat = v := by
  have hbounds : 48 ≤ c.toNat ∧ c.toNat ≤ 57 := by
    simpa [Char.isDigit, UInt32.le_iff_toNat_le] using h
  refine ⟨c.toNat - 48, by omega, ?_, rfl⟩
  rw [show 48 + (c.toNat - 48) = c.toNat by omega, Char.ofNat_toNat]

theorem le_decimal_fold (digits : Text) (start : Nat) :
    start ≤ digits.foldl (fun n c => 10 * n + (c.toNat - '0'.toNat)) start := by
  induction digits generalizing start with
  | nil => exact Nat.le_refl _
  | cons c rest ih =>
    have hstep : start ≤ 10 * start + (c.toNat - '0'.toNat) := by omega
    exact Nat.le_trans hstep (ih _)

/-- Digits that say at most 99 are a number of the table, or they begin with a zero too many. -/
theorem written_or_zeros (hne : digits ≠ []) (hdigits : ∀ c ∈ digits, c.isDigit = true)
    (hle : decimal digits ≤ 99) :
    (∃ n ≤ 99, digits = Nat.toDigits 10 n) ∨ ∃ rest, rest ≠ [] ∧ digits = '0' :: rest := by
  obtain ⟨c, rest, rfl⟩ := List.exists_cons_of_ne_nil hne
  obtain ⟨a, ha, hc, hva⟩ := digit_eq (hdigits c List.mem_cons_self)
  cases rest with
  | nil =>
    have hone : ∀ a < 10, [Char.ofNat (48 + a)] = Nat.toDigits 10 a := by decide
    exact Or.inl ⟨a, by omega, by rw [hc, hone a ha]⟩
  | cons d rest =>
    obtain ⟨b, hb, hd, hvb⟩ := digit_eq (hdigits d (by simp))
    by_cases hzero : a = 0
    · subst hzero
      exact Or.inr ⟨d :: rest, List.cons_ne_nil _ _, by rw [hc]⟩
    · cases rest with
      | nil =>
        have htwo : ∀ a < 10, ∀ b < 10, a ≠ 0 →
            [Char.ofNat (48 + a), Char.ofNat (48 + b)] = Nat.toDigits 10 (10 * a + b) := by
          decide
        exact Or.inl ⟨10 * a + b, by omega, by rw [hc, hd, htwo a ha b hb hzero]⟩
      | cons e rest =>
        -- three digits without a leading zero are a hundred or more
        have hlarge : 10 * (10 * (10 * 0 + (c.toNat - '0'.toNat)) + (d.toNat - '0'.toNat)) +
            (e.toNat - '0'.toNat) ≤ decimal (c :: d :: e :: rest) := le_decimal_fold rest _
        rw [hva, hvb] at hlarge
        omega

theorem named_iff : key ∈ namedKeys ↔ ∃ name ∈ acceptedNames, key = toAsciiLowercase name := by
  have hsub : ∀ key ∈ namedKeys, ∃ name ∈ acceptedNames, key = toAsciiLowercase name := by decide
  have hsup : ∀ name ∈ acceptedNames, toAsciiLowercase name ∈ namedKeys := by decide
  exact ⟨hsub key, fun ⟨name, hname, hkey⟩ => hkey ▸ hsup name hname⟩

theorem named_plain (h : key ∈ namedKeys) : '+' ∉ key ∧ 2 ≤ key.length ∧ key.head? ≠ some 'f' := by
  have hall : ∀ key ∈ namedKeys, '+' ∉ key ∧ 2 ≤ key.length ∧ key.head? ≠ some 'f' := by decide
  exact hall key h

theorem base_named (h : key ∈ namedKeys) : Base printable key := by
  obtain ⟨name, hname, rfl⟩ := (named_iff).mp h
  exact .named hname

/-- A chord whose base has no `+` is read in one way. -/
theorem joined_inj (h : Chorded modifiers) (h' : Chorded modifiers') (hb : '+' ∉ base)
    (hb' : '+' ∉ base') (heq : joined modifiers base = joined modifiers' base') :
    base = base' := by
  have hleft := splitChord_joined h.some (fun m hm => (h.plain m hm).1) hb
  have hright := splitChord_joined h'.some (fun m hm => (h'.plain m hm).1) hb'
  rw [heq] at hleft
  cases hleft.symm.trans hright
  rfl

theorem joined_length (h : Chorded modifiers) (base : Text) :
    2 ≤ (joined modifiers base).length := by
  obtain ⟨m, ms, rfl⟩ := List.exists_cons_of_ne_nil h.some
  have hm : m ≠ [] := (h.plain m List.mem_cons_self).2
  have hpos := List.length_pos_of_ne_nil hm
  unfold joined
  rw [List.cons_append, List.intercalate_cons_of_ne_nil (by simp), List.length_append,
    List.length_append, List.length_singleton]
  omega

/-- What is let through. -/
theorem validateKey_cases (h : validateKey raw = .ok ()) :
    toAsciiLowercase raw ∈ namedKeys ∨ isFunctionKey (toAsciiLowercase raw) = true ∨
      ∃ modifiers base, toAsciiLowercase raw = joined modifiers base ∧ Chorded modifiers ∧
        '+' ∉ base ∧ (base.length = 1 ∨ base ∈ namedKeys) := by
  cases hsplit : splitChord (toAsciiLowercase raw) with
  | none =>
    have hplain : '+' ∉ toAsciiLowercase raw := by
      intro hmem
      rw [splitChord, if_pos hmem] at hsplit
      simp at hsplit
    exact ((validateKey_plain hplain).mp h).imp_right Or.inl
  | some parts =>
    obtain ⟨modifiers, base⟩ := parts
    obtain ⟨hkey, -, hb⟩ := eq_joined_of_splitChord hsplit
    simp only [validateKey, hsplit] at h
    obtain ⟨hchord, -, hkind⟩ := (validateChord_ok_iff).mp h
    exact Or.inr (Or.inr ⟨modifiers, base, hkey, hchord, hb, hkind⟩)

theorem validateKey_length (h : validateKey raw = .ok ()) :
    2 ≤ (toAsciiLowercase raw).length := by
  rcases validateKey_cases h with hnamed | hfunction | ⟨modifiers, base, hkey, hchord, -, -⟩
  · exact (named_plain hnamed).2.1
  · obtain ⟨digits, hkey, hne, -, -⟩ := (isFunctionKey_iff).mp hfunction
    have hpos := List.length_pos_of_ne_nil hne
    rw [hkey, List.length_cons]
    omega
  · rw [hkey]
    exact joined_length hchord base

theorem base_plain (h : Base printable base) (hb : base ≠ ['+']) : '+' ∉ base := by
  cases h with
  | named hname => exact (named_plain ((named_iff).mpr ⟨_, hname, rfl⟩)).1
  | function hn => exact plain_function (toDigits_written hn).2.1
  | character hc =>
    intro hmem
    exact hb (by rw [List.mem_singleton.mp hmem])

/-- The base of a chord in the table. -/
theorem grammar_chord (h : Chorded modifiers) (hb : '+' ∉ base) :
    Grammar printable (joined modifiers base) ↔ Base printable base := by
  constructor
  · intro hg
    generalize hkey : joined modifiers base = key at hg
    cases hg with
    | base hbase =>
      have hplus := (@plus_mem_joined base) h.some
      rw [hkey] at hplus
      have hsingle : key = ['+'] := by
        by_contra hne
        exact base_plain hbase hne hplus
      have hlength := joined_length h base
      rw [hkey, hsingle] at hlength
      exact absurd hlength (by decide)
    | @chord modifiers' base' h' hbase =>
      by_cases hplus : base' = ['+']
      · -- the text ends with a `+`, so the base is empty, which no chord has
        subst hplus
        rw [joined_plus] at hkey
        have hleft := splitChord_joined h.some (fun m hm => (h.plain m hm).1) hb
        have hright := (@splitChord_joined [] (modifiers' ++ [[]]))
          (by simp) (fun m hm => ?_) (by simp)
        · rw [hkey] at hleft
          cases hleft.symm.trans hright
          exact absurd rfl (h.plain [] (by simp)).2
        · cases List.mem_append.mp hm with
          | inl hm => exact (h'.plain m hm).1
          | inr hm =>
            rw [List.mem_singleton.mp hm]
            exact List.not_mem_nil
      · rw [joined_inj h h' hb (base_plain hbase hplus) hkey]
        exact hbase
  · exact .chord h

theorem grammar_plain (hb : '+' ∉ key) : Grammar printable key ↔ Base printable key := by
  constructor
  · intro hg
    cases hg with
    | base hbase => exact hbase
    | chord h hbase => exact absurd (plus_mem_joined h.some) hb
  · exact .base

theorem base_head (h : Base printable key) (hlength : 2 ≤ key.length)
    (hhead : key.head? = some 'f') : ∃ n ≤ 99, key = 'f' :: Nat.toDigits 10 n := by
  cases h with
  | named hname => exact absurd hhead (named_plain ((named_iff).mpr ⟨_, hname, rfl⟩)).2.2
  | function hn => exact ⟨_, hn, rfl⟩
  | character hc => exact absurd hlength (by simp)

/-- In each of its kinds exactly one of the two takes the key. -/
theorem astray_apart (h : Astray printable (toAsciiLowercase raw)) :
    ¬(validateKey raw = .ok () ↔ Grammar printable (toAsciiLowercase raw)) := by
  generalize hkey : toAsciiLowercase raw = key at h
  cases h with
  | bare hc =>
    intro hiff
    have hlength := validateKey_length (hiff.mpr (.base (.character hc)))
    rw [hkey] at hlength
    exact absurd hlength (by simp)
  | @zeros digits hne hdigits hle =>
    have hall : ∀ c ∈ '0' :: digits, c.isDigit = true := by
      intro c hc
      cases List.mem_cons.mp hc with
      | inl hc => exact hc ▸ rfl
      | inr hc => exact hdigits c hc
    have hplain := plain_function hall
    have hok : validateKey raw = .ok () := by
      rw [validateKey_plain (hkey ▸ hplain), hkey]
      exact Or.inr ((isFunctionKey_iff).mpr ⟨_, rfl, List.cons_ne_nil _ _, hall, hle⟩)
    intro hiff
    have hbase := (grammar_plain hplain).mp (hiff.mp hok)
    obtain ⟨n, hn, heq⟩ := base_head hbase (by simp) rfl
    have hrest := (toDigits_written hn).2.2.2 digits (List.cons.inj heq).2.symm
    exact hne hrest
  | @chordFunction modifiers n hchord hn =>
    have hplain := plain_function (toDigits_written hn).2.1
    intro hiff
    have hok := hiff.mpr (.chord hchord (.function hn))
    rcases (validateKey_chord hkey hchord hplain (List.cons_ne_nil _ _)).mp hok with hone | hnamed
    · rw [List.length_cons] at hone
      exact (toDigits_written hn).1 (List.length_eq_zero_iff.mp (Nat.succ.inj hone))
    · exact (named_plain hnamed).2.2 rfl
  | chordPlus hchord hplus =>
    intro hiff
    exact validateKey_plus hkey hchord (hiff.mpr (.chord hchord (.character hplus)))
  | @chordHidden modifiers c hchord hc hplus =>
    have hplain : '+' ∉ [c] := fun hmem => hplus (List.mem_singleton.mp hmem).symm
    have hok := (validateKey_chord hkey hchord hplain (List.cons_ne_nil _ _)).mpr (Or.inl rfl)
    intro hiff
    have hbase := (grammar_chord hchord hplain).mp (hiff.mp hok)
    generalize hbaseKey : [c] = base at hbase
    cases hbase with
    | named hname =>
      have hlength := (named_plain ((named_iff).mpr ⟨_, hname, rfl⟩)).2.1
      rw [← hbaseKey] at hlength
      exact absurd hlength (by simp)
    | function hn =>
      have hempty := (List.cons.inj hbaseKey).2
      exact (toDigits_written hn).1 hempty.symm
    | character hprintable =>
      cases hbaseKey
      exact hc hprintable

/-- `validateKey` takes the language of the table, but for five kinds of text: one printable
character, a function key with zeros before its number, and a chord of a function key, of `+` or
of a character that is not printable. -/
theorem key_grammar_iff (printable : Char → Prop) (raw : Text) :
    (validateKey raw = .ok () ↔ Grammar printable (toAsciiLowercase raw)) ↔
      ¬Astray printable (toAsciiLowercase raw) := by
  constructor
  · exact fun hiff hastray => astray_apart hastray hiff
  · intro hnot
    constructor
    · intro hok
      rcases validateKey_cases hok with
        hnamed | hfunction | ⟨modifiers, base, hkey, hchord, hb, hkind⟩
      · exact .base (base_named hnamed)
      · obtain ⟨digits, hkey, hne, hdigits, hle⟩ := (isFunctionKey_iff).mp hfunction
        rw [hkey] at hnot ⊢
        rcases written_or_zeros hne hdigits hle with ⟨n, hn, rfl⟩ | ⟨rest, hrest, rfl⟩
        · exact .base (.function hn)
        · exact absurd (.zeros hrest (fun c hc => hdigits c (List.mem_cons_of_mem _ hc)) hle) hnot
      · rw [hkey] at hnot ⊢
        refine .chord hchord ?_
        rcases hkind with hone | hnamed
        · obtain ⟨c, rfl⟩ := List.length_eq_one_iff.mp hone
          by_cases hc : printable c
          · exact .character hc
          · refine absurd (.chordHidden hchord hc ?_) hnot
            rintro rfl
            exact hb (List.mem_singleton.mpr rfl)
        · exact base_named hnamed
    · intro hg
      generalize hkey : toAsciiLowercase raw = key at hg hnot
      cases hg with
      | base hbase =>
        cases hbase with
        | named hname =>
          have hnamed := (named_iff).mpr ⟨_, hname, rfl⟩
          rw [validateKey_plain (hkey ▸ (named_plain hnamed).1), hkey]
          exact Or.inl hnamed
        | function hn =>
          obtain ⟨hne, hdigits, hle, -⟩ := toDigits_written hn
          rw [validateKey_plain (hkey ▸ plain_function hdigits), hkey]
          exact Or.inr ((isFunctionKey_iff).mpr ⟨_, rfl, hne, hdigits, hle⟩)
        | character hc => exact absurd (.bare hc) hnot
      | chord hchord hbase =>
        cases hbase with
        | named hname =>
          have hnamed := (named_iff).mpr ⟨_, hname, rfl⟩
          have hlength := (named_plain hnamed).2.1
          refine (validateKey_chord hkey hchord (named_plain hnamed).1 ?_).mpr (Or.inr hnamed)
          intro hempty
          rw [hempty] at hlength
          exact absurd hlength (by simp)
        | function hn => exact absurd (.chordFunction hchord hn) hnot
        | @character c hc =>
          by_cases hplus : c = '+'
          · subst hplus
            exact absurd (.chordPlus hchord hc) hnot
          · have hplain : '+' ∉ [c] := fun hmem => hplus (List.mem_singleton.mp hmem).symm
            exact (validateKey_chord hkey hchord hplain (List.cons_ne_nil _ _)).mpr (Or.inl rfl)

/-- Everything but the controls of ASCII. -/
def visible (c : Char) : Prop := 32 ≤ c.toNat ∧ c.toNat ≠ 127

/-- The table has every single character, and `f07` is not a form of it. -/
theorem single_character_refused :
    ¬(validateKey "a".toList = .ok () ↔ Grammar visible (toAsciiLowercase "a".toList)) ∧
      ¬(validateKey "F07".toList = .ok () ↔ Grammar visible (toAsciiLowercase "F07".toList)) := by
  constructor
  · intro hiff
    exact absurd (hiff.mpr (.base (.character ⟨by decide, by decide⟩))) (by decide)
  · refine astray_apart ?_
    exact .zeros (List.cons_ne_nil '7' []) (List.forall_mem_singleton.mpr rfl) (by decide)

end HerdrMobile.Host.KeyGrammar
