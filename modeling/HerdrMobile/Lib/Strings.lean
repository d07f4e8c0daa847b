import Mathlib.Data.List.DropRight

/-!
# Text as lists of characters

Trimming, splitting and joining of text. A text that is joined at a separator
and split there again falls into the pieces of its parts, and a text that begins
and ends with a visible character is its own trimmed form.
-/

namespace HerdrMobile.Lib.Strings

abbrev Text := List Char

instance : LawfulBEq Text := inferInstance

/-- The characters with the Unicode property `White_Space`. -/
def isWhitespace (c : Char) : Bool :=
  (0x9 ≤ c.toNat && c.toNat ≤ 0xD) || c.toNat = 0x20 || c.toNat = 0x85 || c.toNat = 0xA0 ||
    c.toNat = 0x1680 || (0x2000 ≤ c.toNat && c.toNat ≤ 0x200A) || c.toNat = 0x2028 ||
    c.toNat = 0x2029 || c.toNat = 0x202F || c.toNat = 0x205F || c.toNat = 0x3000

def trim (t : Text) : Text := (t.dropWhile isWhitespace).rdropWhile isWhitespace

/-- The text neither begins nor ends with white space. -/
def Tight (t : Text) : Prop :=
  (∀ c ∈ t.head?, ¬isWhitespace c) ∧ ∀ c ∈ t.getLast?, ¬isWhitespace c

theorem trim_eq_self {t : Text} (h : Tight t) : trim t = t := by
  have hfront : t.dropWhile isWhitespace = t := by
    cases t with
    | nil => rfl
    | cons c rest => exact List.dropWhile_cons_of_neg (h.1 c rfl)
  rw [trim, hfront, List.rdropWhile_eq_self_iff]
  intro hl
  exact h.2 _ (List.getLast?_eq_getLast_of_ne_nil hl)

theorem tight_of_forall {t : Text} (h : ∀ c ∈ t, ¬isWhitespace c) : Tight t :=
  ⟨fun c hc => h c (List.mem_of_mem_head? hc), fun c hc => h c (List.mem_of_getLast? hc)⟩

section Patterns

variable {α : Type*} [DecidableEq α]

@[grind =]
def stripPrefix (pat t : List α) : Option (List α) :=
  if pat.isPrefixOf t then some (t.drop pat.length) else none

theorem stripPrefix_append (pat t : List α) : stripPrefix pat (pat ++ t) = some t := by
  simp [stripPrefix]

theorem eq_append_of_stripPrefix {pat t rest : List α} (h : stripPrefix pat t = some rest) :
    t = pat ++ rest := by
  rw [stripPrefix] at h
  split at h
  · next hp =>
    cases h
    obtain ⟨tail, rfl⟩ := List.isPrefixOf_iff_prefix.mp hp
    simp
  · cases h

/-- What stands before and after the first place where `pat` occurs. -/
@[grind =]
def splitOnce (pat : List α) : List α → Option (List α × List α)
  | [] => if pat = [] then some ([], []) else none
  | c :: rest =>
    match stripPrefix pat (c :: rest) with
    | some after => some ([], after)
    | none => (splitOnce pat rest).map fun (before, after) => (c :: before, after)

theorem splitOnce_append {x : α} {before : List α} (h : x ∉ before) (after : List α) :
    splitOnce [x] (before ++ x :: after) = some (before, after) := by
  induction before with
  | nil => simp [splitOnce, stripPrefix]
  | cons c rest ih =>
    obtain ⟨hc, hrest⟩ : x ≠ c ∧ x ∉ rest := by simpa using h
    have hstrip : stripPrefix [x] (c :: (rest ++ x :: after)) = none := by
      simp [stripPrefix, hc]
    rw [List.cons_append, splitOnce, hstrip]
    simp [ih hrest]

theorem splitOnce_of_mem {x : α} {t : List α} (h : x ∈ t) : (splitOnce [x] t).isSome := by
  induction t with
  | nil => cases h
  | cons c rest ih =>
    rw [splitOnce]
    rcases hs : stripPrefix [x] (c :: rest) with _ | after
    · rcases List.mem_cons.mp h with rfl | h
      · simp [stripPrefix] at hs
      · simpa using ih h
    · rfl

theorem eq_of_splitOnce {pat t before after : List α} (h : splitOnce pat t = some (before, after)) :
    t = before ++ pat ++ after := by
  induction t generalizing before with
  | nil =>
    rw [splitOnce] at h
    split at h
    · next hp =>
      cases h
      simp [hp]
    · cases h
  | cons c rest ih =>
    rw [splitOnce] at h
    split at h
    · next hp =>
      cases h
      exact eq_append_of_stripPrefix hp
    · obtain ⟨⟨front, back⟩, hsplit, heq⟩ := Option.map_eq_some_iff.mp h
      cases heq
      rw [ih hsplit]
      simp

end Patterns

section Joins

variable {α : Type*} {x : α} {l : List α} {ls : List (List α)}

theorem head?_intercalate (sep : List α) (hl : l ≠ []) :
    (sep.intercalate (l :: ls)).head? = l.head? := by
  cases ls with
  | nil => simp
  | cons m ms =>
    rw [List.intercalate_cons_cons, List.append_assoc, List.head?_append_of_ne_nil _ hl]

theorem getLast?_intercalate (sep : List α) (hl : l ≠ []) :
    (sep.intercalate (ls ++ [l])).getLast? = l.getLast? := by
  induction ls with
  | nil => simp
  | cons m ms ih =>
    have hne : sep.intercalate (ms ++ [l]) ≠ [] := by
      intro h
      rw [h] at ih
      exact hl (List.getLast?_eq_none_iff.mp ih.symm)
    rw [List.cons_append, List.intercalate_cons_of_ne_nil (by simp),
      List.getLast?_append_of_ne_nil _ hne, ih]

theorem mem_intercalate {c : α} (h : c ∈ [x].intercalate ls) : c = x ∨ ∃ l ∈ ls, c ∈ l := by
  induction ls with
  | nil => cases h
  | cons l rest ih =>
    rcases eq_or_ne rest [] with rfl | hne
    · rw [List.intercalate_singleton] at h
      exact .inr ⟨l, List.mem_cons_self, h⟩
    · rw [List.intercalate_cons_of_ne_nil hne, List.mem_append, List.mem_append] at h
      rcases h with (h | h) | h
      · exact .inr ⟨l, List.mem_cons_self, h⟩
      · exact .inl (List.mem_singleton.mp h)
      · rcases ih h with h | ⟨m, hm, hc⟩
        · exact .inl h
        · exact .inr ⟨m, List.mem_cons_of_mem l hm, hc⟩

/-- Splitting a join gives the pieces of the parts, also where the separator
occurs inside them. -/
theorem splitOn_join [BEq α] [LawfulBEq α] (x : α) (hls : ls ≠ []) :
    ([x].intercalate ls).splitOn x = ls.flatMap (List.splitOn x) := by
  induction ls with
  | nil => exact absurd rfl hls
  | cons l rest ih =>
    cases rest with
    | nil => simp
    | cons m ms =>
      rw [List.intercalate_cons_cons, List.append_assoc, List.singleton_append,
        List.splitOn_append_cons_self, ih (List.cons_ne_nil m ms)]
      rfl

theorem not_mem_of_mem_splitOn [BEq α] [LawfulBEq α] {t : List α} (h : l ∈ t.splitOn x) : x ∉ l := by
  induction t generalizing l with
  | nil => simp_all
  | cons c rest ih =>
    rw [List.splitOn_cons_eq_if_modifyHead] at h
    split at h
    · rcases List.mem_cons.mp h with rfl | h
      · simp
      · exact ih h
    · next hc =>
      obtain ⟨m, ms, hm⟩ := List.exists_cons_of_ne_nil (List.splitOn_ne_nil x rest)
      rw [hm] at h ih
      rcases List.mem_cons.mp h with rfl | h
      · have hx : x ∉ m := ih List.mem_cons_self
        have hxc : x ≠ c := fun h => hc (beq_iff_eq.mpr h.symm)
        simpa [hxc] using hx
      · exact ih (List.mem_cons_of_mem m h)

end Joins

end HerdrMobile.Lib.Strings
