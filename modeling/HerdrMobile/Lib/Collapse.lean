import HerdrMobile.Lib.Strings
import Mathlib.Data.List.TakeWhile

/-!
# Trimming and collapsing

A text is trimmed of one class of elements, each run of another class becomes one separator, and
the rest is mapped element by element. What the tokens between the separators are like can be told
from the text itself.
-/
namespace HerdrMobile.Lib.Collapse

open Strings

set_option autoImplicit false

variable {α β : Type*} {p q : α → Bool} {t : List α} {c : α}

def trimBy (p : α → Bool) (t : List α) : List α := (t.dropWhile p).rdropWhile p

theorem head?_rdropWhile (h : ∀ c ∈ t.head?, p c = false) : (t.rdropWhile p).head? = t.head? := by
  cases t with
  | nil => rfl
  | cons c rest =>
    have hne : (c :: rest).rdropWhile p ≠ [] := by
      intro hnil
      rw [List.rdropWhile_eq_nil_iff] at hnil
      exact Bool.false_ne_true ((h c rfl).symm.trans (hnil c List.mem_cons_self))
    obtain ⟨tail, htail⟩ := List.rdropWhile_prefix p (c :: rest)
    conv_rhs => rw [← htail, List.head?_append_of_ne_nil _ hne]

theorem head?_trimBy : (trimBy p t).head? = t.find? fun c => !p c := by
  rw [List.find?_not_eq_head?_dropWhile]
  apply head?_rdropWhile
  intro c hc
  rw [← List.find?_not_eq_head?_dropWhile] at hc
  have hnot := List.find?_some hc
  simpa using hnot

/-- Nothing is left exactly of what is trimmed as a whole. -/
theorem trimBy_eq_nil : trimBy p t = [] ↔ ∀ c ∈ t, p c = true := by
  rw [trimBy, List.rdropWhile_eq_nil_iff]
  constructor
  · intro h c hc
    rw [← List.takeWhile_append_dropWhile (p := p) (l := t), List.mem_append] at hc
    obtain hc | hc := hc
    · exact List.mem_takeWhile_imp hc
    · exact h c hc
  · intro h c hc
    exact h c ((List.dropWhile_suffix p).subset hc)

theorem trimBy_eq_self (h : ∀ c ∈ t, p c = false) : trimBy p t = t := by
  have hfront : t.dropWhile p = t := by
    cases t with
    | nil => rfl
    | cons c rest => exact List.dropWhile_cons_of_neg (by simp [h c List.mem_cons_self])
  rw [trimBy, hfront, List.rdropWhile_eq_self_iff]
  intro hl
  simp [h _ (List.getLast_mem hl)]

theorem trimBy_subset (hc : c ∈ trimBy p t) : c ∈ t :=
  (List.dropWhile_suffix p).subset ((List.rdropWhile_prefix p _).subset hc)

/-- What is not trimmed anywhere stays. -/
theorem mem_trimBy (hp : p c = false) (hc : c ∈ t) : c ∈ trimBy p t := by
  have hdrop : c ∈ t.dropWhile p := by
    rw [← List.takeWhile_append_dropWhile (p := p) (l := t), List.mem_append] at hc
    obtain hc | hc := hc
    · exact absurd (List.mem_takeWhile_imp hc) (by simp [hp])
    · exact hc
  rw [← List.mem_reverse, ← List.takeWhile_append_dropWhile (p := p) (l := (t.dropWhile p).reverse),
    List.mem_append] at hdrop
  obtain hdrop | hdrop := hdrop
  · exact absurd (List.mem_takeWhile_imp hdrop) (by simp [hp])
  · exact List.mem_reverse.mpr hdrop

theorem getLast?_trimBy : (trimBy p t).getLast? = t.reverse.find? fun c => !p c := by
  have hfront : (t.takeWhile p).reverse.find? (fun c => !p c) = none := by
    rw [List.find?_eq_none]
    intro c hc
    simp [List.mem_takeWhile_imp (List.mem_reverse.mp hc)]
  have hsplit : t.reverse = (t.dropWhile p).reverse ++ (t.takeWhile p).reverse := by
    rw [← List.reverse_append, List.takeWhile_append_dropWhile]
  rw [hsplit, List.find?_append, hfront, Option.or_none, List.find?_not_eq_head?_dropWhile, trimBy,
    List.rdropWhile, List.getLast?_reverse]

theorem dropWhile_congr (h : ∀ c ∈ t, p c = q c) : t.dropWhile p = t.dropWhile q := by
  induction t with
  | nil => rfl
  | cons c rest ih =>
    rw [List.dropWhile_cons, List.dropWhile_cons, h c List.mem_cons_self,
      ih fun d hd => h d (List.mem_cons_of_mem c hd)]

theorem trimBy_congr (h : ∀ c ∈ t, p c = q c) : trimBy p t = trimBy q t := by
  rw [trimBy, trimBy, ← dropWhile_congr h, List.rdropWhile, List.rdropWhile]
  congr 1
  apply dropWhile_congr
  intro c hc
  exact h c ((List.dropWhile_suffix p).subset (List.mem_reverse.mp hc))

/-- Each run of separators becomes one `x`; `last` says that one stands before. -/
def collapse (sep : α → Bool) (out : α → List β) (x : β) : Bool → List α → List β
  | _, [] => []
  | last, c :: rest =>
    if sep c then
      if last then collapse sep out x true rest else x :: collapse sep out x true rest
    else out c ++ collapse sep out x false rest

section Tokens

variable [DecidableEq β] {sep : α → Bool} {out : α → List β} {x : β}

/-- A token that follows is empty; `fresh` says that one begins here. -/
def HasEmpty (x : β) : Bool → List β → Prop
  | fresh, [] => fresh = true
  | fresh, b :: rest => if b = x then fresh = true ∨ HasEmpty x true rest else HasEmpty x false rest

theorem nil_mem_splitOn {s : List β} : [] ∈ s.splitOn x ↔ HasEmpty x true s := by
  have hall : (∀ s : List β, [] ∈ s.splitOn x ↔ HasEmpty x true s) ∧
      ∀ s : List β, [] ∈ (s.splitOn x).tail ↔ HasEmpty x false s := by
    rw [← forall_and]
    intro s
    induction s with
    | nil => simp [HasEmpty]
    | cons b rest ih =>
      obtain ⟨hfresh, hlater⟩ := ih
      obtain ⟨token, tokens, hrest⟩ := List.exists_cons_of_ne_nil (List.splitOn_ne_nil x rest)
      rw [List.splitOn_cons_eq_if_modifyHead, HasEmpty, HasEmpty]
      by_cases hb : b = x
      · simp [hb, hfresh]
      · simp only [hb, beq_iff_eq, if_false]
        rw [hrest] at hlater ⊢
        simp [← hlater]
  exact hall.1 s

/-- Where no separator stands, something is put out, and none among it. -/
structure Tame (sep : α → Bool) (out : α → List β) (x : β) : Prop where
  ne_nil : ∀ c, sep c = false → out c ≠ []
  ne_sep : ∀ c, sep c = false → x ∉ out c

theorem hasEmpty_append {token rest : List β} (hne : token ≠ []) (hx : x ∉ token) (fresh : Bool) :
    HasEmpty x fresh (token ++ rest) ↔ HasEmpty x false rest := by
  induction token generalizing fresh with
  | nil => exact absurd rfl hne
  | cons b token ih =>
    have hb : b ≠ x := fun h => hx (h ▸ List.mem_cons_self)
    rw [List.cons_append, HasEmpty, if_neg hb]
    cases token with
    | nil => exact Iff.rfl
    | cons b' token =>
      exact ih (List.cons_ne_nil _ _) (fun h => hx (List.mem_cons_of_mem _ h)) false

/-- An empty token begins or ends the text. -/
theorem hasEmpty_collapse (hout : Tame sep out x) (t : List α) :
    (HasEmpty x false (collapse sep out x false t) ↔ ∃ c ∈ t.getLast?, sep c = true) ∧
      (HasEmpty x true (collapse sep out x true t) ↔
        t = [] ∨ ∃ c ∈ t.getLast?, sep c = true) := by
  induction t with
  | nil => simp [collapse, HasEmpty]
  | cons c rest ih =>
    obtain ⟨hfalse, htrue⟩ := ih
    have hlast : ∀ d, (c :: rest).getLast? = some d ↔
        (rest = [] ∧ c = d) ∨ rest.getLast? = some d := by
      intro d
      cases rest with
      | nil => simp
      | cons r rest => simp [List.getLast?_cons_cons]
    simp only [Option.mem_def, hlast] at hfalse htrue ⊢
    by_cases hc : sep c = true
    · have hends : (∃ d, ((rest = [] ∧ c = d) ∨ rest.getLast? = some d) ∧ sep d = true) ↔
          rest = [] ∨ ∃ d, rest.getLast? = some d ∧ sep d = true := by
        constructor
        · rintro ⟨d, ⟨hnil, -⟩ | hd, hs⟩
          · exact .inl hnil
          · exact .inr ⟨d, hd, hs⟩
        · rintro (hnil | ⟨d, hd, hs⟩)
          · exact ⟨c, .inl ⟨hnil, rfl⟩, hc⟩
          · exact ⟨d, .inr hd, hs⟩
      rw [collapse, if_pos hc, if_neg Bool.false_ne_true, collapse, if_pos hc, if_pos rfl, HasEmpty,
        if_pos rfl, htrue, hends]
      simp
    · have hends : (∃ d, ((rest = [] ∧ c = d) ∨ rest.getLast? = some d) ∧ sep d = true) ↔
          ∃ d, rest.getLast? = some d ∧ sep d = true := by
        constructor
        · rintro ⟨d, ⟨-, rfl⟩ | hd, hs⟩
          · exact absurd hs hc
          · exact ⟨d, hd, hs⟩
        · rintro ⟨d, hd, hs⟩
          exact ⟨d, .inr hd, hs⟩
      have hplain : sep c = false := Bool.not_eq_true _ ▸ hc
      rw [collapse, if_neg hc, collapse, if_neg hc,
        hasEmpty_append (hout.ne_nil c hplain) (hout.ne_sep c hplain),
        hasEmpty_append (hout.ne_nil c hplain) (hout.ne_sep c hplain), hfalse, hends]
      simp

theorem nil_mem_splitOn_collapse (hout : Tame sep out x) (t : List α) :
    [] ∈ (collapse sep out x false t).splitOn x ↔
      t = [] ∨ (∃ c ∈ t.head?, sep c = true) ∨ ∃ c ∈ t.getLast?, sep c = true := by
  rw [nil_mem_splitOn]
  cases t with
  | nil => simp [collapse, HasEmpty]
  | cons c rest =>
    by_cases hc : sep c = true
    · rw [collapse, if_pos hc, if_neg Bool.false_ne_true, HasEmpty, if_pos rfl]
      simp [hc]
    · have hplain : sep c = false := Bool.not_eq_true _ ▸ hc
      have hrest := (hasEmpty_collapse hout (c :: rest)).1
      rw [collapse, if_neg hc, hasEmpty_append (hout.ne_nil c hplain) (hout.ne_sep c hplain)]
        at hrest
      rw [collapse, if_neg hc, hasEmpty_append (hout.ne_nil c hplain) (hout.ne_sep c hplain),
        hrest]
      simp [hc]

/-- The elements of the tokens are those of the text beside the separators. -/
theorem exists_mem_splitOn {r : β → Prop} {s : List β} :
    (∃ token ∈ s.splitOn x, ∃ b ∈ token, r b) ↔ ∃ b ∈ s, b ≠ x ∧ r b := by
  induction s with
  | nil => simp
  | cons b rest ih =>
    obtain ⟨token, tokens, hrest⟩ := List.exists_cons_of_ne_nil (List.splitOn_ne_nil x rest)
    rw [List.splitOn_cons_eq_if_modifyHead]
    by_cases hb : b = x
    · simp [hb, ih]
    · rw [hrest] at ih ⊢
      simp only [hb, beq_iff_eq, if_false]
      simp only [List.mem_cons, exists_eq_or_imp] at ih ⊢
      simp [ih, hb, or_assoc]

omit [DecidableEq β] in
theorem mem_collapse {b : β} (hb : b ≠ x) (last : Bool) (t : List α) :
    b ∈ collapse sep out x last t ↔ ∃ c ∈ t, sep c = false ∧ b ∈ out c := by
  induction t generalizing last with
  | nil => simp [collapse]
  | cons c rest ih =>
    by_cases hc : sep c = true
    · rw [collapse, if_pos hc]
      cases last <;> simp [ih, hb, hc]
    · rw [collapse, if_neg hc, List.mem_append, ih]
      simp [hc]

end Tokens

theorem collapse_congr {sep sep' : α → Bool} {out out' : α → List β} {x : β}
    (hsep : ∀ c ∈ t, sep c = sep' c) (hout : ∀ c ∈ t, sep c = false → out c = out' c)
    (last : Bool) : collapse sep out x last t = collapse sep' out' x last t := by
  induction t generalizing last with
  | nil => rfl
  | cons c rest ih =>
    have ih := ih (fun d hd => hsep d (List.mem_cons_of_mem c hd))
      fun d hd => hout d (List.mem_cons_of_mem c hd)
    rw [collapse, collapse, ← hsep c List.mem_cons_self, ih, ih]
    cases hc : sep c with
    | true => rfl
    | false =>
      rw [if_neg Bool.false_ne_true, if_neg Bool.false_ne_true, hout c List.mem_cons_self hc]

end HerdrMobile.Lib.Collapse
