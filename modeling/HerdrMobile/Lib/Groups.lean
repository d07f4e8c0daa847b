import Mathlib.Data.List.Induction
import Mathlib.Data.List.Nodup

/-!
# Items by their key

A table that collects the items of a list under their keys. An item without a key is in no
group, and a key without items has none.
-/
namespace HerdrMobile.Lib.Groups

set_option autoImplicit false

variable {α κ : Type*} [DecidableEq κ]

/-- The item comes last in the group of its key, which is made where there is none. -/
@[grind =]
def push (key : κ) (item : α) : List (κ × List α) → List (κ × List α)
  | [] => [(key, [item])]
  | (k, members) :: rest =>
    if k = key then (k, members ++ [item]) :: rest else (k, members) :: push key item rest

def add (keyOf : α → Option κ) (table : List (κ × List α)) (item : α) : List (κ × List α) :=
  match keyOf item with
  | none => table
  | some key => push key item table

def groups (keyOf : α → Option κ) (items : List α) : List (κ × List α) :=
  items.foldl (add keyOf) []

/-- The items that have the key, in order. -/
def sharing (keyOf : α → Option κ) (items : List α) (key : κ) : List α :=
  items.filter fun item => decide (keyOf item = some key)

variable {keyOf : α → Option κ} {table : List (κ × List α)} {items : List α} {key k : κ}
  {item : α} {before members : List α}

theorem mem_sharing : item ∈ sharing keyOf items key ↔ item ∈ items ∧ keyOf item = some key := by
  simp [sharing]

theorem sharing_snoc : sharing keyOf (items ++ [item]) key =
    sharing keyOf items key ++ if keyOf item = some key then [item] else [] := by
  unfold sharing
  rw [List.filter_append]
  by_cases h : keyOf item = some key <;> simp [h]

/-- `before` are the members that the key has already, if any. -/
theorem mem_push (hkeys : (table.map Prod.fst).Nodup)
    (hbefore : (key, before) ∈ table ∨ (before = [] ∧ key ∉ table.map Prod.fst)) :
    (k, members) ∈ push key item table ↔
      if k = key then members = before ++ [item] else (k, members) ∈ table := by
  induction table with
  | nil =>
    obtain hmem | ⟨rfl, -⟩ := hbefore
    · cases hmem
    · simp [push, Prod.ext_iff]
  | cons entry rest ih =>
    obtain ⟨key', members'⟩ := entry
    rw [List.map_cons, List.nodup_cons] at hkeys
    obtain ⟨hfresh, hrest⟩ := hkeys
    rw [push]
    by_cases heq : key' = key
    · subst heq
      have hold : before = members' := by
        obtain hmem | ⟨-, hnew⟩ := hbefore
        · obtain hmem | hmem := List.mem_cons.mp hmem
          · exact congrArg Prod.snd hmem
          · exact absurd (List.mem_map_of_mem hmem) hfresh
        · exact absurd (List.mem_cons_self) hnew
      rw [if_pos rfl, hold, List.mem_cons]
      by_cases hk : k = key'
      · rw [if_pos hk, hk]
        constructor
        · rintro (hmem | hmem)
          · exact congrArg Prod.snd hmem
          · exact absurd (List.mem_map_of_mem hmem) hfresh
        · intro h
          exact .inl (by rw [h])
      · rw [if_neg hk, List.mem_cons]
        refine or_congr_left ⟨fun h => absurd (congrArg Prod.fst h) hk, fun h => ?_⟩
        exact absurd (congrArg Prod.fst h) hk
    · have hbefore' : (key, before) ∈ rest ∨ (before = [] ∧ key ∉ rest.map Prod.fst) := by
        obtain hmem | ⟨hnil, hnew⟩ := hbefore
        · obtain hmem | hmem := List.mem_cons.mp hmem
          · exact absurd (congrArg Prod.fst hmem).symm heq
          · exact .inl hmem
        · exact .inr ⟨hnil, fun h => hnew (List.mem_cons_of_mem _ h)⟩
      rw [if_neg heq, List.mem_cons, ih hrest hbefore', List.mem_cons]
      by_cases hk : k = key
      · rw [if_pos hk, if_pos hk, or_iff_right]
        intro h
        exact heq ((congrArg Prod.fst h).symm.trans hk)
      · rw [if_neg hk, if_neg hk]

theorem keys_push : (push key item table).map Prod.fst =
    if key ∈ table.map Prod.fst then table.map Prod.fst else table.map Prod.fst ++ [key] := by
  induction table with
  | nil => rfl
  | cons entry rest ih =>
    obtain ⟨key', members'⟩ := entry
    rw [push]
    by_cases heq : key' = key
    · rw [if_pos heq, if_pos (by simp [heq])]
      rfl
    · rw [if_neg heq, List.map_cons, ih, List.map_cons]
      by_cases hmem : key ∈ rest.map Prod.fst
      · rw [if_pos hmem, if_pos (List.mem_cons_of_mem _ hmem)]
      · rw [if_neg hmem, if_neg]
        · rfl
        · intro h
          obtain h | h := List.mem_cons.mp h
          · exact heq h.symm
          · exact hmem h

theorem nodup_push (hkeys : (table.map Prod.fst).Nodup) :
    ((push key item table).map Prod.fst).Nodup := by
  rw [keys_push]
  split
  · exact hkeys
  · next hnew =>
    rw [List.nodup_append]
    refine ⟨hkeys, List.nodup_singleton key, ?_⟩
    rintro k hk k' hk' rfl
    exact hnew (List.mem_singleton.mp hk' ▸ hk)

/-- Every key has one group, and it has the items that share the key. -/
theorem groups_spec (keyOf : α → Option κ) (items : List α) :
    ((groups keyOf items).map Prod.fst).Nodup ∧ ∀ k members,
      (k, members) ∈ groups keyOf items ↔ members = sharing keyOf items k ∧ members ≠ [] := by
  induction items using List.reverseRecOn with
  | nil =>
    refine ⟨List.nodup_nil, fun k members => ⟨fun h => (List.not_mem_nil h).elim, ?_⟩⟩
    rintro ⟨rfl, hne⟩
    exact absurd rfl hne
  | append_singleton items item ih =>
    obtain ⟨hkeys, hmem⟩ := ih
    have hadd : groups keyOf (items ++ [item]) = add keyOf (groups keyOf items) item := by
      rw [groups, List.foldl_append]
      rfl
    rw [hadd, add]
    cases hkey : keyOf item with
    | none =>
      refine ⟨hkeys, fun k members => ?_⟩
      rw [sharing_snoc, hkey, if_neg (by simp), List.append_nil]
      exact hmem k members
    | some key =>
      refine ⟨nodup_push hkeys, fun k members => ?_⟩
      have hbefore : (key, sharing keyOf items key) ∈ groups keyOf items ∨
          (sharing keyOf items key = [] ∧ key ∉ (groups keyOf items).map Prod.fst) := by
        by_cases hnil : sharing keyOf items key = []
        · refine .inr ⟨hnil, fun h => ?_⟩
          obtain ⟨⟨key', members'⟩, hin, rfl⟩ := List.mem_map.mp h
          obtain ⟨rfl, hne⟩ := (hmem key' members').mp hin
          exact hne hnil
        · exact .inl ((hmem _ _).mpr ⟨rfl, hnil⟩)
      show (k, members) ∈ push key item (groups keyOf items) ↔ _
      rw [mem_push hkeys hbefore, sharing_snoc, hkey]
      by_cases hk : k = key
      · rw [if_pos hk, hk, if_pos rfl]
        constructor
        · rintro rfl
          exact ⟨rfl, by simp⟩
        · exact And.left
      · have hne : ¬some key = some k := fun h => hk (Option.some.inj h).symm
        rw [if_neg hk, if_neg hne, List.append_nil]
        exact hmem k members

end HerdrMobile.Lib.Groups
