import Mathlib.Data.Char
import Mathlib.Data.List.Lex
import HerdrMobile.Lib.Strings

/-!
# JSON values

The values of a JSON document with 64-bit integers and floats of any type. An object
holds its fields in the order of their keys, each key once, whatever the order in which
they are inserted. What a value becomes when it is written as text and read again is
`through`: a reader that allows a limited nesting refuses what is deeper, and a float
comes back as the float its text is read as.
-/

namespace HerdrMobile.Lib

open Strings

/-- The numbers are kept apart as natural, negative and floating ones. -/
inductive Json (F : Type) where
  | null
  | bool (value : Bool)
  | posInt (value : UInt64)
  | negInt (value : Int64)
  | float (value : F)
  | str (text : Text)
  | arr (items : List (Json F))
  | obj (fields : List (Text × Json F))

namespace Json

variable {F : Type} {β : Type}

abbrev Fields (F : Type) := List (Text × Json F)

/-- The fields with one more, in its place or instead of the one that had its key. -/
@[grind =]
def insertField (key : Text) (value : β) : List (Text × β) → List (Text × β)
  | [] => [(key, value)]
  | (k, v) :: rest =>
    if key = k then (key, value) :: rest
    else if key < k then (key, value) :: (k, v) :: rest
    else (k, v) :: insertField key value rest

/-- The fields in the order of their keys. -/
def arrange (fields : List (Text × β)) : List (Text × β) :=
  fields.foldr (fun kv => insertField kv.1 kv.2) []

def object (fields : Fields F) : Json F := .obj (arrange fields)

/-- The value of a field; only an object has any. -/
def get (j : Json F) (key : Text) : Option (Json F) :=
  match j with
  | .obj fields => fields.lookup key
  | _ => none

/-- An object with one more field, or with another value in it. -/
def put (j : Json F) (key : Text) (value : Json F) : Json F :=
  match j with
  | .obj fields => .obj (insertField key value fields)
  | _ => j

def asStr : Json F → Option Text
  | .str text => some text
  | _ => none

/-- In the order of the keys, each key once. -/
def Arranged (fields : List (Text × β)) : Prop := fields.Pairwise fun a b => a.1 < b.1

theorem lookup_cons_ite (k key : Text) (value : β) (rest : List (Text × β)) :
    ((key, value) :: rest).lookup k = if k = key then some value else rest.lookup k := by
  by_cases h : k = key
  · rw [if_pos h, h, List.lookup_cons_self]
  · rw [if_neg h, List.lookup_cons, beq_false_of_ne h]

theorem lookup_insertField (key k : Text) (value : β) (fields : List (Text × β)) :
    (insertField key value fields).lookup k = if k = key then some value else fields.lookup k := by
  induction fields with
  | nil => exact lookup_cons_ite k key value []
  | cons kv rest ih =>
    obtain ⟨k', v'⟩ := kv
    rw [insertField]
    split
    · next h =>
      subst h
      rw [lookup_cons_ite, lookup_cons_ite]
      split <;> rfl
    · next hne =>
      split
      · rw [lookup_cons_ite]
      · rw [lookup_cons_ite, lookup_cons_ite, ih]
        by_cases hk : k = k'
        · rw [if_pos hk, if_pos hk, if_neg fun h => hne (h.symm.trans hk)]
        · rw [if_neg hk, if_neg hk]

theorem lookup_arrange (fields : List (Text × β)) (k : Text) :
    (arrange fields).lookup k = fields.lookup k := by
  induction fields with
  | nil => rfl
  | cons kv rest ih =>
    show (insertField kv.1 kv.2 (arrange rest)).lookup k = _
    rw [lookup_insertField, ih, lookup_cons_ite]

theorem get_object (fields : Fields F) (k : Text) : (object fields).get k = fields.lookup k :=
  lookup_arrange fields k

theorem get_put (key k : Text) (value : Json F) (fields : Fields F) :
    ((Json.obj fields).put key value).get k =
      if k = key then some value else (Json.obj fields).get k :=
  lookup_insertField key k value fields

/-- The fields without the one of a key. -/
def eraseField (key : Text) (fields : List (Text × β)) : List (Text × β) :=
  fields.filter fun kv => kv.1 ≠ key

theorem lookup_eraseField (key k : Text) (fields : List (Text × β)) :
    (eraseField key fields).lookup k = if k = key then none else fields.lookup k := by
  induction fields with
  | nil => rw [eraseField, List.filter_nil, List.lookup_nil, ite_self]
  | cons kv rest ih =>
    obtain ⟨k', v'⟩ := kv
    rw [eraseField, List.filter_cons, lookup_cons_ite]
    change (eraseField key rest).lookup k = _ at ih
    by_cases hk' : k' = key
    · rw [if_neg (by simpa using hk')]
      by_cases hk : k = key
      · rw [if_pos hk] at ih ⊢
        exact ih
      · rw [if_neg hk] at ih ⊢
        rw [if_neg fun h => hk (h.trans hk')]
        exact ih
    · rw [if_pos (by simpa using hk'), lookup_cons_ite]
      by_cases hk : k = k'
      · rw [if_pos hk, if_neg fun h => hk' (hk.symm.trans h), if_pos hk]
      · rw [if_neg hk, if_neg hk]
        exact ih

theorem mem_insertField {key : Text} {value : β} {fields : List (Text × β)} {kv : Text × β}
    (h : kv ∈ insertField key value fields) : kv = (key, value) ∨ kv ∈ fields := by
  induction fields with
  | nil => exact .inl (List.mem_singleton.mp h)
  | cons entry rest ih =>
    rw [insertField] at h
    split at h
    · rcases List.mem_cons.mp h with h | h
      · exact .inl h
      · exact .inr (List.mem_cons_of_mem entry h)
    · split at h
      · exact List.mem_cons.mp h
      · rcases List.mem_cons.mp h with h | h
        · exact .inr (h ▸ List.mem_cons_self)
        · exact (ih h).imp id (List.mem_cons_of_mem entry)

theorem mem_arrange {fields : List (Text × β)} {kv : Text × β} (h : kv ∈ arrange fields) :
    kv ∈ fields := by
  induction fields with
  | nil => cases h
  | cons entry rest ih =>
    rcases mem_insertField h with rfl | h
    · exact List.mem_cons_self
    · exact List.mem_cons_of_mem entry (ih h)

theorem arranged_insertField (key : Text) (value : β) {fields : List (Text × β)}
    (h : Arranged fields) : Arranged (insertField key value fields) := by
  induction fields with
  | nil => exact List.pairwise_singleton _ _
  | cons entry rest ih =>
    obtain ⟨hhead, hrest⟩ := List.pairwise_cons.mp h
    rw [insertField]
    split
    · next heq => exact List.pairwise_cons.mpr ⟨fun kv hkv => heq ▸ hhead kv hkv, hrest⟩
    · next hne =>
      split
      · next hlt =>
        refine List.pairwise_cons.mpr ⟨fun kv hkv => ?_, h⟩
        rcases List.mem_cons.mp hkv with rfl | hkv
        · exact hlt
        · exact lt_trans hlt (hhead kv hkv)
      · next hge =>
        refine List.pairwise_cons.mpr ⟨fun kv hkv => ?_, ih hrest⟩
        rcases mem_insertField hkv with rfl | hkv
        · exact lt_of_le_of_ne (not_lt.mp hge) (Ne.symm hne)
        · exact hhead kv hkv

theorem arranged_arrange (fields : List (Text × β)) : Arranged (arrange fields) := by
  induction fields with
  | nil => exact List.Pairwise.nil
  | cons kv rest ih => exact arranged_insertField kv.1 kv.2 ih

theorem arrange_of_arranged {fields : List (Text × β)} (h : Arranged fields) :
    arrange fields = fields := by
  induction fields with
  | nil => rfl
  | cons kv rest ih =>
    obtain ⟨hhead, hrest⟩ := List.pairwise_cons.mp h
    show insertField kv.1 kv.2 (arrange rest) = kv :: rest
    rw [ih hrest]
    cases rest with
    | nil => rfl
    | cons next more =>
      have hlt := hhead next List.mem_cons_self
      rw [insertField, if_neg (ne_of_lt hlt), if_pos hlt]

/-- The value that a reader with `limit` levels of nesting left makes of the text. -/
@[grind =]
def through (reread : F → F) : Nat → Json F → Option (Json F)
  | _, .null => some .null
  | _, .bool b => some (.bool b)
  | _, .posInt n => some (.posInt n)
  | _, .negInt n => some (.negInt n)
  | _, .float f => some (.float (reread f))
  | _, .str t => some (.str t)
  | 0, .arr _ => none
  | 0, .obj _ => none
  | limit + 1, .arr items => (items.mapM (through reread limit)).map .arr
  | limit + 1, .obj fields =>
    (fields.mapM fun kv => (through reread limit kv.2).map (kv.1, ·)).map object

/-- The value comes back as it is, with `limit` levels of nesting left. -/
def Kept (reread : F → F) (limit : Nat) (j : Json F) : Prop := j.through reread limit = some j

theorem mapM_self {α : Type} {f : α → Option α} {xs : List α} (h : ∀ x ∈ xs, f x = some x) :
    xs.mapM f = some xs := by
  induction xs with
  | nil => rfl
  | cons x rest ih =>
    rw [List.mapM_cons, h x List.mem_cons_self, ih fun y hy => h y (List.mem_cons_of_mem x hy)]
    rfl

theorem mapM_mono {α γ : Type} {f g : α → Option γ} {xs : List α} {ys : List γ}
    (h : ∀ x ∈ xs, ∀ y, f x = some y → g x = some y) (hf : xs.mapM f = some ys) :
    xs.mapM g = some ys := by
  induction xs generalizing ys with
  | nil => exact hf
  | cons x rest ih =>
    rw [List.mapM_cons] at hf ⊢
    obtain ⟨y, hy, hf⟩ := Option.bind_eq_some_iff.mp hf
    obtain ⟨zs, hz, hf⟩ := Option.bind_eq_some_iff.mp hf
    rw [h x List.mem_cons_self y hy, ih (fun z hz => h z (List.mem_cons_of_mem x hz)) hz]
    exact hf

/-- What a reader accepts, one with more levels left accepts in the same way. -/
theorem through_mono {reread : F → F} {n m : Nat} {j j' : Json F} (hnm : n ≤ m)
    (h : j.through reread n = some j') : j.through reread m = some j' := by
  induction n generalizing m j j' with
  | zero =>
    cases j with
    | arr | obj => cases h
    | _ =>
      cases h
      simp only [through]
  | succ n ih =>
    obtain ⟨m, rfl⟩ : ∃ k, m = k + 1 := ⟨m - 1, by omega⟩
    have hle : n ≤ m := Nat.le_of_succ_le_succ hnm
    cases j with
    | arr items =>
      rw [through, Option.map_eq_some_iff] at h ⊢
      obtain ⟨ys, hys, rfl⟩ := h
      exact ⟨ys, mapM_mono (fun x _ y hy => ih hle hy) hys, rfl⟩
    | obj fields =>
      rw [through, Option.map_eq_some_iff] at h ⊢
      obtain ⟨ys, hys, rfl⟩ := h
      refine ⟨ys, mapM_mono (fun kv _ y hy => ?_) hys, rfl⟩
      obtain ⟨v, hv, rfl⟩ := Option.map_eq_some_iff.mp hy
      rw [ih hle hv]
      rfl
    | _ => exact h

theorem Kept.mono {reread : F → F} {n m : Nat} {j : Json F} (h : Kept reread n j) (hnm : n ≤ m) :
    Kept reread m j := through_mono hnm h

theorem kept_arr {reread : F → F} {n : Nat} {items : List (Json F)}
    (h : ∀ j ∈ items, Kept reread n j) : Kept reread (n + 1) (.arr items) := by
  rw [Kept, through, mapM_self h]
  rfl

/-- An object comes back arranged. -/
theorem through_obj {reread : F → F} {n : Nat} {fields : Fields F}
    (h : ∀ kv ∈ fields, Kept reread n kv.2) :
    through reread (n + 1) (.obj fields) = some (object fields) := by
  rw [through, mapM_self]
  · rfl
  · intro kv hkv
    rw [h kv hkv]
    rfl

theorem kept_object {reread : F → F} {n : Nat} {fields : Fields F}
    (h : ∀ kv ∈ fields, Kept reread n kv.2) : Kept reread (n + 1) (object fields) := by
  have hthrough := through_obj fun kv hkv => h kv (mem_arrange hkv)
  rwa [object, arrange_of_arranged (arranged_arrange fields)] at hthrough

theorem through_arr_map {α : Type} {reread : F → F} {n : Nat} {f g : α → Json F} {xs : List α}
    (h : ∀ x ∈ xs, through reread n (f x) = some (g x)) :
    through reread (n + 1) (.arr (xs.map f)) = some (.arr (xs.map g)) := by
  have hitems : (xs.map f).mapM (through reread n) = some (xs.map g) := by
    induction xs with
    | nil => rfl
    | cons x rest ih =>
      rw [List.map_cons, List.mapM_cons, h x List.mem_cons_self,
        ih fun y hy => h y (List.mem_cons_of_mem x hy)]
      rfl
  rw [through, hitems, Option.map_some]

/-- Nested at most so many levels, with floats that are read as they were written and
objects in order. -/
inductive Within (reread : F → F) : Nat → Json F → Prop where
  | null {n : Nat} : Within reread n .null
  | bool {n : Nat} (b : Bool) : Within reread n (.bool b)
  | posInt {n : Nat} (i : UInt64) : Within reread n (.posInt i)
  | negInt {n : Nat} (i : Int64) : Within reread n (.negInt i)
  | float {n : Nat} {f : F} (h : reread f = f) : Within reread n (.float f)
  | str {n : Nat} (t : Text) : Within reread n (.str t)
  | arr {n : Nat} {items : List (Json F)} (h : ∀ j ∈ items, Within reread n j) :
    Within reread (n + 1) (.arr items)
  | obj {n : Nat} {fields : Fields F} (harranged : Arranged fields)
    (h : ∀ kv ∈ fields, Within reread n kv.2) : Within reread (n + 1) (.obj fields)

theorem Within.kept {reread : F → F} {n : Nat} {j : Json F} (h : Within reread n j) :
    Kept reread n j := by
  induction h with
  | null | bool | posInt | negInt | str => simp only [Kept, through]
  | float h => rw [Kept, through, h]
  | arr _ ih => exact kept_arr ih
  | obj harranged _ ih =>
    rw [Kept, through_obj ih, object, arrange_of_arranged harranged]

theorem mapM_none {α γ : Type} {f : α → Option γ} {xs : List α} {x : α} (hx : x ∈ xs)
    (h : f x = none) : xs.mapM f = none := by
  induction xs with
  | nil => cases hx
  | cons y rest ih =>
    rw [List.mapM_cons]
    rcases List.mem_cons.mp hx with rfl | hrest
    · rw [h]
      rfl
    · rw [ih hrest]
      cases f y <;> rfl

theorem through_obj_none {reread : F → F} {n : Nat} {fields : Fields F} {kv : Text × Json F}
    (hkv : kv ∈ fields) (h : through reread n kv.2 = none) :
    through reread (n + 1) (.obj fields) = none := by
  rw [through, mapM_none hkv]
  · rfl
  · rw [h]
    rfl

/-- A value inside so many arrays. -/
@[grind =]
def nest (j : Json F) : Nat → Json F
  | 0 => j
  | n + 1 => .arr [nest j n]

/-- What is nested deeper than the reader allows is not read. -/
theorem through_nest (reread : F → F) (j : Json F) (n : Nat) :
    through reread n (nest j (n + 1)) = none := by
  induction n with
  | zero => rfl
  | succ n ih =>
    rw [nest, through, List.mapM_cons, ih]
    rfl

end Json

/-- How a serializer writes and reads values, and the float it reads for one it wrote. -/
structure Serde (F : Type) where
  write : Json F → List UInt8
  read : List UInt8 → Option (Json F)
  reread : F → F

namespace Serde

variable {F : Type}

/-- The levels of nesting that are read. -/
def readLimit : Nat := 127

/-- What was written for this value is read as the value that its text stands for. -/
def Rereads (S : Serde F) (j : Json F) : Prop :=
  S.read (S.write j) = j.through S.reread readLimit

/-- A serializer that knows the text of one value. -/
def only (j : Json Empty) (text : List UInt8) : Serde Empty where
  write _ := text
  read bytes := if bytes = text then j.through id readLimit else none
  reread := id

theorem rereads_only (j : Json Empty) (text : List UInt8) : (only j text).Rereads j := if_pos rfl

end Serde

end HerdrMobile.Lib
