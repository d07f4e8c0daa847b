import Mathlib.Data.List.Basic

/-!
# The latest item of each key

In a batch of items an item with a key replaces the items of that key before it, and an item
without one stays.
-/
namespace HerdrMobile.Lib.Latest

set_option autoImplicit false

variable {α κ : Type*} [DecidableEq κ] {key : α → Option κ} {k : κ} {seen : List κ}
  {batch kept all out sent : List α} {a : α}

/-- The items whose key has not been seen before. -/
@[grind =]
def retain (key : α → Option κ) : List κ → List α → List α
  | _, [] => []
  | seen, a :: rest =>
    match key a with
    | none => a :: retain key seen rest
    | some k => if k ∈ seen then retain key seen rest else a :: retain key (k :: seen) rest

/-- The first of each key, from the back. -/
def latest (key : α → Option κ) (batch : List α) : List α := (retain key [] batch.reverse).reverse

def unkeyed (key : α → Option κ) (items : List α) : List α := items.filter fun a => key a = none

def withKey (key : α → Option κ) (k : κ) (items : List α) : List α :=
  items.filter fun a => key a = some k

theorem retain_sublist (seen : List κ) (batch : List α) :
    (retain key seen batch).Sublist batch := by
  induction batch generalizing seen with
  | nil => exact List.Sublist.slnil
  | cons a rest ih =>
    rw [retain]
    cases key a with
    | none => exact (ih seen).cons_cons a
    | some k =>
      by_cases hk : k ∈ seen
      · simp only [if_pos hk]
        exact (ih seen).cons a
      · simp only [if_neg hk]
        exact (ih (k :: seen)).cons_cons a

theorem unkeyed_retain (seen : List κ) (batch : List α) :
    unkeyed key (retain key seen batch) = unkeyed key batch := by
  induction batch generalizing seen with
  | nil => rfl
  | cons a rest ih =>
    unfold unkeyed at ih ⊢
    rw [retain]
    cases hkey : key a with
    | none =>
      rw [List.filter_cons_of_pos (by simp [hkey]), List.filter_cons_of_pos (by simp [hkey]), ih]
    | some k =>
      rw [List.filter_cons_of_neg (by simp [hkey])]
      by_cases hk : k ∈ seen
      · simp only [if_pos hk]
        exact ih seen
      · simp only [if_neg hk]
        rw [List.filter_cons_of_neg (by simp [hkey])]
        exact ih (k :: seen)

theorem withKey_retain (k : κ) (seen : List κ) (batch : List α) :
    withKey key k (retain key seen batch) =
      if k ∈ seen then [] else (withKey key k batch).head?.toList := by
  induction batch generalizing seen with
  | nil => simp [retain, withKey]
  | cons a rest ih =>
    unfold withKey at ih ⊢
    rw [retain]
    cases hkey : key a with
    | none =>
      rw [List.filter_cons_of_neg (by simp [hkey]), List.filter_cons_of_neg (by simp [hkey]), ih]
    | some k' =>
      by_cases hsame : k' = k
      · subst hsame
        rw [List.filter_cons_of_pos (l := rest) (by simp [hkey])]
        by_cases hk : k' ∈ seen
        · simp only [if_pos hk]
          rw [ih, if_pos hk]
        · simp only [if_neg hk]
          rw [List.filter_cons_of_pos (by simp [hkey]), ih, if_pos List.mem_cons_self]
          rfl
      · rw [List.filter_cons_of_neg (l := rest) (by simp [hkey, hsame])]
        by_cases hk : k' ∈ seen
        · simp only [if_pos hk]
          exact ih seen
        · simp only [if_neg hk]
          rw [List.filter_cons_of_neg (by simp [hkey, hsame]), ih]
          simp [Ne.symm hsame]

theorem latest_sublist (batch : List α) : (latest key batch).Sublist batch := by
  have hrev := ((@retain_sublist _ _ _ key) [] batch.reverse).reverse
  rwa [List.reverse_reverse] at hrev

theorem unkeyed_latest (batch : List α) : unkeyed key (latest key batch) = unkeyed key batch := by
  have hretain := (@unkeyed_retain _ _ _ key) [] batch.reverse
  unfold unkeyed latest at *
  rw [List.filter_reverse, hretain, List.filter_reverse, List.reverse_reverse]

theorem withKey_latest (k : κ) (batch : List α) :
    withKey key k (latest key batch) = (withKey key k batch).getLast?.toList := by
  have hretain := (@withKey_retain _ _ _ key) k [] batch.reverse
  rw [if_neg List.not_mem_nil] at hretain
  unfold withKey latest at *
  rw [List.filter_reverse, hretain, List.filter_reverse, List.head?_reverse]
  cases (batch.filter fun a => key a = some k).getLast? with
  | none => rfl
  | some a => rfl

end HerdrMobile.Lib.Latest
