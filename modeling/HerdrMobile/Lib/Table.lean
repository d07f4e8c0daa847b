import Mathlib.Data.List.AList
import Mathlib.Data.List.MinMax

/-!
# Finite maps

How many entries a map has after a key is set or removed, and the key whose entry is the
least by a measure.
-/
namespace HerdrMobile.Lib.Table

set_option autoImplicit false

variable {κ α : Type*} {m : AList fun _ : κ => α} {k : κ} {a : α} {f : α → Nat}

def size (m : AList fun _ : κ => α) : Nat := m.entries.length

theorem size_keys (m : AList fun _ : κ => α) : m.keys.length = size m := List.length_map _

/-- The key of the first entry with the least measure. -/
def least (f : α → Nat) (m : AList fun _ : κ => α) : Option κ :=
  (m.entries.argmin fun e => f e.2).map Sigma.fst

theorem least_of_pos (h : 0 < size m) : ∃ k, least f m = some k := by
  cases hmin : m.entries.argmin fun e => f e.2 with
  | none =>
    have hempty := List.argmin_eq_none.mp hmin
    unfold size at h
    rw [hempty] at h
    cases h
  | some e => exact ⟨e.1, congrArg (Option.map Sigma.fst) hmin⟩

variable [DecidableEq κ]

theorem least_spec (h : least f m = some k) :
    ∃ a, m.lookup k = some a ∧ ∀ j b, m.lookup j = some b → f a ≤ f b := by
  obtain ⟨⟨k', a⟩, hmin, rfl⟩ := Option.map_eq_some_iff.mp h
  refine ⟨a, AList.mem_lookup_iff.mpr (List.argmin_mem hmin), fun j b hb => ?_⟩
  have hmem : (⟨j, b⟩ : (_ : κ) × α) ∈ m.entries := AList.mem_lookup_iff.mp hb
  exact List.le_of_mem_argmin (f := fun e : (_ : κ) × α => f e.2) hmem hmin

theorem size_erase_le (m : AList fun _ : κ => α) (k : κ) : size (m.erase k) ≤ size m := by
  rw [← size_keys, ← size_keys, AList.keys_erase]
  exact List.length_erase_le

theorem size_erase (h : k ∈ m) : size (m.erase k) + 1 = size m := by
  have hmem : k ∈ m.keys := AList.mem_keys.mp h
  have hpos : 0 < m.keys.length := List.length_pos_of_mem hmem
  rw [← size_keys, ← size_keys, AList.keys_erase, List.length_erase_of_mem hmem]
  omega

theorem size_insert_of_mem (h : k ∈ m) : size (m.insert k a) = size m := by
  rw [← size_erase h, ← size_keys, ← size_keys, AList.keys_insert, AList.keys_erase]
  rfl

theorem size_insert_of_notMem (h : k ∉ m) : size (m.insert k a) = size m + 1 := by
  unfold size
  rw [AList.entries_insert_of_notMem h]
  rfl

theorem lookup_erase_some {j : κ} (h : (m.erase k).lookup j = some a) :
    j ≠ k ∧ m.lookup j = some a := by
  by_cases hj : j = k
  · subst hj
    rw [AList.lookup_erase] at h
    cases h
  · rw [AList.lookup_erase_ne hj] at h
    exact ⟨hj, h⟩

theorem mem_of_lookup (h : m.lookup k = some a) : k ∈ m :=
  AList.lookup_isSome.mp (by rw [h]; rfl)

end HerdrMobile.Lib.Table
