import Mathlib.Data.List.Nodup

/-!
# Maps that remember the order of insertion

A key keeps its place when its value is replaced, and a new key comes last.
-/
namespace HerdrMobile.Lib.LinkedMap

set_option autoImplicit false

/-- The entries in the order in which their keys came. -/
abbrev Linked (κ α : Type*) := List (κ × α)

variable {κ α : Type*} [DecidableEq κ] {m : Linked κ α} {k j : κ} {a b : α}

@[grind =]
def get : Linked κ α → κ → Option α
  | [], _ => none
  | (j, a) :: rest, k => if j = k then some a else get rest k

@[grind =]
def put : Linked κ α → κ → α → Linked κ α
  | [], k, a => [(k, a)]
  | (j, b) :: rest, k, a => if j = k then (k, a) :: rest else (j, b) :: put rest k a

def remove (m : Linked κ α) (k : κ) : Linked κ α := m.filter fun entry => entry.1 ≠ k

@[simp] theorem get_put_self : get (put m k a) k = some a := by
  induction m with
  | nil => simp [put, get]
  | cons entry rest ih =>
    rw [put]
    split
    · simp [get]
    · next hne => rw [get, if_neg hne, ih]

theorem get_put_ne (h : j ≠ k) : get (put m k a) j = get m j := by
  induction m with
  | nil => simp [put, get, h.symm]
  | cons entry rest ih =>
    rw [put]
    split
    · next heq => rw [get, get, if_neg h.symm, heq, if_neg h.symm]
    · rw [get, get, ih]

theorem get_put : get (put m k a) j = if j = k then some a else get m j := by
  split
  · next heq => rw [heq, get_put_self]
  · next hne => exact get_put_ne hne

@[simp] theorem get_remove_self : get (remove m k) k = none := by
  induction m with
  | nil => rfl
  | cons entry rest ih =>
    rw [remove, List.filter_cons]
    split
    · next hne =>
      rw [get, if_neg (of_decide_eq_true hne)]
      exact ih
    · exact ih

theorem get_remove_ne (h : j ≠ k) : get (remove m k) j = get m j := by
  induction m with
  | nil => rfl
  | cons entry rest ih =>
    rw [remove, List.filter_cons]
    split
    · rw [get, get]
      split
      · rfl
      · exact ih
    · next heq =>
      have hk : entry.1 = k := by simpa using heq
      rw [get, hk, if_neg h.symm]
      exact ih

/-- What is there after a removal was there before. -/
theorem get_of_remove (h : get (remove m k) j = some a) : j ≠ k ∧ get m j = some a := by
  by_cases hj : j = k
  · rw [hj, get_remove_self] at h
    cases h
  · rw [get_remove_ne hj] at h
    exact ⟨hj, h⟩

/-- A key stands once. -/
def Keyed (m : Linked κ α) : Prop := (m.map Prod.fst).Nodup

theorem mem_of_get (h : get m k = some a) : (k, a) ∈ m := by
  induction m with
  | nil => cases h
  | cons entry rest ih =>
    rw [get] at h
    split at h
    · next heq =>
      obtain rfl := Option.some.inj h
      rw [← heq]
      exact List.mem_cons_self
    · exact List.mem_cons_of_mem _ (ih h)

theorem get_of_mem (hm : Keyed m) (h : (k, a) ∈ m) : get m k = some a := by
  induction m with
  | nil => cases h
  | cons entry rest ih =>
    obtain ⟨hnot, hrest⟩ := List.nodup_cons.mp hm
    rw [get]
    obtain rfl | h := List.mem_cons.mp h
    · rw [if_pos rfl]
    · have hne : entry.1 ≠ k := by
        rintro rfl
        exact hnot (List.mem_map.mpr ⟨_, h, rfl⟩)
      rw [if_neg hne]
      exact ih hrest h

theorem mem_put (h : (j, b) ∈ put m k a) : (j = k ∧ b = a) ∨ (j, b) ∈ m := by
  induction m with
  | nil =>
    cases List.mem_singleton.mp h
    exact .inl ⟨rfl, rfl⟩
  | cons entry rest ih =>
    rw [put] at h
    split at h
    · obtain heq | hrest := List.mem_cons.mp h
      · cases heq
        exact .inl ⟨rfl, rfl⟩
      · exact .inr (List.mem_cons_of_mem _ hrest)
    · obtain heq | hrest := List.mem_cons.mp h
      · exact .inr (heq ▸ List.mem_cons_self)
      · exact (ih hrest).imp id (List.mem_cons_of_mem _)

theorem mem_keys_put : j ∈ (put m k a).map Prod.fst ↔ j = k ∨ j ∈ m.map Prod.fst := by
  induction m with
  | nil => simp [put]
  | cons entry rest ih =>
    rw [put]
    split
    · next heq => simp [heq]
    · simp only [List.map_cons, List.mem_cons, ih]
      tauto

theorem keyed_put (hm : Keyed m) : Keyed (put m k a) := by
  induction m with
  | nil => exact List.nodup_singleton k
  | cons entry rest ih =>
    obtain ⟨hnot, hrest⟩ := List.nodup_cons.mp hm
    rw [put]
    split
    · next heq =>
      rw [heq] at hnot
      exact List.nodup_cons.mpr ⟨hnot, hrest⟩
    · next hne =>
      refine List.nodup_cons.mpr ⟨fun hmem => ?_, ih hrest⟩
      obtain heq | hmem := (mem_keys_put).mp hmem
      · exact hne heq
      · exact hnot hmem

theorem keyed_remove (hm : Keyed m) : Keyed (remove m k) :=
  hm.sublist (List.filter_sublist.map Prod.fst)

section Pick

variable {β : Type*} {f : α → Option β}

/-- The entries that `f` takes, as it shows them. -/
def pick (f : α → Option β) (m : Linked κ α) : Linked κ β :=
  m.filterMap fun entry => (f entry.2).map (entry.1, ·)

omit [DecidableEq κ] in
theorem pick_cons_some {v : β} {rest : Linked κ α} (hf : f a = some v) :
    pick f ((k, a) :: rest) = (k, v) :: pick f rest := by
  rw [pick, List.filterMap_cons, hf]
  rfl

omit [DecidableEq κ] in
theorem pick_cons_none {rest : Linked κ α} (hf : f a = none) :
    pick f ((k, a) :: rest) = pick f rest := by
  rw [pick, List.filterMap_cons, hf]
  rfl

/-- A key whose entries are all taken is looked up alike. -/
theorem get_pick (h : ∀ b, (k, b) ∈ m → (f b).isSome = true) :
    get (pick f m) k = (get m k).bind f := by
  induction m with
  | nil => rfl
  | cons entry rest ih =>
    obtain ⟨j, b⟩ := entry
    have hrest := ih fun c hc => h c (List.mem_cons_of_mem _ hc)
    by_cases hj : j = k
    · obtain ⟨v, hv⟩ := Option.isSome_iff_exists.mp (h b (hj ▸ List.mem_cons_self))
      rw [pick_cons_some hv, get, if_pos hj, get, if_pos hj]
      exact hv.symm
    · rw [get, if_neg hj]
      cases hv : f b with
      | none => rw [pick_cons_none hv, hrest]
      | some v => rw [pick_cons_some hv, get, if_neg hj, hrest]

theorem pick_put {v : β} (hf : f a = some v) (h : ∀ b, (k, b) ∈ m → (f b).isSome = true) :
    pick f (put m k a) = put (pick f m) k v := by
  induction m with
  | nil => exact pick_cons_some hf
  | cons entry rest ih =>
    obtain ⟨j, b⟩ := entry
    have hrest := ih fun c hc => h c (List.mem_cons_of_mem _ hc)
    by_cases hj : j = k
    · obtain ⟨w, hw⟩ := Option.isSome_iff_exists.mp (h b (hj ▸ List.mem_cons_self))
      rw [put, if_pos hj, pick_cons_some hf, pick_cons_some hw, put, if_pos hj]
    · rw [put, if_neg hj]
      cases hw : f b with
      | none => rw [pick_cons_none hw, pick_cons_none hw, hrest]
      | some w => rw [pick_cons_some hw, pick_cons_some hw, put, if_neg hj, hrest]

/-- Nothing is taken of the key. -/
theorem pick_put_none (hf : f a = none) (h : ∀ b, (k, b) ∈ m → f b = none) :
    pick f (put m k a) = pick f m := by
  induction m with
  | nil => exact pick_cons_none hf
  | cons entry rest ih =>
    obtain ⟨j, b⟩ := entry
    have hrest := ih fun c hc => h c (List.mem_cons_of_mem _ hc)
    by_cases hj : j = k
    · have hb := h b (hj ▸ List.mem_cons_self)
      rw [put, if_pos hj, pick_cons_none hf, pick_cons_none hb]
    · rw [put, if_neg hj]
      cases hw : f b with
      | none => rw [pick_cons_none hw, pick_cons_none hw, hrest]
      | some w => rw [pick_cons_some hw, pick_cons_some hw, hrest]

theorem pick_remove (m : Linked κ α) (k : κ) : pick f (remove m k) = remove (pick f m) k := by
  induction m with
  | nil => rfl
  | cons entry rest ih =>
    obtain ⟨j, b⟩ := entry
    by_cases hj : j = k
    · have hdrop : remove ((j, b) :: rest) k = remove rest k :=
        List.filter_cons_of_neg (by simpa using hj)
      rw [hdrop, ih]
      cases hw : f b with
      | none => rw [pick_cons_none hw]
      | some w =>
        rw [pick_cons_some hw]
        exact (List.filter_cons_of_neg (by simpa using hj)).symm
    · have hkeep : remove ((j, b) :: rest) k = (j, b) :: remove rest k :=
        List.filter_cons_of_pos (by simpa using hj)
      rw [hkeep]
      cases hw : f b with
      | none => rw [pick_cons_none hw, pick_cons_none hw, ih]
      | some w =>
        rw [pick_cons_some hw, pick_cons_some hw, ih]
        exact (List.filter_cons_of_pos (by simpa using hj)).symm

theorem pick_remove_none (h : ∀ b, (k, b) ∈ m → f b = none) : pick f (remove m k) = pick f m := by
  rw [pick_remove]
  refine List.filter_eq_self.mpr fun entry hentry => ?_
  obtain ⟨⟨j, b⟩, hb, hv⟩ := List.mem_filterMap.mp hentry
  obtain ⟨v, hv, rfl⟩ := Option.map_eq_some_iff.mp hv
  refine decide_eq_true fun hj => ?_
  rw [h b (hj ▸ hb)] at hv
  cases hv

end Pick

end HerdrMobile.Lib.LinkedMap
