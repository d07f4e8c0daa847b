import Mathlib.Data.List.Nodup
import Mathlib.Data.List.Perm.Lattice
import Mathlib.Logic.Function.Basic

/-!
# Maps in the order of insertion

A map whose entries carry their own key, as the list of its entries. A value that is put where
its key is known takes the place of the old one, and any other comes last.
-/
namespace HerdrMobile.Lib.Ordered

set_option autoImplicit false

variable {α κ : Type*} {key : α → κ} {l : List α} {a b : α} {k : κ}

/-- Every key has one entry. -/
def Distinct (key : α → κ) (l : List α) : Prop := (l.map key).Nodup

theorem distinct_filter (h : Distinct key l) (p : α → Bool) : Distinct key (l.filter p) :=
  (List.filter_sublist.map key).nodup h

theorem distinct_cons : Distinct key (a :: l) ↔ (∀ b ∈ l, key b ≠ key a) ∧ Distinct key l := by
  unfold Distinct
  rw [List.map_cons, List.nodup_cons]
  refine and_congr_left fun _ => ⟨fun h b hb heq => h (heq ▸ List.mem_map_of_mem hb), ?_⟩
  intro h hmem
  obtain ⟨b, hb, heq⟩ := List.mem_map.mp hmem
  exact h b hb heq

theorem eq_of_mem (h : Distinct key l) (ha : a ∈ l) (hb : b ∈ l) (heq : key a = key b) : a = b :=
  List.inj_on_of_nodup_map h ha hb heq

variable [DecidableEq κ]

theorem filter_key (h : Distinct key l) (ha : a ∈ l) : (l.filter fun b => key b = key a) = [a] := by
  induction l with
  | nil => cases ha
  | cons c l ih =>
    obtain ⟨hfresh, hrest⟩ := (distinct_cons).mp h
    obtain rfl | ha := List.mem_cons.mp ha
    · have hnone : (l.filter fun b => key b = key a) = [] :=
        List.filter_eq_nil_iff.mpr fun b hb heq => hfresh b hb (of_decide_eq_true heq)
      rw [List.filter_cons_of_pos (by simp), hnone]
    · have hne : ¬key c = key a := fun heq => hfresh a ha heq.symm
      rw [List.filter_cons_of_neg (by simpa using hne), ih hrest ha]

@[grind =]
def put (key : α → κ) (l : List α) (a : α) : List α :=
  match l with
  | [] => [a]
  | b :: l => if key b = key a then a :: l else b :: put key l a

def get (key : α → κ) (l : List α) (k : κ) : Option α := l.find? fun a => key a = k

def remove (key : α → κ) (l : List α) (k : κ) : List α := l.filter fun a => key a ≠ k

/-- The map that the entries of a list make, one after another. -/
def ofList (key : α → κ) (l : List α) : List α := l.foldl (put key) []

theorem mem_of_put (h : b ∈ put key l a) : b = a ∨ b ∈ l := by
  induction l with
  | nil => exact .inl (List.mem_singleton.mp h)
  | cons c l ih =>
    rw [put] at h
    split at h
    · obtain rfl | hb := List.mem_cons.mp h
      · exact .inl rfl
      · exact .inr (List.mem_cons_of_mem _ hb)
    · obtain rfl | hb := List.mem_cons.mp h
      · exact .inr List.mem_cons_self
      · exact (ih hb).imp_right (List.mem_cons_of_mem _)

theorem mem_put_self (key : α → κ) (l : List α) (a : α) : a ∈ put key l a := by
  induction l with
  | nil => exact List.mem_singleton_self a
  | cons c l ih =>
    rw [put]
    split
    · exact List.mem_cons_self
    · exact List.mem_cons_of_mem _ ih

theorem distinct_put (h : Distinct key l) (a : α) : Distinct key (put key l a) := by
  induction l with
  | nil => exact List.nodup_singleton _
  | cons c l ih =>
    obtain ⟨hfresh, hrest⟩ := (distinct_cons).mp h
    rw [put]
    split
    · rename_i heq
      exact (distinct_cons).mpr ⟨fun b hb => heq ▸ hfresh b hb, hrest⟩
    · rename_i hne
      refine (distinct_cons).mpr ⟨fun b hb => ?_, ih hrest⟩
      obtain rfl | hb := mem_of_put hb
      · exact fun heq => hne heq.symm
      · exact hfresh b hb

theorem put_fresh (h : ∀ b ∈ l, key b ≠ key a) : put key l a = l ++ [a] := by
  induction l with
  | nil => rfl
  | cons c l ih =>
    obtain ⟨hc, hrest⟩ := List.forall_mem_cons.mp h
    rw [put, if_neg hc, ih hrest]
    rfl

/-- What is read off the entries stays where a value takes the place of a like one. -/
theorem filterMap_put {β : Type*} (f : α → Option β) (hknown : ∃ b ∈ l, key b = key a)
    (hsame : ∀ b ∈ l, key b = key a → f b = f a) : (put key l a).filterMap f = l.filterMap f := by
  induction l with
  | nil =>
    obtain ⟨b, hb, -⟩ := hknown
    cases hb
  | cons c l ih =>
    obtain ⟨hc, hrest⟩ := List.forall_mem_cons.mp hsame
    rw [put]
    by_cases heq : key c = key a
    · rw [if_pos heq, List.filterMap_cons, List.filterMap_cons, hc heq]
    · rw [if_neg heq, List.filterMap_cons, List.filterMap_cons, ih ?_ hrest]
      obtain ⟨b, hb, hkey⟩ := hknown
      obtain rfl | hb := List.mem_cons.mp hb
      · exact absurd hkey heq
      · exact ⟨b, hb, hkey⟩

theorem distinct_ofList (key : α → κ) (l : List α) : Distinct key (ofList key l) := by
  suffices h : ∀ m : List α, Distinct key m → Distinct key (l.foldl (put key) m) from
    h [] List.nodup_nil
  induction l with
  | nil => exact fun m hm => hm
  | cons a l ih => exact fun m hm => ih _ (distinct_put hm a)

/-- A list of entries is its own map exactly where no key comes twice. -/
theorem ofList_eq_iff (key : α → κ) (l : List α) : ofList key l = l ↔ Distinct key l := by
  refine ⟨fun h => h ▸ distinct_ofList key l, fun h => ?_⟩
  suffices hgrow : ∀ m : List α, Distinct key (m ++ l) → l.foldl (put key) m = m ++ l from
    hgrow [] h
  clear h
  induction l with
  | nil => exact fun m _ => (List.append_nil m).symm
  | cons a l ih =>
    intro m hm
    have hfresh : ∀ b ∈ m, key b ≠ key a := by
      intro b hb heq
      have hnodup := hm
      unfold Distinct at hnodup
      rw [List.map_append] at hnodup
      have hdisjoint := List.disjoint_of_nodup_append hnodup
      exact hdisjoint (List.mem_map_of_mem hb) (heq ▸ List.mem_map_of_mem List.mem_cons_self)
    rw [List.foldl_cons, put_fresh hfresh]
    have hmore : m ++ [a] ++ l = m ++ a :: l := by simp
    rw [ih (m ++ [a]) (hmore ▸ hm), hmore]

theorem get_eq_some_iff (h : Distinct key l) : get key l k = some a ↔ a ∈ l ∧ key a = k := by
  constructor
  · intro hget
    have hkey := List.find?_some hget
    exact ⟨List.mem_of_find?_eq_some hget, of_decide_eq_true hkey⟩
  · rintro ⟨ha, rfl⟩
    unfold get
    cases hfind : l.find? fun b => key b = key a with
    | none => exact absurd (decide_eq_true rfl) (List.find?_eq_none.mp hfind a ha)
    | some b =>
      have hkey := List.find?_some hfind
      exact congrArg some (eq_of_mem h (List.mem_of_find?_eq_some hfind) ha (of_decide_eq_true hkey))

theorem get_isSome_iff : (get key l k).isSome = true ↔ ∃ a ∈ l, key a = k := by
  unfold get
  rw [List.find?_isSome]
  simp

theorem get_put (l : List α) (a : α) (k : κ) :
    get key (put key l a) k = if k = key a then some a else get key l k := by
  induction l with
  | nil =>
    by_cases h : k = key a
    · simp [put, get, h]
    · have hne : ¬key a = k := fun heq => h heq.symm
      simp [put, get, h, hne]
  | cons c l ih =>
    rw [put]
    by_cases hc : key c = key a
    · rw [if_pos hc]
      by_cases h : k = key a
      · simp [get, h]
      · have hne : ¬key a = k := fun heq => h heq.symm
        have hne' : ¬key c = k := hc ▸ hne
        simp [get, h, hne, hne']
    · rw [if_neg hc]
      by_cases hk : key c = k
      · have hne : ¬k = key a := hk ▸ hc
        simp [get, hk, hne]
      · have hskip : ∀ m : List α, get key (c :: m) k = get key m k := by
          intro m
          simp [get, hk]
        rw [hskip, hskip, ih]

theorem get_filter (h : Distinct key l) (p : α → Bool) (k : κ) :
    get key (l.filter p) k = (get key l k).filter p := by
  cases hget : get key (l.filter p) k with
  | some a =>
    obtain ⟨ha, hkey⟩ := (get_eq_some_iff (distinct_filter h p)).mp hget
    obtain ⟨ha, hp⟩ := List.mem_filter.mp ha
    rw [(get_eq_some_iff h).mpr ⟨ha, hkey⟩, Option.filter_some_pos hp]
  | none =>
    cases hold : get key l k with
    | none => rfl
    | some a =>
      obtain ⟨ha, hkey⟩ := (get_eq_some_iff h).mp hold
      by_cases hp : p a = true
      · have hnew := (get_eq_some_iff (distinct_filter h p)).mpr ⟨List.mem_filter.mpr ⟨ha, hp⟩, hkey⟩
        cases hget.symm.trans hnew
      · rw [Option.filter_some_neg (by simpa using hp)]

theorem get_put_eq_update (l : List α) (a : α) :
    get key (put key l a) = Function.update (get key l) (key a) (some a) := by
  funext k
  rw [get_put, Function.update_apply]

theorem get_remove_eq_update (h : Distinct key l) (k : κ) :
    get key (remove key l k) = Function.update (get key l) k none := by
  funext j
  rw [remove, get_filter h, Function.update_apply]
  cases hget : get key l j with
  | none => simp
  | some a =>
    obtain ⟨-, rfl⟩ := (get_eq_some_iff h).mp hget
    by_cases hk : key a = k
    · simp [hk, Option.filter]
    · simp [hk, Option.filter]

/-- The groups of distinct keys, one after another, are the entries that have one of them. -/
theorem flatMap_group_perm {β : Type*} (f : α → κ) (g : α → β) (keys : List κ) (h : keys.Nodup) :
    (keys.flatMap fun k => (l.filter fun a => f a = k).map g).Perm
      ((l.filter fun a => f a ∈ keys).map g) := by
  induction keys with
  | nil => simp
  | cons k keys ih =>
    obtain ⟨hfresh, hrest⟩ := List.nodup_cons.mp h
    rw [List.flatMap_cons]
    refine ((ih hrest).append_left _).trans ?_
    rw [← List.map_append]
    refine List.Perm.map g ?_
    clear ih
    induction l with
    | nil => simp
    | cons a l ih =>
      by_cases ha : f a = k
      · have hnot : f a ∉ keys := ha ▸ hfresh
        simpa [ha, hfresh] using ih.cons a
      · by_cases hmem : f a ∈ keys
        · simp only [List.filter_cons, ha, hmem, List.mem_cons]
          simpa using (List.perm_middle).trans (ih.cons a)
        · simpa [List.filter_cons, ha, hmem] using ih

end HerdrMobile.Lib.Ordered
