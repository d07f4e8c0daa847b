import Mathlib.Data.List.Count
import Mathlib.Data.List.Pairwise
import Mathlib.Data.List.TakeWhile

/-!
# Sliding windows

How many of a list of times lie within one window, wherever it starts, and a limiter that
remembers the times it has let through until a window has passed.
-/
namespace HerdrMobile.Lib.Window

set_option autoImplicit false

variable {w max last now t u : Nat} {times xs ys passed kept : List Nat}

/-- How many of the times lie in the half-open window of length `w` that starts at `t`. -/
def inWindow (w t : Nat) (times : List Nat) : Nat :=
  times.countP fun u => decide (t ≤ u ∧ u < t + w)

/-- How many of the times are less than `w` before `t`. -/
def recent (w t : Nat) (times : List Nat) : Nat := times.countP fun u => decide (t < u + w)

/-- No window has more than `max` of the times. -/
def Rolling (w max : Nat) (times : List Nat) : Prop := ∀ t, inWindow w t times ≤ max

/-- From one time to the one `max` places after it a window passes. -/
def Spaced (w max : Nat) (times : List Nat) : Prop :=
  ∀ i, ∀ u ∈ times[i]?, ∀ v ∈ times[i + max]?, u + w ≤ v

theorem inWindow_append : inWindow w t (xs ++ ys) = inWindow w t xs + inWindow w t ys :=
  List.countP_append

theorem inWindow_le_length : inWindow w t times ≤ times.length := List.countP_le_length

theorem inWindow_eq_zero (h : ∀ u ∈ times, t ≤ u → t + w ≤ u) : inWindow w t times = 0 := by
  rw [inWindow, List.countP_eq_zero]
  intro u hu
  rw [decide_eq_true_eq]
  rintro ⟨hle, hlt⟩
  exact Nat.not_lt.mpr (h u hu hle) hlt

theorem inWindow_of_notMem (hu : t ≤ u → t + w ≤ u) :
    inWindow w t (u :: times) = inWindow w t times := by
  rw [inWindow, List.countP_cons_of_neg]
  · rfl
  · rw [decide_eq_true_eq]
    rintro ⟨hle, hlt⟩
    exact Nat.not_lt.mpr (hu hle) hlt

theorem Rolling.sublist (h : Rolling w max ys) (hs : xs.Sublist ys) : Rolling w max xs :=
  fun t => Nat.le_trans hs.countP_le (h t)

theorem Spaced.tail (h : Spaced w max (u :: times)) : Spaced w max times := by
  intro i v hv x hx
  apply h (i + 1) v hv x
  rw [Nat.add_right_comm]
  exact hx

/-- What lies in a window is the first `max` of the times from there on. -/
theorem inWindow_le_of_first (hsorted : (u :: times).Pairwise (· ≤ ·))
    (h : Spaced w max (u :: times)) (hu : t ≤ u) : inWindow w t (u :: times) ≤ max := by
  rw [← List.take_append_drop max (u :: times), inWindow_append]
  have hlate : inWindow w t ((u :: times).drop max) = 0 := by
    apply inWindow_eq_zero
    intro v hv _
    cases hd : (u :: times).drop max with
    | nil => simp [hd] at hv
    | cons x rest =>
      have hx : x ∈ (u :: times)[0 + max]? := by
        rw [Nat.zero_add, ← List.head?_drop, hd]
        rfl
      have hux : u + w ≤ x := h 0 u rfl x hx
      have hxv : x ≤ v := by
        have hs := hsorted.sublist (List.drop_sublist max (u :: times))
        rw [hd] at hs hv
        obtain rfl | hv := List.mem_cons.mp hv
        · exact Nat.le_refl v
        · exact List.rel_of_pairwise_cons hs hv
      omega
  rw [hlate, Nat.add_zero]
  exact Nat.le_trans inWindow_le_length (List.length_take_le ..)

theorem rolling_of_spaced (hsorted : times.Pairwise (· ≤ ·)) (h : Spaced w max times) :
    Rolling w max times := by
  intro t
  induction times with
  | nil => exact Nat.zero_le max
  | cons u rest ih =>
    by_cases hu : t ≤ u
    · exact inWindow_le_of_first hsorted h hu
    · rw [inWindow_of_notMem fun hle => absurd hle hu]
      exact ih hsorted.of_cons h.tail

/-- Times that are close together are in the window of the first one. -/
theorem lt_inWindow_of_close (hsorted : (u :: times).Pairwise (· ≤ ·)) {v : Nat}
    (hv : v ∈ (u :: times)[max]?) (hlt : v < u + w) : max < inWindow w u (u :: times) := by
  obtain ⟨hlength, hat⟩ := List.getElem?_eq_some_iff.mp hv
  have hall : ∀ x ∈ (u :: times).take (max + 1), decide (u ≤ x ∧ x < u + w) = true := by
    intro x hx
    obtain ⟨j, hj, rfl⟩ := List.getElem_of_mem hx
    rw [List.length_take] at hj
    rw [List.getElem_take, decide_eq_true_eq]
    have hfirst : u ≤ (u :: times)[j] := by
      cases j with
      | zero => exact Nat.le_refl u
      | succ j => exact List.rel_of_pairwise_cons hsorted (List.getElem_mem _)
    have hlast : (u :: times)[j] ≤ v := by
      rw [← hat]
      obtain hbefore | rfl := Nat.lt_or_eq_of_le (show j ≤ max by omega)
      · exact List.pairwise_iff_getElem.mp hsorted _ _ _ _ hbefore
      · exact Nat.le_refl _
    exact ⟨hfirst, Nat.lt_of_le_of_lt hlast hlt⟩
  have hcount : inWindow w u ((u :: times).take (max + 1)) = max + 1 := by
    rw [inWindow, List.countP_eq_length.mpr hall, List.length_take]
    exact Nat.min_eq_left hlength
  rw [← List.take_append_drop (max + 1) (u :: times), inWindow_append, hcount]
  omega

theorem spaced_of_rolling (hsorted : times.Pairwise (· ≤ ·)) (h : Rolling w max times) :
    Spaced w max times := by
  induction times with
  | nil => nofun
  | cons x rest ih =>
    intro i u hu v hv
    cases i with
    | zero =>
      obtain rfl : x = u := Option.some.inj hu
      rw [Nat.zero_add] at hv
      by_contra hclose
      exact Nat.not_lt.mpr (h x) (lt_inWindow_of_close hsorted hv (Nat.not_le.mp hclose))
    | succ i =>
      rw [Nat.add_right_comm] at hv
      exact ih hsorted.of_cons (h.sublist (List.sublist_cons_self x rest)) i u hu v hv

theorem rolling_iff_spaced (hsorted : times.Pairwise (· ≤ ·)) :
    Rolling w max times ↔ Spaced w max times :=
  ⟨spaced_of_rolling hsorted, rolling_of_spaced hsorted⟩

/-- Only neighbouring pieces share a window: after each piece there is a time from which on all
but the next piece is a window away. -/
def Cut (w : Nat) : List (List Nat) → Prop
  | a :: b :: rest => (∃ s, (∀ x ∈ a, x ≤ s) ∧ ∀ y ∈ rest.flatten, s + w ≤ y) ∧ Cut w (b :: rest)
  | _ => True

variable {a b : List Nat} {pieces : List (List Nat)}

theorem Cut.map {f : List Nat → List Nat} (hf : ∀ a, f a ⊆ a) (h : Cut w pieces) :
    Cut w (pieces.map f) := by
  induction pieces with
  | nil => trivial
  | cons a pieces ih =>
    cases pieces with
    | nil => trivial
    | cons b rest =>
      obtain ⟨⟨s, ha, hrest⟩, hcut⟩ := h
      refine ⟨⟨s, fun x hx => ha x (hf a hx), fun y hy => ?_⟩, ih hcut⟩
      obtain ⟨c, hc, hy⟩ := List.mem_flatten.mp hy
      obtain ⟨d, hd, rfl⟩ := List.mem_map.mp hc
      exact hrest y (List.mem_flatten.mpr ⟨d, hd, hf d hy⟩)

theorem rolling_of_chain (hcut : Cut w pieces) (hfew : ∀ a ∈ pieces, a.length ≤ max)
    (h : pieces.IsChain fun a b => Rolling w max (a ++ b)) : Rolling w max pieces.flatten := by
  intro t
  induction pieces with
  | nil => exact Nat.zero_le max
  | cons a pieces ih =>
    cases pieces with
    | nil =>
      rw [List.flatten_singleton]
      exact Nat.le_trans inWindow_le_length (hfew a List.mem_cons_self)
    | cons b rest =>
      obtain ⟨⟨s, ha, hrest⟩, hcut⟩ := hcut
      obtain ⟨hab, hchain⟩ := List.isChain_cons_cons.mp h
      by_cases hearly : ∃ x ∈ a, t ≤ x
      · obtain ⟨x, hx, htx⟩ := hearly
        have hzero : inWindow w t rest.flatten = 0 := by
          apply inWindow_eq_zero
          intro y hy _
          have hxs := ha x hx
          have hsy := hrest y hy
          omega
        rw [List.flatten_cons, List.flatten_cons, ← List.append_assoc, inWindow_append, hzero]
        exact hab t
      · have hzero : inWindow w t a = 0 := by
          apply inWindow_eq_zero
          intro x hx htx
          exact absurd ⟨x, hx, htx⟩ hearly
        rw [List.flatten_cons, inWindow_append, hzero, Nat.zero_add]
        exact ih hcut (fun c hc => hfew c (List.mem_cons_of_mem a hc)) hchain

theorem chain_of_rolling (h : Rolling w max pieces.flatten) :
    pieces.IsChain fun a b => Rolling w max (a ++ b) := by
  induction pieces with
  | nil => exact .nil
  | cons a pieces ih =>
    cases pieces with
    | nil => exact .singleton a
    | cons b rest =>
      rw [List.flatten_cons] at h
      refine List.isChain_cons_cons.mpr ⟨?_, ih (h.sublist (List.sublist_append_right ..))⟩
      apply h.sublist
      rw [List.flatten_cons, ← List.append_assoc]
      exact List.sublist_append_left ..

theorem chain_spaced_iff (hsorted : pieces.flatten.Pairwise (· ≤ ·)) :
    (pieces.IsChain fun a b => Rolling w max (a ++ b)) ↔
      pieces.IsChain fun a b => Spaced w max (a ++ b) := by
  induction pieces with
  | nil => exact ⟨fun _ => .nil, fun _ => .nil⟩
  | cons a pieces ih =>
    cases pieces with
    | nil => exact ⟨fun _ => .singleton a, fun _ => .singleton a⟩
    | cons b rest =>
      have hab : (a ++ b).Pairwise (· ≤ ·) := by
        rw [List.flatten_cons, List.flatten_cons, ← List.append_assoc] at hsorted
        exact (List.pairwise_append.mp hsorted).1
      have hrest : (b :: rest).flatten.Pairwise (· ≤ ·) :=
        (List.pairwise_append.mp hsorted).2.1
      rw [List.isChain_cons_cons, List.isChain_cons_cons, rolling_iff_spaced hab, ih hrest]

/-- Pieces of up to `max` times keep the limit when each keeps it with the next one. -/
theorem rolling_flatten_iff (hcut : Cut w pieces) (hfew : ∀ a ∈ pieces, a.length ≤ max)
    (hsorted : pieces.flatten.Pairwise (· ≤ ·)) :
    Rolling w max pieces.flatten ↔ pieces.IsChain fun a b => Spaced w max (a ++ b) := by
  rw [← chain_spaced_iff hsorted]
  exact ⟨chain_of_rolling, rolling_of_chain hcut hfew⟩

/-- The times that are less than a window old, of a list with the oldest first. -/
def prune (w now : Nat) (kept : List Nat) : List Nat := kept.dropWhile fun u => w ≤ now - u

/-- Of the times that were let through up to `last`, the limiter keeps all but some that are a
window old, and no more than `max`. -/
structure Tracks (w max last : Nat) (passed kept : List Nat) : Prop where
  suffix : ∃ old, passed = old ++ kept ∧ ∀ u ∈ old, u + w ≤ last
  latest : ∀ u ∈ passed, u ≤ last
  sorted : passed.Pairwise (· ≤ ·)
  few : kept.length ≤ max
  rolling : Rolling w max passed

theorem tracks_nil : Tracks w max last [] [] where
  suffix := ⟨[], rfl, nofun⟩
  latest := nofun
  sorted := .nil
  few := Nat.zero_le max
  rolling := fun _ => Nat.zero_le max

theorem Tracks.later (h : Tracks w max last passed kept) (hnow : last ≤ now) :
    Tracks w max now passed kept := by
  obtain ⟨old, hpassed, hold⟩ := h.suffix
  refine ⟨⟨old, hpassed, fun u hu => ?_⟩, fun u hu => ?_, h.sorted, h.few, h.rolling⟩
  · exact Nat.le_trans (hold u hu) hnow
  · exact Nat.le_trans (h.latest u hu) hnow

theorem Tracks.prune (h : Tracks w max last passed kept) (hnow : last ≤ now) :
    Tracks w max now passed (prune w now kept) := by
  obtain ⟨old, hpassed, hold⟩ := h.suffix
  refine ⟨⟨old ++ kept.takeWhile fun u => w ≤ now - u, ?_, ?_⟩, ?_, h.sorted, ?_, h.rolling⟩
  · rw [hpassed, List.append_assoc, Window.prune, List.takeWhile_append_dropWhile]
  · intro u hu
    obtain hu | hu := List.mem_append.mp hu
    · exact Nat.le_trans (hold u hu) hnow
    · have hage : w ≤ now - u := by simpa using List.mem_takeWhile_imp hu
      have hlast : u ≤ last := by
        apply h.latest
        rw [hpassed]
        exact List.mem_append_right _ (List.takeWhile_subset _ hu)
      omega
  · exact fun u hu => Nat.le_trans (h.latest u hu) hnow
  · exact Nat.le_trans (List.dropWhile_sublist _).length_le h.few

theorem Tracks.pass (h : Tracks w max now passed kept) (hroom : kept.length < max) :
    Tracks w max now (passed ++ [now]) (kept ++ [now]) := by
  obtain ⟨old, hpassed, hold⟩ := h.suffix
  refine ⟨⟨old, ?_, hold⟩, ?_, ?_, ?_, ?_⟩
  · rw [hpassed, List.append_assoc]
  · intro u hu
    obtain hu | hu := List.mem_append.mp hu
    · exact h.latest u hu
    · exact Nat.le_of_eq (List.mem_singleton.mp hu)
  · refine List.pairwise_append.mpr ⟨h.sorted, List.pairwise_singleton .., fun u hu v hv => ?_⟩
    rw [List.mem_singleton.mp hv]
    exact h.latest u hu
  · rw [List.length_append, List.length_singleton]
    exact hroom
  · intro t
    by_cases ht : now < t + w
    · -- The window reaches up to now, so everything older than the limiter remembers is before it.
      have hzero : inWindow w t old = 0 := by
        apply inWindow_eq_zero
        intro u hu hle
        have hage := hold u hu
        omega
      rw [hpassed, List.append_assoc, inWindow_append, hzero, Nat.zero_add]
      refine Nat.le_trans inWindow_le_length ?_
      rw [List.length_append, List.length_singleton]
      exact hroom
    · have hnow : inWindow w t [now] = 0 := by
        apply inWindow_eq_zero
        intro u hu _
        rw [List.mem_singleton.mp hu]
        exact Nat.not_lt.mp ht
      rw [inWindow_append, hnow]
      exact h.rolling t

theorem prune_eq_self (hw : 0 < w) (h : now < u + w) : prune w now (u :: kept) = u :: kept := by
  rw [prune, List.dropWhile_cons_of_neg]
  rw [decide_eq_true_eq]
  omega

/-- What is left begins with a time that is less than a window old. -/
theorem lt_of_prune {rest : List Nat} (h : prune w now kept = u :: rest) : now < u + w := by
  have hfirst := List.head?_dropWhile_not (fun v => decide (w ≤ now - v)) kept
  rw [← prune, h] at hfirst
  have hage : ¬w ≤ now - u := by simpa using hfirst
  omega

/-- A limiter that is full has room again when the oldest of the times it keeps is a window old. -/
theorem Tracks.frees {rest : List Nat} (h : Tracks w max now passed (u :: rest))
    (hfull : max ≤ (u :: rest).length) (hnow : now ≤ t) :
    max ≤ recent w t passed ↔ t < u + w := by
  obtain ⟨old, hpassed, hold⟩ := h.suffix
  have hsorted := h.sorted
  rw [hpassed] at hsorted
  have hzero : recent w t old = 0 := by
    rw [recent, List.countP_eq_zero]
    intro v hv
    have hage := hold v hv
    rw [decide_eq_true_eq]
    omega
  have hcount : recent w t passed = recent w t (u :: rest) := by
    rw [hpassed, recent, List.countP_append]
    change recent w t old + _ = _
    rw [hzero, Nat.zero_add]
    rfl
  rw [hcount]
  constructor
  · intro hle
    by_contra hgone
    have hfirst : recent w t (u :: rest) = recent w t rest := by
      rw [recent, List.countP_cons_of_neg (by rw [decide_eq_true_eq]; exact hgone)]
      rfl
    have hrest : recent w t rest ≤ rest.length := List.countP_le_length
    have hfew := h.few
    rw [List.length_cons] at hfew
    omega
  · intro hfresh
    have hall : recent w t (u :: rest) = (u :: rest).length := by
      rw [recent, List.countP_eq_length]
      intro v hv
      rw [decide_eq_true_eq]
      obtain rfl | hv := List.mem_cons.mp hv
      · exact hfresh
      · have huv := List.rel_of_pairwise_cons (List.pairwise_append.mp hsorted).2.1 hv
        omega
    rw [hall]
    exact hfull

end HerdrMobile.Lib.Window
