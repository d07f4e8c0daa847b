import Mathlib.Algebra.Ring.Nat
import Mathlib.Data.List.Chain
import Mathlib.Data.List.TakeWhile
import Mathlib.Logic.Function.Iterate

/-!
# Cutting a text into clusters

A cluster rule says from the cluster so far whether the next element joins it.
The boundaries of extended graphemes are of this form: whatever a boundary
depends on to its left lies in the cluster it would end. Any prefix of clusters
and any suffix of clusters is cut the same way when it stands alone.
-/
namespace HerdrMobile.Lib.Segment

set_option autoImplicit false

variable {α : Type*} {joins : List α → α → Bool} {g h l cur : List α} {gs : List (List α)} {n : Nat}

/-- The rest of the clusters, with `cur` the cluster that is still open. -/
@[grind =]
def clustersFrom (joins : List α → α → Bool) : List α → List α → List (List α)
  | cur, [] => [cur]
  | cur, c :: rest =>
    if joins cur c then clustersFrom joins (cur ++ [c]) rest
    else cur :: clustersFrom joins [c] rest

@[grind =]
def clusters (joins : List α → α → Bool) : List α → List (List α)
  | [] => []
  | c :: rest => clustersFrom joins [c] rest

@[simp] theorem clusters_nil : clusters joins [] = [] := rfl

/-- Every element after the first joins what stands before it. -/
def Joined (joins : List α → α → Bool) (g : List α) : Prop :=
  g ≠ [] ∧ ∀ pre c post, g = pre ++ c :: post → pre ≠ [] → joins pre c = true

/-- A boundary stands between two clusters. -/
def Apart (joins : List α → α → Bool) (g h : List α) : Prop :=
  ∀ c ∈ h.head?, joins g c = false

/-- Clusters with a boundary between any two neighbours. -/
structure Segmented (joins : List α → α → Bool) (gs : List (List α)) : Prop where
  joined : ∀ g ∈ gs, Joined joins g
  apart : gs.IsChain (Apart joins)

theorem joined_singleton (c : α) : Joined joins [c] := by
  refine ⟨by simp, ?_⟩
  intro pre d post he hp
  cases pre with
  | nil => exact absurd rfl hp
  | cons a pre =>
    have hlen := congrArg List.length he
    simp only [List.length_cons, List.length_append, List.length_nil] at hlen
    omega

theorem joined_snoc {c : α} (hj : Joined joins cur) (hc : joins cur c = true) :
    Joined joins (cur ++ [c]) := by
  refine ⟨by simp, ?_⟩
  intro pre d post he hp
  rcases List.eq_nil_or_concat post with rfl | ⟨post', b, rfl⟩
  · obtain ⟨rfl, hd⟩ := List.append_inj' he rfl
    obtain rfl : c = d := by simpa using hd
    exact hc
  · rw [List.concat_eq_append] at he
    have he' : cur ++ [c] = (pre ++ d :: post') ++ [b] := by simpa using he
    obtain ⟨hcur, -⟩ := List.append_inj' he' rfl
    exact hj.2 pre d post' hcur hp

variable (cur) in
theorem joined_append {g' : List α} (hj : Joined joins (cur ++ g')) (hc : cur ≠ []) (rest : List α) :
    clustersFrom joins cur (g' ++ rest) = clustersFrom joins (cur ++ g') rest := by
  induction g' generalizing cur with
  | nil => simp
  | cons c g' ih =>
    have hjoin : joins cur c = true := hj.2 cur c g' rfl hc
    rw [List.cons_append, clustersFrom, if_pos hjoin]
    have hj' : Joined joins ((cur ++ [c]) ++ g') := by simpa using hj
    rw [ih _ hj' (by simp)]
    simp

variable (joins) in
theorem clustersFrom_head (cur rest : List α) :
    ∃ g gs, clustersFrom joins cur rest = (cur ++ g) :: gs := by
  induction rest generalizing cur with
  | nil => exact ⟨[], [], by simp [clustersFrom]⟩
  | cons c rest ih =>
    by_cases hc : joins cur c = true
    · obtain ⟨g, gs, hg⟩ := ih (cur ++ [c])
      exact ⟨c :: g, gs, by simp [clustersFrom, hc, hg]⟩
    · exact ⟨[], clustersFrom joins [c] rest, by simp [clustersFrom, hc]⟩

theorem segmented_from (hj : Joined joins cur) (rest : List α) :
    Segmented joins (clustersFrom joins cur rest) := by
  induction rest generalizing cur with
  | nil =>
    constructor
    · intro g hg
      obtain rfl : g = cur := by simpa [clustersFrom] using hg
      exact hj
    · exact List.isChain_singleton cur
  | cons c rest ih =>
    by_cases hc : joins cur c = true
    · rw [clustersFrom, if_pos hc]
      exact ih (joined_snoc hj hc)
    · have hs := ih (joined_singleton c)
      obtain ⟨g, gs, hg⟩ := clustersFrom_head joins [c] rest
      rw [clustersFrom, if_neg hc]
      constructor
      · intro h hh
        rcases List.mem_cons.mp hh with rfl | hh
        · exact hj
        · exact hs.joined h hh
      · rw [hg]
        refine List.IsChain.cons_cons ?_ (hg ▸ hs.apart)
        intro d hd
        obtain rfl : c = d := by simpa using hd
        simpa using hc

theorem segmented_clusters (joins : List α → α → Bool) (l : List α) :
    Segmented joins (clusters joins l) := by
  cases l with
  | nil => exact ⟨by simp, List.isChain_nil⟩
  | cons c rest => exact segmented_from (joined_singleton c) rest

/-- A text has one cut: clusters with boundaries between them are the clusters of
their concatenation. -/
theorem clusters_of_segmented (hs : Segmented joins gs) : clusters joins gs.flatten = gs := by
  induction gs with
  | nil => rfl
  | cons g gs ih =>
    have hg : Joined joins g := hs.joined g (by simp)
    have htail : Segmented joins gs := ⟨fun h hh => hs.joined h (by simp [hh]), hs.apart.tail⟩
    obtain ⟨c, g', rfl⟩ := List.exists_cons_of_ne_nil hg.1
    have hstart : clusters joins (((c :: g') :: gs).flatten)
        = clustersFrom joins (c :: g') gs.flatten := by
      change clustersFrom joins [c] (g' ++ gs.flatten) = _
      exact joined_append [c] hg (by simp) gs.flatten
    rw [hstart]
    cases gs with
    | nil => rfl
    | cons h gs =>
      have hh : Joined joins h := hs.joined h (by simp)
      obtain ⟨d, h', rfl⟩ := List.exists_cons_of_ne_nil hh.1
      have hapart : joins (c :: g') d = false := by
        have := hs.apart
        rw [List.isChain_cons_cons] at this
        exact this.1 d (by simp)
      have hrest := ih htail
      rw [List.flatten_cons, List.cons_append, clustersFrom, hapart]
      rw [List.flatten_cons, List.cons_append] at hrest
      simpa [clusters] using hrest

theorem Segmented.take (hs : Segmented joins gs) (n : Nat) : Segmented joins (gs.take n) :=
  ⟨fun g hg => hs.joined g (List.mem_of_mem_take hg), hs.apart.take n⟩

theorem Segmented.drop (hs : Segmented joins gs) (n : Nat) : Segmented joins (gs.drop n) :=
  ⟨fun g hg => hs.joined g (List.mem_of_mem_drop hg), hs.apart.drop n⟩

theorem flatten_clustersFrom (cur rest : List α) :
    (clustersFrom joins cur rest).flatten = cur ++ rest := by
  induction rest generalizing cur with
  | nil => simp [clustersFrom]
  | cons c rest ih =>
    by_cases hc : joins cur c = true
    · simp [clustersFrom, hc, ih]
    · simp [clustersFrom, hc, ih]

@[simp] theorem flatten_clusters (l : List α) : (clusters joins l).flatten = l := by
  cases l with
  | nil => rfl
  | cons c rest => exact flatten_clustersFrom [c] rest

/-- A prefix of clusters, alone, has the same clusters. -/
theorem clusters_take (l : List α) (n : Nat) :
    clusters joins ((clusters joins l).take n).flatten = (clusters joins l).take n :=
  clusters_of_segmented ((segmented_clusters joins l).take n)

/-- The cut restarts at a boundary. -/
theorem clusters_drop (l : List α) (n : Nat) :
    clusters joins ((clusters joins l).drop n).flatten = (clusters joins l).drop n :=
  clusters_of_segmented ((segmented_clusters joins l).drop n)

theorem split_clusters (joins : List α → α → Bool) (l : List α) (n : Nat) :
    l = ((clusters joins l).take n).flatten ++ ((clusters joins l).drop n).flatten := by
  rw [← List.flatten_append, List.take_append_drop, flatten_clusters]

/-- Dropping as many elements as the first clusters have. -/
theorem drop_clusters (joins : List α → α → Bool) (l : List α) (n : Nat) :
    l.drop (((clusters joins l).take n).map List.length).sum
      = ((clusters joins l).drop n).flatten := by
  have hsplit := split_clusters joins l n
  rw [← List.length_flatten]
  exact (congrArg (List.drop _) hsplit).trans List.drop_left

/-- What one Backspace leaves of a text. -/
def eraseLast (joins : List α → α → Bool) (l : List α) : List α :=
  (clusters joins l).dropLast.flatten

theorem eraseLast_iterate (joins : List α → α → Bool) (n : Nat) (l : List α) :
    (eraseLast joins)^[n] l
      = ((clusters joins l).take ((clusters joins l).length - n)).flatten := by
  induction n with
  | zero => simp
  | succ n ih =>
    rw [Function.iterate_succ_apply', ih, eraseLast, clusters_take, List.dropLast_eq_take,
      List.length_take, List.take_take]
    congr 2
    omega

/-- The length of the last `n` of some pieces, as an offset from their end. -/
theorem take_flatten (gs : List (List α)) (n : Nat) :
    gs.flatten.take (gs.flatten.length - ((gs.reverse.take n).map List.length).sum)
      = (gs.take (gs.length - n)).flatten := by
  have hsplit : gs.flatten
      = (gs.take (gs.length - n)).flatten ++ (gs.drop (gs.length - n)).flatten := by
    rw [← List.flatten_append, List.take_append_drop]
  have hrev : gs.reverse.take n = (gs.drop (gs.length - n)).reverse := List.take_reverse
  have hsum : ((gs.reverse.take n).map List.length).sum
      = (gs.drop (gs.length - n)).flatten.length := by
    rw [hrev, List.map_reverse, List.sum_reverse, List.length_flatten]
  rw [hsum]
  conv_lhs => rw [hsplit]
  rw [List.length_append, Nat.add_sub_cancel, List.take_left]

section Common

variable [DecidableEq α]

@[grind =]
def commonPrefix : List (List α) → List (List α) → List (List α)
  | gs, hs => ((gs.zip hs).takeWhile fun p => p.1 == p.2).map Prod.fst

theorem commonPrefix_take (gs hs : List (List α)) :
    commonPrefix gs hs = gs.take (commonPrefix gs hs).length ∧
    commonPrefix gs hs = hs.take (commonPrefix gs hs).length := by
  induction gs generalizing hs with
  | nil => simp [commonPrefix]
  | cons g gs ih =>
    cases hs with
    | nil => simp [commonPrefix]
    | cons h hs =>
      by_cases heq : g = h
      · subst heq
        obtain ⟨hl, hr⟩ := ih hs
        simp only [commonPrefix, List.zip_cons_cons, beq_self_eq_true, List.takeWhile_cons_of_pos,
          List.map_cons, List.length_cons, List.take_succ_cons] at hl hr ⊢
        exact ⟨congrArg (g :: ·) hl, congrArg (g :: ·) hr⟩
      · simp [commonPrefix, heq]

theorem commonPrefix_self (gs : List (List α)) : commonPrefix gs gs = gs := by
  induction gs with
  | nil => rfl
  | cons g gs ih =>
    simp only [commonPrefix, List.zip_cons_cons, beq_self_eq_true, List.takeWhile_cons_of_pos,
      List.map_cons] at ih ⊢
    rw [ih]

end Common

end HerdrMobile.Lib.Segment
