import Mathlib.Data.List.Basic

/-!
# Cutting a list into chunks

`chunks n l` is `l` cut into pieces of `n` elements, the last one possibly
shorter. A list is the concatenation of its chunks, and nothing but the last
chunk is short.
-/
namespace HerdrMobile.Lib.Chunks

set_option autoImplicit false

variable {α : Type*} {n : Nat} {l : List α}

/-- The recursion is on a bound for the number of chunks. -/
@[grind =]
def chunksWithin (n : Nat) : Nat → List α → List (List α)
  | 0, _ => []
  | bound + 1, l => if l.isEmpty then [] else l.take n :: chunksWithin n bound (l.drop n)

def chunks (n : Nat) (l : List α) : List (List α) := chunksWithin n l.length l

theorem chunksWithin_bound (hn : 0 < n) {a b : Nat} (ha : l.length ≤ a) (hb : l.length ≤ b) :
    chunksWithin n a l = chunksWithin n b l := by
  induction a generalizing b l with
  | zero =>
    have hl : l = [] := List.eq_nil_of_length_eq_zero (by omega)
    subst hl
    cases b with
    | zero => rfl
    | succ b => rfl
  | succ a ih =>
    cases b with
    | zero =>
      have hl : l = [] := List.eq_nil_of_length_eq_zero (by omega)
      subst hl
      rfl
    | succ b =>
      simp only [chunksWithin]
      by_cases he : l.isEmpty = true
      · rw [if_pos he, if_pos he]
      · have hpos : 0 < l.length := List.length_pos_iff.mpr (by simpa using he)
        rw [if_neg he, if_neg he]
        congr 1
        apply ih
        · rw [List.length_drop]
          omega
        · rw [List.length_drop]
          omega

@[simp] theorem chunks_nil (n : Nat) : chunks n ([] : List α) = [] := rfl

theorem chunks_cons (hn : 0 < n) (hl : l ≠ []) :
    chunks n l = l.take n :: chunks n (l.drop n) := by
  have hpos : 0 < l.length := List.length_pos_iff.mpr hl
  obtain ⟨k, hk⟩ : ∃ k, l.length = k + 1 := ⟨l.length - 1, by omega⟩
  have he : l.isEmpty = false := by simpa using hl
  unfold chunks
  rw [hk, chunksWithin, he]
  simp only [Bool.false_eq_true, if_false]
  congr 1
  apply chunksWithin_bound hn
  · rw [List.length_drop]
    omega
  · exact Nat.le_refl _

/-- Induction along the chunks of a list. -/
theorem chunks_induction {P : List α → Prop} (hn : 0 < n) (hnil : P [])
    (hstep : ∀ l, l ≠ [] → P (l.drop n) → P l) (l : List α) : P l := by
  by_cases hl : l = []
  · exact hl ▸ hnil
  · have hpos : 0 < l.length := List.length_pos_iff.mpr hl
    have hlt : (l.drop n).length < l.length := by
      rw [List.length_drop]
      omega
    exact hstep l hl (chunks_induction hn hnil hstep (l.drop n))
termination_by l.length

theorem chunks_flatten (hn : 0 < n) (l : List α) : (chunks n l).flatten = l := by
  induction l using chunks_induction hn with
  | hnil => rfl
  | hstep l hl ih => rw [chunks_cons hn hl, List.flatten_cons, ih, List.take_append_drop]

theorem mem_chunks (hn : 0 < n) (l : List α) : ∀ c ∈ chunks n l, c ≠ [] ∧ c.length ≤ n := by
  induction l using chunks_induction hn with
  | hnil =>
    intro c hc
    cases hc
  | hstep l hl ih =>
    intro c hc
    rw [chunks_cons hn hl] at hc
    rcases List.mem_cons.mp hc with rfl | hc
    · have hpos : 0 < l.length := List.length_pos_iff.mpr hl
      constructor
      · intro h
        have hz : (l.take n).length = 0 := by rw [h]; rfl
        rw [List.length_take] at hz
        omega
      · rw [List.length_take]
        omega
    · exact ih c hc

theorem length_chunks (hn : 0 < n) (l : List α) : (chunks n l).length = (l.length + n - 1) / n := by
  induction l using chunks_induction hn with
  | hnil =>
    have h : (0 + n - 1) / n = 0 := Nat.div_eq_of_lt (by omega)
    simpa using h.symm
  | hstep l hl ih =>
    have hpos : 0 < l.length := List.length_pos_iff.mpr hl
    rw [chunks_cons hn hl, List.length_cons, ih, List.length_drop]
    by_cases hle : l.length ≤ n
    · have hz : l.length - n + n - 1 = n - 1 := by omega
      have hone : l.length + n - 1 = (l.length - 1) + n := by omega
      rw [hz, hone, Nat.add_div_right _ hn, Nat.div_eq_of_lt (by omega : n - 1 < n),
        Nat.div_eq_of_lt (by omega : l.length - 1 < n)]
    · have hsum : l.length + n - 1 = (l.length - n + n - 1) + n := by omega
      rw [hsum, Nat.add_div_right _ hn]

end HerdrMobile.Lib.Chunks
