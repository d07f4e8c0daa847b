import Mathlib.Data.List.Basic

/-!
# Lists in parts that end with a delimiter

A list is read piece by piece: through the first delimiter, or as far as a limit goes. The pieces
are the parts of the list as long as the parts are within the limit.
-/
namespace HerdrMobile.Lib.Delimited

set_option autoImplicit false

variable {α : Type*} [DecidableEq α] {d : α} {l part : List α} {limit : Nat}

/-- Through the first delimiter, or all of the list where it has none. -/
@[grind =]
def through (d : α) : List α → List α
  | [] => []
  | x :: l => if x = d then [x] else x :: through d l

/-- The parts that end with the delimiter, when the first of them begins with `part`. -/
@[grind =]
def partsFrom (d : α) : List α → List α → List (List α)
  | _, [] => []
  | part, x :: l =>
    if x = d then (part ++ [x]) :: partsFrom d [] l else partsFrom d (part ++ [x]) l

def parts (d : α) (l : List α) : List (List α) := partsFrom d [] l

/-- The parts before the first one that is over the limit or has no end. -/
def leading (d : α) (limit : Nat) (l : List α) : List (List α) :=
  (parts d l).takeWhile fun part => part.length ≤ limit

/-- What comes after them. -/
def remaining (d : α) (limit : Nat) (l : List α) : List α :=
  l.drop (leading d limit l).flatten.length

def piece (d : α) (limit : Nat) (l : List α) : List α := through d (l.take limit)

@[grind =]
def dropPieces (d : α) (limit : Nat) : Nat → List α → List α
  | 0, l => l
  | n + 1, l => dropPieces d limit n (l.drop (piece d limit l).length)

def pieceAt (d : α) (limit n : Nat) (l : List α) : List α := piece d limit (dropPieces d limit n l)

theorem through_append (a b : List α) :
    through d (a ++ b) = if d ∈ a then through d a else a ++ through d b := by
  induction a with
  | nil => rfl
  | cons x a ih =>
    rw [List.cons_append, through, through]
    by_cases hx : x = d
    · simp [hx]
    · rw [if_neg hx, if_neg hx, ih]
      by_cases ha : d ∈ a
      · rw [if_pos ha, if_pos (List.mem_cons_of_mem x ha)]
      · rw [if_neg ha, if_neg (by simp [ha, Ne.symm hx]), List.cons_append]

theorem through_of_notMem (h : d ∉ l) : through d l = l := by
  have happend := through_append (d := d) l []
  rwa [List.append_nil, if_neg h, through, List.append_nil] at happend

theorem length_through_le (d : α) (l : List α) : (through d l).length ≤ l.length := by
  induction l with
  | nil => exact Nat.le_refl 0
  | cons x l ih =>
    rw [through]
    split
    · exact Nat.succ_le_succ (Nat.zero_le _)
    · exact Nat.succ_le_succ ih

theorem take_through (d : α) (l : List α) : l.take (through d l).length = through d l := by
  induction l with
  | nil => rfl
  | cons x l ih =>
    rw [through]
    split
    · rfl
    · rw [List.length_cons, List.take_succ_cons, ih]

theorem mem_through : d ∈ through d l ↔ d ∈ l := by
  induction l with
  | nil => rfl
  | cons x l ih =>
    rw [through]
    by_cases hx : x = d
    · simp [hx]
    · rw [if_neg hx, List.mem_cons, List.mem_cons, ih]

/-- A piece is a part that is within the limit, or as much as the limit allows. -/
theorem piece_eq (d : α) (limit : Nat) (l : List α) : piece d limit l =
    if d ∈ l ∧ (through d l).length ≤ limit then through d l else l.take limit := by
  have hsplit := through_append (d := d) (l.take limit) (l.drop limit)
  rw [List.take_append_drop] at hsplit
  by_cases hmem : d ∈ l.take limit
  · rw [if_pos hmem] at hsplit
    have hlen : (through d l).length ≤ limit := by
      rw [hsplit]
      exact Nat.le_trans (length_through_le d _) (List.length_take_le limit l)
    rw [if_pos ⟨List.mem_of_mem_take hmem, hlen⟩, piece, hsplit]
  · rw [piece, through_of_notMem hmem, if_neg]
    rintro ⟨hl, hlen⟩
    refine hmem ((List.take_prefix_take_left hlen).subset ?_)
    rw [take_through]
    exact (mem_through).mpr hl

theorem partsFrom_eq (part l : List α) : partsFrom d part l =
    if d ∈ l then (part ++ through d l) :: parts d (l.drop (through d l).length) else [] := by
  induction l generalizing part with
  | nil => rfl
  | cons x l ih =>
    rw [partsFrom, through]
    by_cases hx : x = d
    · rw [if_pos hx, if_pos hx, if_pos (hx ▸ List.mem_cons_self)]
      rfl
    · rw [if_neg hx, if_neg hx, ih, List.append_assoc]
      by_cases hl : d ∈ l
      · rw [if_pos hl, if_pos (List.mem_cons_of_mem x hl)]
        rfl
      · rw [if_neg hl, if_neg (by simp [hl, Ne.symm hx])]

theorem parts_eq (d : α) (l : List α) : parts d l =
    if d ∈ l then through d l :: parts d (l.drop (through d l).length) else [] :=
  partsFrom_eq [] l

theorem partsFrom_ne_nil {first l : List α} (h : part ∈ partsFrom d first l) : part ≠ [] := by
  induction l generalizing first with
  | nil => cases h
  | cons x l ih =>
    rw [partsFrom] at h
    split at h
    · obtain rfl | h := List.mem_cons.mp h
      · exact List.append_ne_nil_of_right_ne_nil _ (List.cons_ne_nil x [])
      · exact ih h
    · exact ih h

theorem leading_ne_nil (h : part ∈ leading d limit l) : part ≠ [] :=
  partsFrom_ne_nil ((List.takeWhile_prefix _).subset h)

theorem leading_cons {lines : List (List α)} (h : leading d limit l = part :: lines) :
    piece d limit l = part ∧ leading d limit (l.drop part.length) = lines := by
  rw [leading, parts_eq] at h
  by_cases hmem : d ∈ l
  · rw [if_pos hmem, List.takeWhile_cons] at h
    by_cases hlen : (through d l).length ≤ limit
    · rw [if_pos (decide_eq_true hlen)] at h
      obtain ⟨rfl, hlines⟩ := List.cons.inj h
      exact ⟨by rw [piece_eq, if_pos ⟨hmem, hlen⟩], hlines⟩
    · rw [if_neg (by simpa using hlen)] at h
      cases h
  · rw [if_neg hmem] at h
    cases h

/-- Up to the first part that is over the limit, the pieces are the parts. -/
theorem pieceAt_leading {n : Nat} (h : (leading d limit l)[n]? = some part) :
    pieceAt d limit n l = part := by
  induction n generalizing l with
  | zero =>
    rw [← List.head?_eq_getElem?] at h
    obtain ⟨lines, hlines⟩ := List.head?_eq_some_iff.mp h
    exact (leading_cons hlines).1
  | succ n ih =>
    cases hlines : leading d limit l with
    | nil =>
      rw [hlines] at h
      cases h
    | cons first lines =>
      obtain ⟨hpiece, hrest⟩ := leading_cons hlines
      rw [hlines, List.getElem?_cons_succ, ← hrest] at h
      rw [pieceAt, dropPieces, hpiece]
      exact ih h

theorem dropPieces_leading (d : α) (limit : Nat) (l : List α) :
    dropPieces d limit (leading d limit l).length l = remaining d limit l := by
  rw [remaining]
  generalize hlines : leading d limit l = lines
  induction lines generalizing l with
  | nil => rfl
  | cons first lines ih =>
    obtain ⟨hpiece, hrest⟩ := leading_cons hlines
    rw [List.length_cons, dropPieces, hpiece, ih _ hrest, List.flatten_cons, List.length_append,
      List.drop_drop]

theorem dropPieces_add (m n : Nat) (l : List α) :
    dropPieces d limit (m + n) l = dropPieces d limit n (dropPieces d limit m l) := by
  induction m generalizing l with
  | zero => rw [Nat.zero_add, dropPieces]
  | succ m ih => rw [Nat.add_right_comm, dropPieces, ih, dropPieces]

/-- After the parts come the pieces of what remains. -/
theorem pieceAt_remaining (n : Nat) :
    pieceAt d limit ((leading d limit l).length + n) l =
      pieceAt d limit n (remaining d limit l) := by
  rw [pieceAt, dropPieces_add, dropPieces_leading, pieceAt]

end HerdrMobile.Lib.Delimited
