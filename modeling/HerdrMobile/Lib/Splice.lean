import Mathlib.Data.List.Infix

/-!
# Splices

How one list becomes another by the replacement of one run: what stays in front of it is the
longest common prefix, and what stays behind it the longest common suffix of the rest.
-/
namespace HerdrMobile.Lib.Splice

set_option autoImplicit false

variable {α : Type*} {a b kept removed run rest : List α}

structure Spliced (a b kept removed run rest : List α) : Prop where
  before : a = kept ++ removed ++ rest
  after : b = kept ++ run ++ rest
  kept_longest : ∀ p, p <+: a → p <+: b → p <+: kept
  rest_longest : ∀ s, s <:+ removed ++ rest → s <:+ run ++ rest → s <:+ rest

/-- Two lists are apart by one splice only. -/
theorem Spliced.unique {kept' removed' run' rest' : List α}
    (h : Spliced a b kept removed run rest) (h' : Spliced a b kept' removed' run' rest') :
    kept' = kept ∧ run' = run ∧ rest' = rest := by
  have hkept : kept' = kept := by
    have hle := h.kept_longest kept'
      (by rw [h'.before, List.append_assoc]; exact List.prefix_append _ _)
      (by rw [h'.after, List.append_assoc]; exact List.prefix_append _ _)
    have hge := h'.kept_longest kept
      (by rw [h.before, List.append_assoc]; exact List.prefix_append _ _)
      (by rw [h.after, List.append_assoc]; exact List.prefix_append _ _)
    exact hle.eq_of_length_le hge.length_le
  subst hkept
  have hremoved : removed' ++ rest' = removed ++ rest := by
    have heq := h'.before.symm.trans h.before
    rw [List.append_assoc, List.append_assoc] at heq
    exact List.append_cancel_left heq
  have hrun : run' ++ rest' = run ++ rest := by
    have heq := h'.after.symm.trans h.after
    rw [List.append_assoc, List.append_assoc] at heq
    exact List.append_cancel_left heq
  have hrest : rest' = rest := by
    have hle := h.rest_longest rest' (hremoved ▸ List.suffix_append _ _)
      (hrun ▸ List.suffix_append _ _)
    have hge := h'.rest_longest rest (hremoved ▸ List.suffix_append _ _)
      (hrun ▸ List.suffix_append _ _)
    exact hle.eq_of_length_le hge.length_le
  subst hrest
  exact ⟨rfl, List.append_cancel_right hrun, rfl⟩

theorem cut_twice {front back : Nat} (h : front + back ≤ a.length) :
    a = a.take front ++ (a.drop front).take (a.length - back - front) ++
      a.drop (a.length - back) := by
  have hback : a.drop (a.length - back) = (a.drop front).drop (a.length - back - front) := by
    rw [List.drop_drop]
    congr 1
    omega
  rw [hback, List.append_assoc, List.take_append_drop, List.take_append_drop]

variable [DecidableEq α] {limit : Nat}

/-- How far two lists agree, up to a limit. -/
def agreeing : Nat → List α → List α → Nat
  | limit + 1, x :: a, y :: b => if x = y then agreeing limit a b + 1 else 0
  | _, _, _ => 0

theorem agreeing_le : agreeing limit a b ≤ limit := by
  fun_induction agreeing limit a b with
  | case1 limit a y b ih => exact Nat.succ_le_succ ih
  | case2 => exact Nat.zero_le _
  | case3 => exact Nat.zero_le _

theorem take_agreeing : a.take (agreeing limit a b) = b.take (agreeing limit a b) := by
  fun_induction agreeing limit a b with
  | case1 limit a y b ih => rw [List.take_succ_cons, List.take_succ_cons, ih]
  | case2 => rfl
  | case3 => rfl

theorem prefix_take_agreeing {p : List α} (ha : p <+: a) (hb : p <+: b)
    (hlimit : p.length ≤ limit) : p <+: a.take (agreeing limit a b) := by
  fun_induction agreeing limit a b generalizing p with
  | case1 limit a y b ih =>
    cases p with
    | nil => exact List.nil_prefix
    | cons x p =>
      obtain ⟨hx, hpa⟩ := List.cons_prefix_cons.mp ha
      obtain ⟨-, hpb⟩ := List.cons_prefix_cons.mp hb
      rw [List.take_succ_cons]
      exact List.cons_prefix_cons.mpr ⟨hx, ih hpa hpb (Nat.le_of_succ_le_succ hlimit)⟩
  | case2 limit x a y b hne =>
    cases p with
    | nil => exact List.nil_prefix
    | cons z p =>
      exact absurd ((List.cons_prefix_cons.mp ha).1.symm.trans (List.cons_prefix_cons.mp hb).1) hne
  | case3 limit a b hshort =>
    cases p with
    | nil => exact List.nil_prefix
    | cons z p =>
      obtain ⟨ta, rfl⟩ := ha
      obtain ⟨tb, rfl⟩ := hb
      obtain ⟨n, rfl⟩ := Nat.exists_eq_add_one_of_ne_zero (Nat.ne_of_gt (Nat.lt_of_lt_of_le
        (Nat.succ_pos _) hlimit))
      exact absurd rfl (hshort _ _ _ _ _ rfl rfl)

/-- The count from the front and then, in what is left, from the back finds the splice. -/
theorem splice_agreeing {front back : Nat}
    (hfront : front = agreeing (min a.length b.length) a b)
    (hback : back = agreeing (min a.length b.length - front) a.reverse b.reverse) :
    Spliced a b (b.take front) ((a.drop front).take (a.length - back - front))
      ((b.drop front).take (b.length - back - front)) (b.drop (b.length - back)) := by
  have hle : front ≤ min a.length b.length := hfront ▸ agreeing_le
  have hroom : back ≤ min a.length b.length - front := hback ▸ agreeing_le
  have hkept : a.take front = b.take front := hfront ▸ take_agreeing
  have hrest : a.drop (a.length - back) = b.drop (b.length - back) := by
    have hsame : a.reverse.take back = b.reverse.take back := hback ▸ take_agreeing
    rw [List.take_reverse, List.take_reverse] at hsame
    exact List.reverse_injective hsame
  have ha : a = b.take front ++ (a.drop front).take (a.length - back - front) ++
      b.drop (b.length - back) := by
    rw [← hkept, ← hrest]
    exact cut_twice (by omega)
  have hb : b = b.take front ++ (b.drop front).take (b.length - back - front) ++
      b.drop (b.length - back) := cut_twice (by omega)
  refine ⟨ha, hb, ?_, ?_⟩
  · intro p hpa hpb
    have hlen : p.length ≤ min a.length b.length := le_min hpa.length_le hpb.length_le
    exact hkept ▸ hfront ▸ prefix_take_agreeing hpa hpb hlen
  · intro s hsa hsb
    rw [List.append_assoc] at ha hb
    have hlena : s.length + front ≤ a.length := by
      have hlen := hsa.length_le
      have htotal := congrArg List.length ha
      rw [List.length_append, List.length_take] at htotal
      omega
    have hlenb : s.length + front ≤ b.length := by
      have hlen := hsb.length_le
      have htotal := congrArg List.length hb
      rw [List.length_append, List.length_take] at htotal
      omega
    have hsa : s.reverse <+: a.reverse :=
      List.reverse_prefix.mpr (ha ▸ hsa.trans (List.suffix_append _ _))
    have hsb : s.reverse <+: b.reverse :=
      List.reverse_prefix.mpr (hb ▸ hsb.trans (List.suffix_append _ _))
    have hlen : s.reverse.length ≤ min a.length b.length - front := by
      rw [List.length_reverse]
      omega
    have hin := prefix_take_agreeing hsa hsb hlen
    rw [← hback, List.take_reverse, List.reverse_prefix, hrest] at hin
    exact hin

end HerdrMobile.Lib.Splice
