import Mathlib.Tactic

namespace Sheprd.Lib.Common

variable {α : Type} [DecidableEq α]

def longest : List α → List α → ℕ
  | [], _ => 0
  | _ :: _, [] => 0
  | x :: xs, y :: ys =>
      if x = y then longest xs ys + 1 else max (longest xs (y :: ys)) (longest (x :: xs) ys)
termination_by xs ys => xs.length + ys.length

def marks : List α → List α → List Bool × List Bool
  | [], ys => ([], ys.map fun _ => false)
  | x :: xs, [] => ((x :: xs).map fun _ => false, [])
  | x :: xs, y :: ys =>
      if x = y then (true :: (marks xs ys).1, true :: (marks xs ys).2)
      else if longest (x :: xs) ys ≤ longest xs (y :: ys) then
        (false :: (marks xs (y :: ys)).1, (marks xs (y :: ys)).2)
      else ((marks (x :: xs) ys).1, false :: (marks (x :: xs) ys).2)
termination_by xs ys => xs.length + ys.length

omit [DecidableEq α] in
def kept : List α → List Bool → List α
  | x :: xs, true :: marks => x :: kept xs marks
  | _ :: xs, false :: marks => kept xs marks
  | _, _ => []

@[simp]
lemma longest_nil_left (ys : List α) : longest [] ys = 0 := by rw [longest]

@[simp]
lemma longest_nil_right (xs : List α) : longest xs [] = 0 := by cases xs <;> simp [longest]

lemma longest_le (xs ys : List α) : longest xs ys ≤ xs.length := by
  induction xs, ys using longest.induct with
  | case1 ys => simp
  | case2 x xs => simp
  | case3 xs y ys ih =>
    rw [longest, if_pos rfl]
    exact Nat.succ_le_succ ih
  | case4 x xs y ys hne ihleft ihright =>
    rw [longest, if_neg hne]
    exact max_le (ihleft.trans (Nat.le_succ _)) ihright

omit [DecidableEq α] in
lemma kept_none (xs : List α) : kept xs (xs.map fun _ => false) = [] := by
  induction xs with
  | nil => rfl
  | cons x xs ih => exact ih

lemma length_marks (xs ys : List α) :
    (marks xs ys).1.length = xs.length ∧ (marks xs ys).2.length = ys.length := by
  induction xs, ys using marks.induct with
  | case1 ys => simp [marks]
  | case2 x xs => simp [marks]
  | case3 xs y ys ih =>
    rw [marks, if_pos rfl]
    simp [ih]
  | case4 x xs y ys hne hle ih =>
    rw [marks, if_neg hne, if_pos hle]
    simpa using ih
  | case5 x xs y ys hne hle ih =>
    rw [marks, if_neg hne, if_neg hle]
    simpa using ih

lemma kept_marks (xs ys : List α) : kept xs (marks xs ys).1 = kept ys (marks xs ys).2 := by
  induction xs, ys using marks.induct with
  | case1 ys =>
    rw [marks, kept_none]
    rfl
  | case2 x xs =>
    rw [marks, kept_none]
    rfl
  | case3 xs y ys ih =>
    rw [marks, if_pos rfl, kept, kept, ih]
  | case4 x xs y ys hne hle ih =>
    rw [marks, if_neg hne, if_pos hle]
    exact ih
  | case5 x xs y ys hne hle ih =>
    rw [marks, if_neg hne, if_neg hle]
    exact ih

lemma length_kept (xs ys : List α) : (kept xs (marks xs ys).1).length = longest xs ys := by
  induction xs, ys using marks.induct with
  | case1 ys => simp [kept]
  | case2 x xs =>
    rw [marks, kept_none, longest_nil_right]
    rfl
  | case3 xs y ys ih =>
    rw [marks, if_pos rfl, kept, longest, if_pos rfl, List.length_cons, ih]
  | case4 x xs y ys hne hle ih =>
    rw [marks, if_neg hne, if_pos hle, longest, if_neg hne, max_eq_left hle]
    exact ih
  | case5 x xs y ys hne hle ih =>
    rw [marks, if_neg hne, if_neg hle, longest, if_neg hne, max_eq_right (not_le.mp hle).le]
    exact ih

lemma le_longest {common xs ys : List α} (hx : common.Sublist xs) (hy : common.Sublist ys) :
    common.length ≤ longest xs ys := by
  induction xs, ys using longest.induct generalizing common with
  | case1 ys => simp [List.sublist_nil.mp hx]
  | case2 x xs => simp [List.sublist_nil.mp hy]
  | case3 xs y ys ih =>
    rw [longest, if_pos rfl]
    cases common with
    | nil => exact Nat.zero_le _
    | cons c common =>
      have hx' : common.Sublist xs := hx.tail
      have hy' : common.Sublist ys := hy.tail
      exact Nat.succ_le_succ (ih hx' hy')
  | case4 x xs y ys hne ihleft ihright =>
    rw [longest, if_neg hne]
    rcases List.sublist_cons_iff.mp hx with hx' | ⟨rest, rfl, hrest⟩
    · exact (ihleft hx' hy).trans (le_max_left _ _)
    · rcases List.sublist_cons_iff.mp hy with hy' | ⟨rest', heq, -⟩
      · exact (ihright hx hy').trans (le_max_right _ _)
      · exact absurd (List.cons.inj heq).1 hne

end Sheprd.Lib.Common
