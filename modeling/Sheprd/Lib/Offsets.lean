import Mathlib.Tactic

namespace Sheprd.Lib.Offsets

variable {α : Type} {w : α → ℕ} {xs front middle back : List α} {n m : ℕ}

def measure (w : α → ℕ) (xs : List α) : ℕ := (xs.map w).sum

@[simp] lemma measure_nil : measure w [] = 0 := rfl

@[simp] lemma measure_cons (x : α) : measure w (x :: xs) = w x + measure w xs := List.sum_cons

@[simp] lemma measure_append : measure w (front ++ back) = measure w front + measure w back := by
  simp [measure]

def cut (w : α → ℕ) : List α → ℕ → Option (List α × List α)
  | xs, 0 => some ([], xs)
  | [], _ + 1 => none
  | x :: xs, n + 1 =>
    if w x ≤ n + 1 then (cut w xs (n + 1 - w x)).map fun (front, back) => (x :: front, back)
    else none

def slice (w : α → ℕ) (xs : List α) (start stop : ℕ) : Option (List α × List α × List α) := do
  if stop < start then none
  else
    let (front, rest) ← cut w xs start
    let (middle, back) ← cut w rest (stop - start)
    return (front, middle, back)

def Boundary (w : α → ℕ) (xs : List α) (n : ℕ) : Prop :=
  ∃ front back, xs = front ++ back ∧ measure w front = n

lemma of_cut (h : cut w xs n = some (front, back)) : xs = front ++ back ∧ measure w front = n := by
  induction xs generalizing n front with
  | nil =>
    cases n with
    | zero =>
      cases h
      exact ⟨rfl, rfl⟩
    | succ n => cases h
  | cons x xs ih =>
    cases n with
    | zero =>
      cases h
      exact ⟨rfl, rfl⟩
    | succ n =>
      rw [cut] at h
      split at h
      · rename_i hle
        obtain ⟨⟨front', back'⟩, hcut, hpair⟩ := Option.map_eq_some_iff.mp h
        obtain ⟨rfl, rfl⟩ := Prod.mk.inj hpair
        obtain ⟨rfl, hmeasure⟩ := ih hcut
        refine ⟨rfl, ?_⟩
        rw [measure_cons, hmeasure]
        omega
      · cases h

lemma of_slice {start stop : ℕ} (h : slice w xs start stop = some (front, middle, back)) :
    xs = front ++ middle ++ back ∧ measure w front = start ∧ measure w (front ++ middle) = stop := by
  rw [slice] at h
  split at h
  · cases h
  · simp only [Option.bind_eq_bind, Option.bind_eq_some_iff] at h
    obtain ⟨⟨front', rest⟩, hfront, ⟨middle', back'⟩, hmiddle, hparts⟩ := h
    obtain ⟨rfl, hstart⟩ := of_cut hfront
    cases hparts
    obtain ⟨hrest, hstop⟩ := of_cut hmiddle
    refine ⟨by rw [List.append_assoc, ← hrest], hstart, ?_⟩
    change measure w (front' ++ middle') = stop
    rw [measure_append]
    omega

section Positive

variable (hw : ∀ x, 0 < w x)
include hw

lemma cut_append (front back : List α) :
    cut w (front ++ back) (measure w front) = some (front, back) := by
  induction front with
  | nil => cases back <;> rfl
  | cons x front ih =>
    have hx := hw x
    obtain ⟨n, hn⟩ : ∃ n, measure w (x :: front) = n + 1 :=
      Nat.exists_eq_add_one_of_ne_zero (by rw [measure_cons]; omega)
    have hrest : n + 1 - w x = measure w front := by
      rw [← hn, measure_cons]
      omega
    rw [measure_cons] at hn
    rw [measure_cons, hn, List.cons_append, cut, if_pos (by omega), hrest, ih]
    rfl

lemma boundary_split (hn : Boundary w xs n) (hm : Boundary w xs m) (h : n ≤ m) :
    ∃ front middle back, xs = front ++ middle ++ back ∧ measure w front = n ∧
      measure w (front ++ middle) = m := by
  obtain ⟨front, rest, rfl, rfl⟩ := hn
  obtain ⟨front', back, heq, rfl⟩ := hm
  rcases List.append_eq_append_iff.mp heq with ⟨middle, rfl, rfl⟩ | ⟨middle, rfl, rfl⟩
  · exact ⟨front, middle, back, by simp, rfl, rfl⟩
  · cases middle with
    | nil => exact ⟨front', [], rest, by simp, by simp, by simp⟩
    | cons x middle =>
      have hx := hw x
      rw [measure_append, measure_cons] at h
      omega

lemma slice_append (front middle back : List α) :
    slice w (front ++ middle ++ back) (measure w front) (measure w (front ++ middle)) =
      some (front, middle, back) := by
  have hmiddle : measure w (front ++ middle) - measure w front = measure w middle := by simp
  have hle : measure w front ≤ measure w (front ++ middle) := by simp
  rw [slice, if_neg (by omega), List.append_assoc, cut_append hw, hmiddle, Option.bind_eq_bind,
    Option.bind_some]
  simp only [cut_append hw, Option.bind_some]
  rfl

lemma slice_isSome (hn : Boundary w xs n) (hm : Boundary w xs m) (h : n ≤ m) :
    ∃ front middle back, slice w xs n m = some (front, middle, back) := by
  obtain ⟨front, middle, back, rfl, rfl, rfl⟩ := boundary_split hw hn hm h
  exact ⟨front, middle, back, slice_append hw front middle back⟩

end Positive

end Sheprd.Lib.Offsets
