import Mathlib.Tactic

namespace Sheprd.Lib

inductive Thins {α : Type} (P : α → Prop) : List α → List α → Prop
  | nil : Thins P [] []
  | keep (a : α) {l l' : List α} : Thins P l l' → Thins P (a :: l) (a :: l')
  | drop {a : α} {l l' : List α} : P a → Thins P l l' → Thins P (a :: l) l'

namespace Thins

variable {α : Type} {P Q : α → Prop} {l l' l'' m m' : List α}

lemma refl (l : List α) : Thins P l l := by
  induction l with
  | nil => exact nil
  | cons a l ih => exact keep a ih

lemma of_eq (h : l = l') : Thins P l l' := h ▸ refl l

lemma mono (h : Thins P l l') (hPQ : ∀ a, P a → Q a) : Thins Q l l' := by
  induction h with
  | nil => exact nil
  | keep a _ ih => exact keep a ih
  | drop ha _ ih => exact drop (hPQ _ ha) ih

lemma append (h : Thins P l l') (h' : Thins P m m') : Thins P (l ++ m) (l' ++ m') := by
  induction h with
  | nil => exact h'
  | keep a _ ih => exact keep a ih
  | drop ha _ ih => exact drop ha ih

lemma trans (h : Thins P l l') (h' : Thins P l' l'') : Thins P l l'' := by
  induction h generalizing l'' with
  | nil => exact h'
  | drop ha _ ih => exact drop ha (ih h')
  | keep a _ ih =>
    cases h' with
    | keep _ h' => exact keep a (ih h')
    | drop ha h' => exact drop ha (ih h')

lemma subset (h : Thins P l l') : l' ⊆ l := by
  induction h with
  | nil => exact List.Subset.refl _
  | keep a _ ih => exact List.cons_subset_cons a ih
  | drop _ _ ih => exact List.subset_cons_of_subset _ ih

lemma all (h : ∀ a ∈ l, P a) : Thins P l [] := by
  induction l with
  | nil => exact nil
  | cons a l ih => exact drop (h a List.mem_cons_self) (ih fun b hb => h b (List.mem_cons_of_mem _ hb))

lemma eraseIdx {i : ℕ} {a : α} (hi : l[i]? = some a) (ha : P a) : Thins P l (l.eraseIdx i) := by
  induction l generalizing i with
  | nil => simp at hi
  | cons b l ih =>
    cases i with
    | zero =>
      obtain rfl : b = a := by simpa using hi
      exact drop ha (refl l)
    | succ i => exact keep b (ih hi)

end Thins

end Sheprd.Lib
