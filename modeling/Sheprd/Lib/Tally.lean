import Mathlib.Tactic

namespace Sheprd.Lib

variable {κ φ : Type}

def inOrder (keeps : φ → Bool) (fates : List (κ × φ)) : List κ :=
  (fates.filter fun fate => keeps fate.2).map Prod.fst

structure Tally (keeps : φ → Bool) (arrived : List κ) (fates : List (κ × φ)) (pending : List κ) :
    Prop where
  once : (fates.map Prod.fst ++ pending).Perm arrived
  ordered : (inOrder keeps fates ++ pending).Sublist arrived

variable {keeps : φ → Bool} {arrived pending : List κ} {fates : List (κ × φ)} {a : κ} {f : φ}

@[simp] lemma inOrder_nil : inOrder (κ := κ) keeps [] = [] := rfl

@[simp] lemma inOrder_append (fates' : List (κ × φ)) :
    inOrder keeps (fates ++ fates') = inOrder keeps fates ++ inOrder keeps fates' := by
  simp [inOrder]

lemma inOrder_singleton : inOrder keeps [(a, f)] = if keeps f then [a] else [] := by
  cases hf : keeps f <;> simp [inOrder, hf]

namespace Tally

lemma empty : Tally keeps ([] : List κ) [] [] :=
  ⟨List.Perm.refl _, List.Sublist.refl _⟩

lemma arrive (h : Tally keeps arrived fates pending) (a : κ) :
    Tally keeps (arrived ++ [a]) fates (pending ++ [a]) := by
  constructor
  · rw [← List.append_assoc]
    exact h.once.append_right _
  · rw [← List.append_assoc]
    exact h.ordered.append (List.Sublist.refl _)

lemma settle (h : Tally keeps arrived fates (a :: pending)) (f : φ) :
    Tally keeps arrived (fates ++ [(a, f)]) pending := by
  constructor
  · simpa using h.once
  · rw [inOrder_append, inOrder_singleton]
    split
    · simpa using h.ordered
    · refine List.Sublist.trans ?_ h.ordered
      simp

lemma settleAll {items : List κ} (h : Tally keeps arrived fates (items ++ pending)) (f : φ) :
    Tally keeps arrived (fates ++ items.map fun item => (item, f)) pending := by
  induction items generalizing fates with
  | nil => simpa using h
  | cons item items ih => simpa using ih (h.settle f)

lemma refuse (h : Tally keeps arrived fates pending) (a : κ) (hf : keeps f = false) :
    Tally keeps (arrived ++ [a]) (fates ++ [(a, f)]) pending := by
  constructor
  · rw [List.map_append, List.append_assoc]
    refine (List.Perm.append_left _ List.perm_append_comm).trans ?_
    rw [← List.append_assoc]
    exact h.once.append_right _
  · rw [inOrder_append, inOrder_singleton, hf]
    simpa using h.ordered.trans (List.sublist_append_left _ _)

end Tally

end Sheprd.Lib
