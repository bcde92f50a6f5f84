import Mathlib.Tactic

namespace Sheprd.Lib

variable {α : Type}

inductive Visits (below : α → List α) : List (α × ℕ) → List (α × ℕ) → Prop where
  | nil : Visits below [] []
  | cons {node : α} {depth : ℕ} {rest inner outer : List (α × ℕ)} :
      Visits below ((below node).map (·, depth + 1)) inner → Visits below rest outer →
      Visits below ((node, depth) :: rest) ((node, depth) :: (inner ++ outer))

namespace Visits

variable {below : α → List α} {nodes nodes' visited visited' : List (α × ℕ)} {node : α} {depth : ℕ}

lemma split (h : Visits below (nodes ++ nodes') visited) : ∃ front back,
    Visits below nodes front ∧ Visits below nodes' back ∧ visited = front ++ back := by
  induction nodes generalizing visited with
  | nil => exact ⟨[], visited, nil, h, rfl⟩
  | cons _ nodes ih =>
    cases h with
    | @cons node depth _ inner outer hinner houter =>
      obtain ⟨front, back, hfront, hback, rfl⟩ := ih houter
      refine ⟨(node, depth) :: (inner ++ front), back, cons hinner hfront, hback, ?_⟩
      simp

lemma push (h : Visits below ((below node).map (·, depth + 1) ++ nodes) visited) :
    Visits below ((node, depth) :: nodes) ((node, depth) :: visited) := by
  obtain ⟨inner, outer, hinner, houter, rfl⟩ := split h
  exact cons hinner houter

lemma subset (h : Visits below nodes visited) : nodes ⊆ visited := by
  induction h with
  | nil => exact List.Subset.refl []
  | cons _ _ _ ih =>
    refine List.cons_subset.mpr ⟨List.mem_cons_self, ?_⟩
    intro x hx
    exact List.mem_cons_of_mem _ (List.mem_append_right _ (ih hx))

lemma below_mem (h : Visits below nodes visited) {child : α}
    (hnode : (node, depth) ∈ visited) (hchild : child ∈ below node) :
    (child, depth + 1) ∈ visited := by
  induction h with
  | nil => cases hnode
  | cons hinner _ ihinner ihouter =>
    refine List.mem_cons_of_mem _ (List.mem_append.mpr ?_)
    rcases List.mem_cons.mp hnode with hnode | hnode
    · cases hnode
      exact .inl (hinner.subset (List.mem_map_of_mem hchild))
    · rcases List.mem_append.mp hnode with hnode | hnode
      · exact .inl (ihinner hnode)
      · exact .inr (ihouter hnode)

lemma closed {P : α → ℕ → Prop}
    (hbelow : ∀ node depth child, P node depth → child ∈ below node → P child (depth + 1))
    (h : Visits below nodes visited) (hnodes : ∀ x ∈ nodes, P x.1 x.2) :
    ∀ x ∈ visited, P x.1 x.2 := by
  induction h with
  | nil => exact hnodes
  | cons _ _ ihinner ihouter =>
    obtain ⟨hnode, hrest⟩ := List.forall_mem_cons.mp hnodes
    refine List.forall_mem_cons.mpr ⟨hnode, List.forall_mem_append.mpr ⟨ihinner ?_, ihouter hrest⟩⟩
    intro x hx
    obtain ⟨child, hchild, rfl⟩ := List.mem_map.mp hx
    exact hbelow _ _ _ hnode hchild

end Visits

end Sheprd.Lib
