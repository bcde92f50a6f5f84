import Mathlib.Tactic

namespace Sheprd.Lib

variable {α β : Type} {R : α → β → Prop} {l : List α} {m : List β}

lemma forall₂_mem (h : List.Forall₂ R l m) :
    List.Forall₂ (fun a b => a ∈ l ∧ b ∈ m ∧ R a b) l m := by
  induction h with
  | nil => exact .nil
  | cons hr _ ih =>
    refine .cons ⟨List.mem_cons_self, List.mem_cons_self, hr⟩ (ih.imp ?_)
    exact fun a b hm => ⟨List.mem_cons_of_mem _ hm.1, List.mem_cons_of_mem _ hm.2.1, hm.2.2⟩

lemma exists_of_forall₂ (h : List.Forall₂ R l m) {b : β} (hb : b ∈ m) : ∃ a ∈ l, R a b := by
  induction h with
  | nil => cases hb
  | cons hr _ ih =>
    rcases List.mem_cons.mp hb with rfl | hb
    · exact ⟨_, List.mem_cons_self, hr⟩
    · obtain ⟨a, ha, hr⟩ := ih hb
      exact ⟨a, List.mem_cons_of_mem _ ha, hr⟩

end Sheprd.Lib

namespace Sheprd.Lib.Fold

variable {ε σ α : Type} {step : σ → α → Except ε σ} {l : List α} {s t : σ}

lemma cons_eq_ok {a : α} : (a :: l).foldlM step s = .ok t ↔ ∃ u, step s a = .ok u ∧ l.foldlM step u = .ok t := by
  rw [List.foldlM_cons]
  cases h : step s a with
  | error e =>
    constructor
    · intro hbad
      cases hbad
    · rintro ⟨u, hu, -⟩
      cases hu
  | ok u =>
    constructor
    · exact fun hrest => ⟨u, rfl, hrest⟩
    · rintro ⟨u', hu, hrest⟩
      cases hu
      exact hrest

lemma keeps {P : σ → Prop} (hstep : ∀ s a t, P s → step s a = .ok t → P t) (hs : P s)
    (h : l.foldlM step s = .ok t) : P t := by
  induction l generalizing s with
  | nil =>
    cases h
    exact hs
  | cons a l ih =>
    obtain ⟨u, hu, hrest⟩ := cons_eq_ok.mp h
    exact ih (hstep s a u hs hu) hrest

lemma leaves {P : σ → Prop} {a : α} (hstep : ∀ s a t, P s → step s a = .ok t → P t)
    (hset : ∀ s t, step s a = .ok t → P t) (ha : a ∈ l) (h : l.foldlM step s = .ok t) : P t := by
  induction l generalizing s with
  | nil => cases ha
  | cons b l ih =>
    obtain ⟨u, hu, hrest⟩ := cons_eq_ok.mp h
    cases ha with
    | head => exact keeps hstep (hset s u hu) hrest
    | tail _ ha => exact ih ha hrest

lemma succeeds {I : List α → σ → Prop}
    (hstep : ∀ a l s, I (a :: l) s → ∃ t, step s a = .ok t ∧ I l t) (hs : I l s) :
    ∃ t, l.foldlM step s = .ok t ∧ I [] t := by
  induction l generalizing s with
  | nil => exact ⟨s, rfl, hs⟩
  | cons a l ih =>
    obtain ⟨u, hu, hi⟩ := hstep a l s hs
    obtain ⟨t, ht, hend⟩ := ih hi
    exact ⟨t, cons_eq_ok.mpr ⟨u, hu, ht⟩, hend⟩

end Sheprd.Lib.Fold
