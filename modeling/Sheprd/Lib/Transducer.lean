import Mathlib.Tactic

namespace Sheprd.Lib

structure Transducer (σ ι ο : Type) where
  step : σ → ι → σ × List ο

def feedAll {σ ι ο : Type} (feed : σ → List ι → σ × List ο) (s : σ) : List (List ι) → σ × List ο
  | [] => (s, [])
  | piece :: pieces =>
      let fed := feed s piece
      let rest := feedAll feed fed.1 pieces
      (rest.1, fed.2 ++ rest.2)

namespace Transducer

variable {σ ι ο φ : Type} (t : Transducer σ ι ο)

def run (s : σ) : List ι → σ × List ο
  | [] => (s, [])
  | i :: is =>
      let next := t.step s i
      let rest := run next.1 is
      (rest.1, next.2 ++ rest.2)

def Realised (spell : φ → List ο) (feed : σ → List ι → σ × List φ) : Prop :=
  ∀ s is, (feed s is).1 = (t.run s is).1 ∧ (feed s is).2.flatMap spell = (t.run s is).2

@[simp]
lemma run_nil (s : σ) : t.run s [] = (s, []) := rfl

lemma run_cons (s : σ) (i : ι) (is : List ι) :
    t.run s (i :: is) =
      ((t.run (t.step s i).1 is).1, (t.step s i).2 ++ (t.run (t.step s i).1 is).2) := rfl

lemma run_append (s : σ) (is js : List ι) :
    t.run s (is ++ js) =
      ((t.run (t.run s is).1 js).1, (t.run s is).2 ++ (t.run (t.run s is).1 js).2) := by
  induction is generalizing s with
  | nil => rfl
  | cons i is ih =>
    rw [List.cons_append, run_cons, run_cons, ih]
    simp only [List.append_assoc]

variable {t} {spell : φ → List ο} {feed : σ → List ι → σ × List φ}

lemma Realised.feedAll_run (h : t.Realised spell feed) (s : σ) (pieces : List (List ι)) :
    (feedAll feed s pieces).1 = (t.run s pieces.flatten).1 ∧
      (feedAll feed s pieces).2.flatMap spell = (t.run s pieces.flatten).2 := by
  induction pieces generalizing s with
  | nil => exact ⟨rfl, rfl⟩
  | cons piece pieces ih =>
    obtain ⟨hs, ho⟩ := h s piece
    obtain ⟨ihs, iho⟩ := ih (feed s piece).1
    rw [List.flatten_cons, run_append, ← hs, ← ho]
    refine ⟨ihs, ?_⟩
    rw [feedAll, List.flatMap_append, iho]

lemma Realised.feedAll_flatten (h : t.Realised spell feed) (s : σ) (pieces : List (List ι)) :
    (feedAll feed s pieces).1 = (feed s pieces.flatten).1 ∧
      (feedAll feed s pieces).2.flatMap spell = (feed s pieces.flatten).2.flatMap spell := by
  obtain ⟨hs, ho⟩ := h.feedAll_run s pieces
  obtain ⟨hs', ho'⟩ := h s pieces.flatten
  exact ⟨hs.trans hs'.symm, ho.trans ho'.symm⟩

end Transducer

end Sheprd.Lib
