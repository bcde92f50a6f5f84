import Mathlib.Tactic

namespace Sheprd.Lib.Fuel

variable {α σ : Type} {read : ℕ → List α → σ → σ} {front back : List α} {s t u : σ}

def Reads (read : ℕ → List α → σ → σ) (front : List α) (s t : σ) : Prop :=
  ∀ fuel rest, (front ++ rest).length ≤ fuel →
    ∃ left, rest.length ≤ left ∧ read fuel (front ++ rest) s = read left rest t

lemma Reads.nil (read : ℕ → List α → σ → σ) (s : σ) : Reads read [] s s :=
  fun fuel _ hfuel => ⟨fuel, hfuel, rfl⟩

lemma Reads.append (h : Reads read front s t) (h' : Reads read back t u) : Reads read (front ++ back) s u := by
  intro fuel rest hfuel
  rw [List.append_assoc] at hfuel ⊢
  obtain ⟨left, hleft, hfront⟩ := h fuel (back ++ rest) hfuel
  obtain ⟨left', hleft', hback⟩ := h' left rest hleft
  exact ⟨left', hleft', hfront.trans hback⟩

lemma Reads.unit (hne : front ≠ [])
    (h : ∀ fuel rest, read (fuel + 1) (front ++ rest) s = read fuel rest t) : Reads read front s t := by
  intro fuel rest hfuel
  have hpos := List.length_pos_iff.mpr hne
  rw [List.length_append] at hfuel
  obtain ⟨left, rfl⟩ := Nat.exists_eq_add_one_of_ne_zero (show fuel ≠ 0 by omega)
  exact ⟨left, by omega, h left rest⟩

lemma Reads.whole (h : Reads read front s t) (hstop : ∀ fuel, read fuel [] t = t) :
    read front.length front s = t := by
  obtain ⟨left, -, hread⟩ := h front.length [] (by rw [List.append_nil])
  rw [List.append_nil] at hread
  rw [hread, hstop]

end Sheprd.Lib.Fuel
