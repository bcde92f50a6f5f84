import Mathlib.Tactic

namespace Sheprd.Lib.Rounds

variable {α κ : Type} [LinearOrder κ]

def start (key : α → κ) (l : List α) (after : Option κ) : ℕ :=
  after.elim 0 fun cursor => (l.findIdx? fun a => decide (cursor < key a)).getD 0

def window (l : List α) (start count : ℕ) : List α :=
  (List.range count).filterMap fun i => l[(start + i) % l.length]?

def walk (key : α → κ) (l : List α) (count : ℕ) : ℕ → Option κ → List α
  | 0, _ => []
  | calls + 1, after =>
      let read := window l (start key l after) count
      read ++ walk key l count calls (read.getLast?.map key)

variable {key : α → κ} {l : List α} {a : α} {s count i : ℕ}

lemma mem_window : a ∈ window l s count ↔ ∃ i < count, l[(s + i) % l.length]? = some a := by
  simp [window]

lemma window_sub (h : a ∈ window l s count) : a ∈ l := by
  obtain ⟨i, -, hi⟩ := mem_window.mp h
  exact List.mem_of_getElem? hi

lemma window_nodup (hl : l.Nodup) (hc : count ≤ l.length) : (window l s count).Nodup := by
  rw [window, List.Nodup, List.pairwise_filterMap]
  refine (List.pairwise_lt_range).imp_of_mem ?_
  intro i j _ hj hij a ha b hb hab
  subst hab
  rw [List.mem_range] at hj
  obtain ⟨hlt, hi⟩ := List.getElem?_eq_some_iff.mp ha
  obtain ⟨hlt', hj'⟩ := List.getElem?_eq_some_iff.mp hb
  have hmod : (s + i) % l.length = (s + j) % l.length :=
    (List.Nodup.getElem_inj_iff hl).mp (hi.trans hj'.symm)
  have hmod' : i % l.length = j % l.length := Nat.ModEq.add_left_cancel' s hmod
  rw [Nat.mod_eq_of_lt (by omega), Nat.mod_eq_of_lt (by omega)] at hmod'
  omega

lemma window_last (h : l ≠ []) : (window l s (count + 1)).getLast? = l[(s + count) % l.length]? := by
  have hlt : (s + count) % l.length < l.length := Nat.mod_lt _ (List.length_pos_iff.mpr h)
  rw [window, List.range_succ, List.filterMap_append, List.filterMap_cons, List.filterMap_nil,
    List.getElem?_eq_getElem hlt]
  exact List.getLast?_concat ..

lemma start_le (key : α → κ) (h : l ≠ []) (after : Option κ) : start key l after < l.length := by
  have hpos : 0 < l.length := List.length_pos_iff.mpr h
  cases after with
  | none => exact hpos
  | some cursor =>
    rw [start, Option.elim_some]
    cases hf : l.findIdx? fun a => decide (cursor < key a) with
    | none => exact hpos
    | some i => exact (List.findIdx?_eq_some_iff_getElem.mp hf).1

lemma start_behind (hl : l.Pairwise fun a b => key a < key b) (h : l[i]? = some a) :
    start key l (some (key a)) = (i + 1) % l.length := by
  obtain ⟨hi, rfl⟩ := List.getElem?_eq_some_iff.mp h
  rw [start, Option.elim_some]
  have habove : ∀ j (hj : j < l.length), key l[i] < key l[j] ↔ i < j := by
    intro j hj
    obtain hlt | heq | hgt := Nat.lt_trichotomy i j
    · exact iff_of_true (List.pairwise_iff_getElem.mp hl i j hi hj hlt) hlt
    · subst heq
      exact iff_of_false (lt_irrefl _) (Nat.lt_irrefl _)
    · exact iff_of_false (List.pairwise_iff_getElem.mp hl j i hj hi hgt).asymm hgt.asymm
  obtain hlast | hlast := Nat.lt_or_ge (i + 1) l.length
  · have hf : (l.findIdx? fun a => decide (key l[i] < key a)) = some (i + 1) := by
      refine List.findIdx?_eq_some_iff_getElem.mpr ⟨hlast, ?_, fun j hj => ?_⟩
      · exact decide_eq_true ((habove (i + 1) hlast).mpr (Nat.lt_succ_self i))
      · have hnot := mt (habove j (hj.trans hlast)).mp (Nat.not_lt.mpr (Nat.le_of_lt_succ hj))
        simpa using hnot
    rw [hf, Option.getD_some, Nat.mod_eq_of_lt hlast]
  · have hf : (l.findIdx? fun a => decide (key l[i] < key a)) = none := by
      refine List.findIdx?_eq_none_iff.mpr fun b hb => ?_
      obtain ⟨j, hj, rfl⟩ := List.getElem_of_mem hb
      exact decide_eq_false (mt (habove j hj).mp (by omega))
    have hend : i + 1 = l.length := Nat.le_antisymm hi hlast
    rw [hf, Option.getD_none, hend, Nat.mod_self]

lemma mem_walk (hl : l.Pairwise fun a b => key a < key b) {calls : ℕ} {after : Option κ}
    (hi : i < calls * (count + 1)) (h : l[(start key l after + i) % l.length]? = some a) :
    a ∈ walk key l (count + 1) calls after := by
  induction calls generalizing after i with
  | zero => exact absurd hi (by omega)
  | succ calls ih =>
    rw [walk]
    refine List.mem_append.mpr ?_
    obtain hnear | hfar := Nat.lt_or_ge i (count + 1)
    · exact .inl (mem_window.mpr ⟨i, hnear, h⟩)
    · have hne : l ≠ [] := List.ne_nil_of_mem (List.mem_of_getElem? h)
      have hlt : (start key l after + count) % l.length < l.length :=
        Nat.mod_lt _ (List.length_pos_iff.mpr hne)
      refine .inr (@ih (i - (count + 1)) _ ?_ ?_)
      · rw [Nat.succ_mul] at hi
        omega
      · rw [window_last hne, List.getElem?_eq_getElem hlt, Option.map_some,
          start_behind hl (List.getElem?_eq_getElem hlt)]
        have hsum : start key l after + count + (1 + (i - (count + 1))) = start key l after + i := by omega
        rw [Nat.mod_add_mod, Nat.add_assoc, Nat.mod_add_mod, hsum, h]

lemma walk_sub {calls : ℕ} {after : Option κ} (h : a ∈ walk key l count calls after) : a ∈ l := by
  induction calls generalizing after with
  | zero => exact absurd h List.not_mem_nil
  | succ calls ih =>
    rw [walk] at h
    obtain hnow | hlater := List.mem_append.mp h
    · exact window_sub hnow
    · exact ih hlater

lemma walk_all (hl : l.Pairwise fun a b => key a < key b) {calls : ℕ} (after : Option κ)
    (hc : l.length ≤ calls * (count + 1)) (h : a ∈ l) : a ∈ walk key l (count + 1) calls after := by
  obtain ⟨j, hj, rfl⟩ := List.getElem_of_mem h
  have hs := start_le key (List.ne_nil_of_mem h) after
  refine mem_walk (i := (j + (l.length - start key l after)) % l.length) hl ?_ ?_
  · exact (Nat.mod_lt _ (by omega)).trans_le hc
  · have hsum : start key l after + (j + (l.length - start key l after)) = j + l.length := by omega
    rw [Nat.add_mod_mod, hsum, Nat.add_mod_right, Nat.mod_eq_of_lt hj]
    exact List.getElem?_eq_getElem hj

end Sheprd.Lib.Rounds
