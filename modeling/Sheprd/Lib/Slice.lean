import Mathlib.Tactic

namespace Sheprd.Lib.Slice

variable {α : Type*}

def write (xs : List α) (start : ℕ) (ys : List α) : Option (List α) :=
  if start + ys.length ≤ xs.length then
    some (xs.take start ++ ys ++ xs.drop (start + ys.length))
  else none

def swap (xs : List α) (low high span : ℕ) : Option (List α) :=
  if high ≤ xs.length ∧ low + span ≤ high ∧ high + span ≤ xs.length then
    let head := xs.take high
    let tail := xs.drop high
    some ((head.take low ++ tail.take span ++ head.drop (low + span)) ++
      ((head.drop low).take span ++ tail.drop span))
  else none

def read (xs : List α) (start len : ℕ) : List α := (xs.drop start).take len

lemma write_isSome (xs ys : List α) (start : ℕ) (h : start + ys.length ≤ xs.length) :
    ∃ zs, write xs start ys = some zs := ⟨_, if_pos h⟩

lemma write_length {xs ys zs : List α} {start : ℕ} (h : write xs start ys = some zs) :
    zs.length = xs.length := by
  rw [write] at h
  split at h
  · obtain rfl := Option.some.inj h
    simp only [List.length_append, List.length_take, List.length_drop]
    omega
  · exact absurd h (by simp)

lemma write_getElem? {xs ys zs : List α} {start : ℕ} (h : write xs start ys = some zs) (i : ℕ) :
    zs[i]? = if start ≤ i ∧ i < start + ys.length then ys[i - start]? else xs[i]? := by
  rw [write] at h
  split at h
  · rename_i hb
    obtain rfl := Option.some.inj h
    have ht : (xs.take start).length = start := by rw [List.length_take]; omega
    rw [List.append_assoc, List.getElem?_append, ht]
    by_cases hlow : i < start
    · rw [if_pos hlow, if_neg (by omega), List.getElem?_take, if_pos hlow]
    · rw [if_neg hlow, List.getElem?_append]
      by_cases hin : i < start + ys.length
      · rw [if_pos (by omega), if_pos ⟨by omega, hin⟩]
      · rw [if_neg (by omega), if_neg (by omega), List.getElem?_drop]
        congr 1
        omega
  · exact absurd h (by simp)

lemma swap_isSome (xs : List α) {low high span : ℕ} (hl : low + span ≤ high)
    (hh : high + span ≤ xs.length) : ∃ zs, swap xs low high span = some zs :=
  ⟨_, if_pos ⟨by omega, hl, hh⟩⟩

lemma swap_length {xs zs : List α} {low high span : ℕ} (h : swap xs low high span = some zs) :
    zs.length = xs.length := by
  rw [swap] at h
  split at h
  · obtain rfl := Option.some.inj h
    simp only [List.length_append, List.length_take, List.length_drop]
    omega
  · exact absurd h (by simp)

def partner (low high span i : ℕ) : ℕ :=
  if low ≤ i ∧ i < low + span then i - low + high
  else if high ≤ i ∧ i < high + span then i - high + low
  else i

lemma swap_getElem? {xs zs : List α} {low high span : ℕ} (h : swap xs low high span = some zs)
    (i : ℕ) : zs[i]? = xs[partner low high span i]? := by
  rw [swap] at h
  split at h
  · rename_i hb
    obtain ⟨-, hl, hh⟩ := hb
    obtain rfl := Option.some.inj h
    have h₁ : ((xs.take high).take low).length = low := by
      simp only [List.length_take]
      omega
    have h₂ : ((xs.drop high).take span).length = span := by
      simp only [List.length_take, List.length_drop]
      omega
    have h₃ : ((xs.take high).drop (low + span)).length = high - (low + span) := by
      simp only [List.length_take, List.length_drop]
      omega
    have h₄ : (((xs.take high).drop low).take span).length = span := by
      simp only [List.length_take, List.length_drop]
      omega
    simp only [List.append_assoc]
    rw [List.getElem?_append, h₁]
    by_cases c₁ : i < low
    · rw [if_pos c₁, List.getElem?_take, if_pos c₁, List.getElem?_take, if_pos (by omega),
        partner, if_neg (by omega), if_neg (by omega)]
    · rw [if_neg c₁, List.getElem?_append, h₂]
      by_cases c₂ : i < low + span
      · rw [if_pos (by omega), List.getElem?_take, if_pos (by omega), List.getElem?_drop, partner,
          if_pos ⟨by omega, c₂⟩]
        congr 1
        omega
      · rw [if_neg (by omega), List.getElem?_append, h₃]
        by_cases c₃ : i < high
        · rw [if_pos (by omega), List.getElem?_drop, List.getElem?_take, if_pos (by omega), partner,
            if_neg (by omega), if_neg (by omega)]
          congr 1
          omega
        · rw [if_neg (by omega), List.getElem?_append, h₄]
          by_cases c₄ : i < high + span
          · rw [if_pos (by omega), List.getElem?_take, if_pos (by omega), List.getElem?_drop,
              List.getElem?_take, if_pos (by omega), partner, if_neg (by omega),
              if_pos ⟨by omega, c₄⟩]
            congr 1
            omega
          · rw [if_neg (by omega), List.getElem?_drop, List.getElem?_drop, partner,
              if_neg (by omega), if_neg (by omega)]
            congr 1
            omega
  · exact absurd h (by simp)

lemma read_getElem? (xs : List α) (start len i : ℕ) :
    (read xs start len)[i]? = if i < len then xs[start + i]? else none := by
  simp only [read, List.getElem?_take, List.getElem?_drop]

lemma read_ext {xs zs : List α} {start start' len : ℕ}
    (h : ∀ i < len, zs[start + i]? = xs[start' + i]?) : read zs start len = read xs start' len := by
  apply List.ext_getElem?
  intro i
  rw [read_getElem?, read_getElem?]
  split
  · exact h i ‹_›
  · rfl

end Sheprd.Lib.Slice
