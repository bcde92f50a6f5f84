import Mathlib.Tactic

namespace Sheprd.Lib

variable {α κ : Type}

namespace Search

def narrow (compare : α → Ordering) (l : List α) : ℕ → ℕ → ℕ → ℕ
  | 0, _, base => base
  | fuel + 1, size, base =>
      if size ≤ 1 then base
      else
        let half := size / 2
        let mid := base + half
        narrow compare l fuel (size - half)
          (if l[mid]?.any fun a => compare a = .gt then base else mid)

end Search

open Search

def binarySearchBy (compare : α → Ordering) (l : List α) : Except ℕ ℕ :=
  let base := narrow compare l l.length l.length 0
  match l[base]? with
  | none => .error 0
  | some a =>
      match compare a with
      | .eq => .ok base
      | .lt => .error (base + 1)
      | .gt => .error base

def binarySearchByKey [Ord κ] (key : α → κ) (k : κ) (l : List α) : Except ℕ ℕ :=
  binarySearchBy (fun a => compare (key a) k) l

def partitionPoint (p : α → Bool) (l : List α) : ℕ :=
  match binarySearchBy (fun a => if p a then .lt else .gt) l with
  | .ok i => i
  | .error i => i

lemma binarySearchBy_found {compare : α → Ordering} {l : List α} {i : ℕ}
    (h : binarySearchBy compare l = .ok i) : ∃ a, l[i]? = some a ∧ compare a = .eq := by
  rw [binarySearchBy] at h
  cases ha : l[narrow compare l l.length l.length 0]? with
  | none => simp [ha] at h
  | some a =>
    cases hc : compare a with
    | lt => simp [ha, hc] at h
    | gt => simp [ha, hc] at h
    | eq =>
      have hi : narrow compare l l.length l.length 0 = i := by simpa [ha, hc] using h
      exact ⟨a, hi ▸ ha, hc⟩

def Ascends (compare : α → Ordering) (l : List α) : Prop :=
  l.Pairwise fun a b => (compare b = .lt → compare a = .lt) ∧ (compare a = .gt → compare b = .gt)

lemma Ascends.lt {compare : α → Ordering} {l : List α} (h : Ascends compare l) {i j : ℕ} {a b : α}
    (hij : i ≤ j) (ha : l[i]? = some a) (hb : l[j]? = some b) (hc : compare b = .lt) :
    compare a = .lt := by
  rcases Nat.lt_or_eq_of_le hij with hlt | rfl
  · obtain ⟨hi, rfl⟩ := List.getElem?_eq_some_iff.mp ha
    obtain ⟨hj, rfl⟩ := List.getElem?_eq_some_iff.mp hb
    exact (List.pairwise_iff_getElem.mp h i j hi hj hlt).1 hc
  · rw [ha] at hb
    cases hb
    exact hc

lemma Ascends.gt {compare : α → Ordering} {l : List α} (h : Ascends compare l) {i j : ℕ} {a b : α}
    (hij : i ≤ j) (ha : l[i]? = some a) (hb : l[j]? = some b) (hc : compare a = .gt) :
    compare b = .gt := by
  rcases Nat.lt_or_eq_of_le hij with hlt | rfl
  · obtain ⟨hi, rfl⟩ := List.getElem?_eq_some_iff.mp ha
    obtain ⟨hj, rfl⟩ := List.getElem?_eq_some_iff.mp hb
    exact (List.pairwise_iff_getElem.mp h i j hi hj hlt).2 hc
  · rw [ha] at hb
    cases hb
    exact hc

structure Window (compare : α → Ordering) (l : List α) (size base : ℕ) : Prop where
  inside : base + size ≤ l.length
  above : ∀ j a, base + size ≤ j → l[j]? = some a → compare a = .gt
  below : ∀ a, 0 < base → l[base]? = some a → compare a ≠ .gt

lemma narrow_window {compare : α → Ordering} {l : List α} (hl : Ascends compare l) (fuel : ℕ) :
    ∀ {size base : ℕ}, Window compare l size base → 0 < size → size ≤ fuel + 1 →
      Window compare l 1 (narrow compare l fuel size base) := by
  induction fuel with
  | zero =>
    intro size base hw hpos hfuel
    obtain rfl : size = 1 := by omega
    exact hw
  | succ fuel ih =>
    intro size base hw hpos hfuel
    rw [narrow]
    split
    case isTrue hone =>
      obtain rfl : size = 1 := by omega
      exact hw
    case isFalse hmore =>
      have hhalf : 0 < size / 2 := by omega
      have hmid : base + size / 2 < l.length := by
        have := hw.inside
        omega
      obtain ⟨m, hm⟩ : ∃ m, l[base + size / 2]? = some m := ⟨_, List.getElem?_eq_getElem hmid⟩
      dsimp only
      rw [hm, Option.any_some]
      refine ih ?_ (by omega) (by omega)
      split
      case isTrue hgt =>
        have hgt : compare m = .gt := of_decide_eq_true hgt
        refine ⟨by have := hw.inside; omega, ?_, hw.below⟩
        intro j a hj ha
        exact hl.gt (by omega) hm ha hgt
      case isFalse hle =>
        refine ⟨by have := hw.inside; omega, ?_, ?_⟩
        · intro j a hj ha
          exact hw.above j a (by omega) ha
        · intro a _ ha
          rw [hm] at ha
          cases ha
          exact fun hgt => hle (decide_eq_true hgt)

lemma binarySearchBy_ends {compare : α → Ordering} {l : List α} (hl : Ascends compare l)
    (hne : l ≠ []) : Window compare l 1 (narrow compare l l.length l.length 0) := by
  have hpos : 0 < l.length := List.length_pos_iff.mpr hne
  refine narrow_window hl l.length ⟨by omega, ?_, fun a h => absurd h (Nat.lt_irrefl 0)⟩ hpos
    (Nat.le_succ _)
  intro j a hj ha
  rw [List.getElem?_eq_none (by omega)] at ha
  exact absurd ha (by simp)

lemma binarySearchBy_missed {compare : α → Ordering} {l : List α} (hl : Ascends compare l) {k : ℕ}
    (h : binarySearchBy compare l = .error k) :
    k ≤ l.length ∧ (∀ j a, j < k → l[j]? = some a → compare a = .lt) ∧
      ∀ j a, k ≤ j → l[j]? = some a → compare a = .gt := by
  by_cases hne : l = []
  · subst hne
    have hk : k = 0 := by simpa [binarySearchBy] using h.symm
    subst hk
    exact ⟨Nat.le_refl _, fun j a hj => absurd hj (by omega), fun j a _ ha => absurd ha (by simp)⟩
  · have hw := binarySearchBy_ends hl hne
    rw [binarySearchBy] at h
    generalize narrow compare l l.length l.length 0 = base at h hw
    have hin : base < l.length := by
      have := hw.inside
      omega
    obtain ⟨b, hb⟩ : ∃ b, l[base]? = some b := ⟨_, List.getElem?_eq_getElem hin⟩
    rw [hb] at h
    cases hc : compare b with
    | eq => simp [hc] at h
    | lt =>
      have hk : base + 1 = k := by simpa [hc] using h
      subst hk
      refine ⟨hin, ?_, hw.above⟩
      intro j a hj ha
      exact hl.lt (by omega) ha hb hc
    | gt =>
      have hk : base = k := by simpa [hc] using h
      subst hk
      have hzero : base = 0 := by
        by_contra hpos
        exact hw.below b (Nat.pos_of_ne_zero hpos) hb hc
      subst hzero
      refine ⟨Nat.zero_le _, fun j a hj => absurd hj (by omega), ?_⟩
      intro j a hj ha
      exact hl.gt hj hb ha hc

section Keys

variable [LinearOrder κ] {key : α → κ} {l : List α}

lemma ascends_key (h : l.Pairwise fun a b => key a < key b) (k : κ) :
    Ascends (fun a => compare (key a) k) l := by
  refine h.imp ?_
  intro a b hab
  simp only [compare_lt_iff_lt, compare_gt_iff_gt]
  exact ⟨hab.trans, fun hk => lt_trans hk hab⟩

lemma binarySearchByKey_iff (h : l.Pairwise fun a b => key a < key b) {k : κ} {i : ℕ} :
    binarySearchByKey key k l = .ok i ↔ ∃ a, l[i]? = some a ∧ key a = k := by
  constructor
  · intro hi
    obtain ⟨a, ha, hc⟩ := binarySearchBy_found hi
    exact ⟨a, ha, compare_eq_iff_eq.mp hc⟩
  · rintro ⟨a, ha, rfl⟩
    cases hs : binarySearchByKey key (key a) l with
    | ok j =>
      obtain ⟨b, hb, hc⟩ := binarySearchBy_found hs
      obtain ⟨hi, rfl⟩ := List.getElem?_eq_some_iff.mp ha
      obtain ⟨hj, rfl⟩ := List.getElem?_eq_some_iff.mp hb
      have hkey := compare_eq_iff_eq.mp hc
      rcases Nat.lt_trichotomy i j with hlt | rfl | hlt
      · exact absurd hkey (ne_of_gt (List.pairwise_iff_getElem.mp h i j hi hj hlt))
      · rfl
      · exact absurd hkey (ne_of_lt (List.pairwise_iff_getElem.mp h j i hj hi hlt))
    | error k =>
      obtain ⟨-, hlt, hgt⟩ := binarySearchBy_missed (ascends_key h _) hs
      rcases Nat.lt_or_ge i k with hik | hik
      · exact absurd (hlt i a hik ha) (by simp)
      · exact absurd (hgt i a hik ha) (by simp)

end Keys

lemma drop_partitionPoint {p : α → Bool} {l : List α}
    (h : l.Pairwise fun a b => p b = true → p a = true) :
    l.drop (partitionPoint p l) = l.filter fun a => !p a := by
  have hl : Ascends (fun a => if p a then Ordering.lt else .gt) l := by
    refine h.imp ?_
    intro a b hab
    cases ha : p a with
    | true => simp [ha]
    | false => simpa [ha] using hab
  rw [partitionPoint]
  cases hs : binarySearchBy (fun a => if p a then Ordering.lt else .gt) l with
  | ok i =>
    obtain ⟨a, -, hc⟩ := binarySearchBy_found hs
    exact absurd hc (by split <;> simp)
  | error k =>
    obtain ⟨-, hlt, hgt⟩ := binarySearchBy_missed hl hs
    have hfront : (l.take k).filter (fun a => !p a) = [] := by
      refine List.filter_eq_nil_iff.mpr ?_
      intro a ha
      obtain ⟨j, hj⟩ := List.mem_iff_getElem?.mp ha
      rw [List.getElem?_take] at hj
      split at hj
      case isTrue hjk => simpa using hlt j a hjk hj
      case isFalse => exact absurd hj (by simp)
    have hback : (l.drop k).filter (fun a => !p a) = l.drop k := by
      refine List.filter_eq_self.mpr ?_
      intro a ha
      obtain ⟨j, hj⟩ := List.mem_iff_getElem?.mp ha
      rw [List.getElem?_drop] at hj
      simpa using hgt (k + j) a (Nat.le_add_right k j) hj
    conv_rhs => rw [← List.take_append_drop k l]
    rw [List.filter_append, hfront, hback, List.nil_append]

end Sheprd.Lib
