import Sheprd.Lib.Slice

namespace Sheprd.Lib.Grid

variable {α β : Type*}

def swaps (pairs : List (ℕ × ℕ)) (f : ℕ → β) : ℕ → β :=
  pairs.foldl (fun g p => g ∘ Equiv.swap p.1 p.2) f

def ascending (h d : ℕ) : List (ℕ × ℕ) := (List.range (h - d)).map fun y => (y, y + d)

def descending (h d : ℕ) : List (ℕ × ℕ) :=
  (List.range' d (h - d)).reverse.map fun y => (y, y - d)

@[simp] lemma swaps_nil (f : ℕ → β) : swaps [] f = f := rfl

@[simp] lemma swaps_cons (a b : ℕ) (pairs : List (ℕ × ℕ)) (f : ℕ → β) :
    swaps ((a, b) :: pairs) f = swaps pairs (f ∘ Equiv.swap a b) := rfl

lemma swaps_concat (a b : ℕ) (pairs : List (ℕ × ℕ)) (f : ℕ → β) :
    swaps (pairs ++ [(a, b)]) f = swaps pairs f ∘ Equiv.swap a b := by
  simp only [swaps, List.foldl_append, List.foldl_cons, List.foldl_nil]

lemma swaps_comp {γ : Type*} (pairs : List (ℕ × ℕ)) (g : β → γ) (f : ℕ → β) :
    swaps pairs (g ∘ f) = g ∘ swaps pairs f := by
  induction pairs generalizing f with
  | nil => rfl
  | cons p pairs ih => exact ih (f ∘ Equiv.swap p.1 p.2)

lemma swaps_eq_comp_id (pairs : List (ℕ × ℕ)) (f : ℕ → β) :
    swaps pairs f = f ∘ swaps pairs id := swaps_comp pairs f id

lemma swap_lt {h a b y : ℕ} (ha : a < h) (hb : b < h) (hy : y < h) : Equiv.swap a b y < h := by
  rw [Equiv.swap_apply_def]
  split_ifs <;> assumption

lemma swaps_lt {h : ℕ} {pairs : List (ℕ × ℕ)} (hp : ∀ p ∈ pairs, p.1 < h ∧ p.2 < h)
    {f : ℕ → ℕ} (hf : ∀ y < h, f y < h) : ∀ y < h, swaps pairs f y < h := by
  induction pairs generalizing f with
  | nil => exact hf
  | cons p pairs ih =>
    obtain ⟨ha, hb⟩ := hp p (by simp)
    exact ih (fun q hq => hp q (by simp [hq])) (fun y hy => hf _ (swap_lt ha hb hy))

lemma swaps_first (d k : ℕ) (f : ℕ → β) :
    let g := swaps ((List.range k).map fun y => (y, y + d)) f
    (∀ y < k, g y = f (y + d)) ∧ (∀ y, k + d ≤ y → g y = f y) ∧
      ((List.range' k d).map g).Perm ((List.range d).map f) := by
  dsimp only
  induction k with
  | zero => exact ⟨by simp, by simp, by simp [List.range_eq_range']⟩
  | succ k ih =>
    obtain ⟨hlow, hhigh, hperm⟩ := ih
    rw [List.range_succ, List.map_append, List.map_singleton, swaps_concat]
    set g := swaps ((List.range k).map fun y => (y, y + d)) f with hg
    refine ⟨fun y hy => ?_, fun y hy => ?_, ?_⟩
    · rcases Nat.lt_succ_iff_lt_or_eq.mp hy with hy' | rfl
      · rw [Function.comp_apply, Equiv.swap_apply_of_ne_of_ne (by omega) (by omega), hlow y hy']
      · rw [Function.comp_apply, Equiv.swap_apply_left, hhigh _ le_rfl]
    · rw [Function.comp_apply, Equiv.swap_apply_of_ne_of_ne (by omega) (by omega),
        hhigh y (by omega)]
    · refine List.Perm.trans ?_ hperm
      cases d with
      | zero => simp
      | succ e =>
        have hmid : (List.range' (k + 1) e).map (g ∘ Equiv.swap k (k + (e + 1))) =
            (List.range' (k + 1) e).map g := by
          apply List.map_congr_left
          intro y hy
          have hy' := List.mem_range'_1.mp hy
          rw [Function.comp_apply, Equiv.swap_apply_of_ne_of_ne (by omega) (by omega)]
        have hlast : [k + 1 + 1 * e].map (g ∘ Equiv.swap k (k + (e + 1))) = [g k] := by
          have he : k + 1 + 1 * e = k + (e + 1) := by omega
          rw [List.map_singleton, he, Function.comp_apply, Equiv.swap_apply_right]
        rw [List.range'_concat, List.map_append, hmid, hlast, List.range'_succ, List.map_cons]
        exact List.perm_append_singleton _ _

lemma ascending_kept {h d : ℕ} (f : ℕ → β) {y : ℕ} (hy : y < h - d) :
    swaps (ascending h d) f y = f (y + d) := (swaps_first d (h - d) f).1 y hy

lemma ascending_vacated (h d : ℕ) (f : ℕ → β) :
    ((List.range' (h - d) d).map (swaps (ascending h d) f)).Perm ((List.range d).map f) :=
  (swaps_first d (h - d) f).2.2

def reflect (h y : ℕ) : ℕ := if y < h then h - 1 - y else y

lemma reflect_involutive (h : ℕ) : Function.Involutive (reflect h) := by
  intro y
  by_cases hy : y < h
  · rw [reflect, reflect, if_pos hy, if_pos (by omega)]
    omega
  · rw [reflect, reflect, if_neg hy, if_neg hy]

lemma swaps_conj (e : Equiv.Perm ℕ) (pairs : List (ℕ × ℕ)) (f : ℕ → β) :
    swaps (pairs.map fun p => (e p.1, e p.2)) f ∘ e = swaps pairs (f ∘ e) := by
  induction pairs generalizing f with
  | nil => rfl
  | cons p pairs ih =>
    rw [List.map_cons, swaps_cons, ih]
    change swaps pairs _ = swaps pairs _
    congr 1
    funext y
    exact congrArg f (e.injective.swap_apply p.1 p.2 y)

lemma descending_eq {h d : ℕ} (hd : d ≤ h) :
    descending h d = (ascending h d).map fun p => (reflect h p.1, reflect h p.2) := by
  rw [descending, List.reverse_range', ascending, List.map_map, List.map_map]
  apply List.map_congr_left
  intro y hy
  have hy' := List.mem_range.mp hy
  simp only [Function.comp_apply, reflect, if_pos (show y < h by omega),
    if_pos (show y + d < h by omega), Prod.mk.injEq]
  omega

lemma descending_conj {h d : ℕ} (hd : d ≤ h) (f : ℕ → β) :
    swaps (descending h d) f ∘ reflect h = swaps (ascending h d) (f ∘ reflect h) := by
  rw [descending_eq hd]
  exact swaps_conj (reflect_involutive h).toPerm (ascending h d) f

lemma descending_kept {h d : ℕ} (f : ℕ → β) {y : ℕ} (hl : d ≤ y) (hy : y < h) :
    swaps (descending h d) f y = f (y - d) := by
  have hr : reflect h (h - 1 - y) = y := by
    rw [reflect, if_pos (by omega)]
    omega
  have hc := congrFun (descending_conj (by omega : d ≤ h) f) (h - 1 - y)
  rw [Function.comp_apply, hr, ascending_kept _ (by omega)] at hc
  rw [hc, Function.comp_apply, reflect, if_pos (by omega)]
  congr 1
  omega

lemma map_reflect_range {h d : ℕ} (hd : d ≤ h) :
    (List.range d).map (reflect h) = (List.range' (h - d) d).reverse := by
  rw [List.reverse_range']
  apply List.map_congr_left
  intro y hy
  have hy' := List.mem_range.mp hy
  rw [reflect, if_pos (by omega)]
  omega

lemma descending_vacated {h d : ℕ} (hd : d ≤ h) (f : ℕ → β) :
    ((List.range d).map (swaps (descending h d) f)).Perm ((List.range' (h - d) d).map f) := by
  have hback : (List.range' (h - d) d).map (reflect h) = (List.range d).reverse := by
    rw [← List.reverse_reverse (List.range' (h - d) d), ← map_reflect_range hd, List.map_reverse,
      List.map_map, (reflect_involutive h).comp_self, List.map_id]
  have hv := ascending_vacated h d (f ∘ reflect h)
  rw [← descending_conj hd, ← List.map_map, ← List.map_map, hback, map_reflect_range hd,
    List.map_reverse, List.map_reverse] at hv
  exact (List.reverse_perm _).symm.trans (hv.trans (List.reverse_perm _))

structure Region where
  stride : ℕ
  top : ℕ
  left : ℕ
  rows : ℕ
  cols : ℕ

namespace Region

def index (g : Region) (y x : ℕ) : ℕ := (g.top + y) * g.stride + g.left + x

def Fits (g : Region) (n : ℕ) : Prop :=
  g.left + g.cols ≤ g.stride ∧ (g.top + g.rows) * g.stride ≤ n

def Mem (g : Region) (i : ℕ) : Prop := ∃ y < g.rows, ∃ x < g.cols, i = g.index y x

def row (g : Region) (cells : List α) (y : ℕ) : List α := Slice.read cells (g.index y 0) g.cols

def swapRows (g : Region) (cells : List α) (a b : ℕ) : Option (List α) :=
  Slice.swap cells (g.index (min a b) 0) (g.index (max a b) 0) g.cols

lemma index_add (g : Region) (y x : ℕ) : g.index y x = g.index y 0 + x := by
  simp only [index, Nat.add_zero]

lemma index_next {g : Region} {n a b : ℕ} (hf : g.Fits n) (h : a < b) :
    g.index a 0 + g.cols ≤ g.index b 0 := by
  have hm : (g.top + a + 1) * g.stride ≤ (g.top + b) * g.stride :=
    Nat.mul_le_mul_right _ (by omega)
  have hl := hf.1
  rw [Nat.add_mul, Nat.one_mul] at hm
  simp only [index]
  omega

lemma index_end {g : Region} {n b : ℕ} (hf : g.Fits n) (h : b < g.rows) :
    g.index b 0 + g.cols ≤ n := by
  have hm : (g.top + b + 1) * g.stride ≤ (g.top + g.rows) * g.stride :=
    Nat.mul_le_mul_right _ (by omega)
  have hl := hf.1
  have hn := hf.2
  rw [Nat.add_mul, Nat.one_mul] at hm
  simp only [index]
  omega

end Region

structure Moved (g : Region) (π : ℕ → ℕ) (cells cells' : List α) : Prop where
  length : cells'.length = cells.length
  inside : ∀ y < g.rows, ∀ x < g.cols, cells'[g.index y x]? = cells[g.index (π y) x]?
  outside : ∀ i, ¬ g.Mem i → cells'[i]? = cells[i]?

lemma Moved.refl (g : Region) (cells : List α) : Moved g id cells cells :=
  ⟨rfl, fun _ _ _ _ => rfl, fun _ _ => rfl⟩

lemma Moved.trans {g : Region} {π ρ : ℕ → ℕ} {c c' c'' : List α} (h : Moved g π c c')
    (h' : Moved g ρ c' c'') (hρ : ∀ y < g.rows, ρ y < g.rows) : Moved g (π ∘ ρ) c c'' where
  length := h'.length.trans h.length
  inside y hy x hx := by rw [h'.inside y hy x hx, h.inside _ (hρ y hy) x hx]; rfl
  outside i hi := by rw [h'.outside i hi, h.outside i hi]

lemma partner_index {g : Region} {n a b y x : ℕ} (hf : g.Fits n) (hab : a < b) (hx : x < g.cols) :
    Slice.partner (g.index a 0) (g.index b 0) g.cols (g.index y x) =
      g.index (Equiv.swap a b y) x := by
  have hn := Region.index_next hf hab
  rw [Slice.partner, g.index_add y x]
  by_cases ha : y = a
  · subst ha
    rw [if_pos ⟨by omega, by omega⟩, Equiv.swap_apply_left, g.index_add b x]
    omega
  · by_cases hb : y = b
    · subst hb
      rw [if_neg (by omega), if_pos ⟨by omega, by omega⟩, Equiv.swap_apply_right, g.index_add a x]
      omega
    · rw [Equiv.swap_apply_of_ne_of_ne ha hb, g.index_add y x]
      have key : ∀ z, z ≠ y → ¬ (g.index z 0 ≤ g.index y 0 + x ∧
          g.index y 0 + x < g.index z 0 + g.cols) := by
        intro z hz
        rcases Nat.lt_or_gt_of_ne hz with hlt | hgt
        · have := Region.index_next hf hlt
          omega
        · have := Region.index_next hf hgt
          omega
      rw [if_neg (key a (Ne.symm ha)), if_neg (key b (Ne.symm hb))]

lemma partner_outside {g : Region} {a b i : ℕ} (ha : a < g.rows) (hb : b < g.rows)
    (hi : ¬ g.Mem i) :
    Slice.partner (g.index a 0) (g.index b 0) g.cols i = i := by
  have key : ∀ z < g.rows, ¬ (g.index z 0 ≤ i ∧ i < g.index z 0 + g.cols) := by
    intro z hz hin
    exact hi ⟨z, hz, i - g.index z 0, by omega, by rw [g.index_add]; omega⟩
  rw [Slice.partner, if_neg (key a ha), if_neg (key b hb)]

lemma swapRows_moved {g : Region} {a b : ℕ} {cells : List α} (hf : g.Fits cells.length)
    (ha : a < g.rows) (hb : b < g.rows) (hab : a ≠ b) :
    ∃ cells', g.swapRows cells a b = some cells' ∧ Moved g (Equiv.swap a b) cells cells' := by
  have hlt : min a b < max a b := by omega
  have hmax : max a b < g.rows := by omega
  obtain ⟨cells', hs⟩ := Slice.swap_isSome cells (Region.index_next hf hlt)
    (Region.index_end hf hmax)
  have hswap : Equiv.swap (min a b) (max a b) = Equiv.swap a b := by
    rcases Nat.lt_or_gt_of_ne hab with h | h
    · rw [min_eq_left h.le, max_eq_right h.le]
    · rw [min_eq_right h.le, max_eq_left h.le, Equiv.swap_comm]
  refine ⟨cells', hs, Slice.swap_length hs, ?_, ?_⟩
  · intro y hy x hx
    rw [Slice.swap_getElem? hs, partner_index hf hlt hx, hswap]
  · intro i hi
    rw [Slice.swap_getElem? hs, partner_outside (by omega) hmax hi]

lemma foldlM_swapRows {g : Region} {pairs : List (ℕ × ℕ)} {cells : List α}
    (hf : g.Fits cells.length)
    (hp : ∀ p ∈ pairs, p.1 < g.rows ∧ p.2 < g.rows ∧ p.1 ≠ p.2) :
    ∃ cells', pairs.foldlM (fun c p => g.swapRows c p.1 p.2) cells = some cells' ∧
      Moved g (swaps pairs id) cells cells' := by
  induction pairs generalizing cells with
  | nil => exact ⟨cells, rfl, Moved.refl g cells⟩
  | cons p pairs ih =>
    obtain ⟨ha, hb, hab⟩ := hp p (by simp)
    obtain ⟨c, hc, hm⟩ := swapRows_moved hf ha hb hab
    have hrest : ∀ q ∈ pairs, q.1 < g.rows ∧ q.2 < g.rows ∧ q.1 ≠ q.2 :=
      fun q hq => hp q (by simp [hq])
    obtain ⟨c', hc', hm'⟩ := ih (by rw [hm.length]; exact hf) hrest
    refine ⟨c', by simp only [List.foldlM_cons, hc]; exact hc', ?_⟩
    have hlt := swaps_lt (fun q hq => ⟨(hrest q hq).1, (hrest q hq).2.1⟩)
      (f := id) (fun y hy => hy)
    have ht := hm.trans hm' hlt
    rwa [← swaps_eq_comp_id] at ht

structure MovedAll (moves : List (Region × (ℕ → ℕ))) (cells cells' : List α) : Prop where
  length : cells'.length = cells.length
  inside : ∀ m ∈ moves, ∀ y < m.1.rows, ∀ x < m.1.cols,
    cells'[m.1.index y x]? = cells[m.1.index (m.2 y) x]?
  outside : ∀ i, (∀ m ∈ moves, ¬ m.1.Mem i) → cells'[i]? = cells[i]?

lemma MovedAll.nil (cells : List α) : MovedAll [] cells cells :=
  ⟨rfl, by simp, fun _ _ => rfl⟩

lemma MovedAll.moved {moves : List (Region × (ℕ → ℕ))} {c c' : List α} (h : MovedAll moves c c')
    {m : Region × (ℕ → ℕ)} (hm : m ∈ moves) {y : ℕ} (hy : y < m.1.rows) :
    m.1.row c' y = m.1.row c (m.2 y) := by
  apply Slice.read_ext
  intro x hx
  rw [← m.1.index_add, ← m.1.index_add]
  exact h.inside m hm y hy x hx

lemma MovedAll.cons {m : Region × (ℕ → ℕ)} {moves : List (Region × (ℕ → ℕ))} {c c' c'' : List α}
    (h : Moved m.1 m.2 c c') (h' : MovedAll moves c' c'')
    (hdisj : ∀ r ∈ moves, ∀ i, m.1.Mem i → ¬ r.1.Mem i)
    (hrows : ∀ r ∈ moves, ∀ y < r.1.rows, r.2 y < r.1.rows) : MovedAll (m :: moves) c c'' where
  length := h'.length.trans h.length
  inside := by
    intro r hr y hy x hx
    rcases List.mem_cons.mp hr with rfl | hr
    · rw [h'.outside _ (fun s hs => hdisj s hs _ ⟨y, hy, x, hx, rfl⟩), h.inside y hy x hx]
    · have hin : r.1.Mem (r.1.index (r.2 y) x) := ⟨_, hrows r hr y hy, x, hx, rfl⟩
      rw [h'.inside r hr y hy x hx, h.outside _ (fun hi => hdisj r hr _ hi hin)]
  outside := by
    intro i hi
    rw [h'.outside i (fun r hr => hi r (by simp [hr])), h.outside i (hi m (by simp))]

lemma MovedAll.unique {moves moves' : List (Region × (ℕ → ℕ))} {c c' c'' : List α}
    (h : MovedAll moves c c') (h' : MovedAll moves' c c'') (hm : ∀ m, m ∈ moves ↔ m ∈ moves') :
    c' = c'' := by
  apply List.ext_getElem?
  intro i
  by_cases hi : ∃ m ∈ moves, m.1.Mem i
  · obtain ⟨m, hmem, y, hy, x, hx, rfl⟩ := hi
    rw [h.inside m hmem y hy x hx, h'.inside m ((hm m).mp hmem) y hy x hx]
  · have hnone : ∀ m ∈ moves, ¬ m.1.Mem i := fun m hmem hin => hi ⟨m, hmem, hin⟩
    rw [h.outside i hnone, h'.outside i (fun m hmem => hnone m ((hm m).mpr hmem))]

end Sheprd.Lib.Grid
