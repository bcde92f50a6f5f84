import Sheprd.Protocol.SurfaceScroll

namespace Sheprd.Protocol

open Sheprd.Lib Sheprd.Lib.Grid

def Atomic (s : PaneSurfaceFrame) (p : PaneSurfacePatch)
    (result : Option (Except Error Unit × PaneSurfaceFrame)) : Prop :=
  (∃ e, result = some (.error e, s)) ∨
    ∃ s', result = some (.ok (), s') ∧ s'.frame.validate = .ok () ∧
      s'.frame.width = s.frame.width ∧ s'.frame.height = s.frame.height ∧
      s'.frame.hyperlinks = s.frame.hyperlinks ∧ s'.bootId = s.bootId ∧
      s'.projectionRevision = s.projectionRevision ∧ s'.surfaceRevision = p.surfaceRevision

lemma Patched.atomic {s s' : PaneSurfaceFrame} {p : PaneSurfacePatch} (h : Patched s s' p) :
    Atomic s p (some (.ok (), s')) :=
  Or.inr ⟨s', rfl, s'.frame.validate_ok_iff.mpr h.valid, h.width, h.height, h.hyperlinks, h.bootId,
    h.projection, h.revision⟩

theorem patches_atomic (s : PaneSurfaceFrame) :
    (∀ p, Atomic s p (s.applyPatch p)) ∧
      ∀ scroll, Atomic s scroll.patch (s.applyScrollPatch scroll) := by
  constructor
  · intro p
    rcases applyPatch_spec s p with ⟨e, -, h⟩ | ⟨s', -, h, hp⟩
    · exact Or.inl ⟨e, h⟩
    · exact h ▸ hp.atomic
  · intro scroll
    rcases applyScrollPatch_spec s scroll with ⟨e, h⟩ | ⟨s', -, h, hp⟩
    · exact Or.inl ⟨e, h⟩
    · exact h ▸ hp.atomic

def SurfaceScroll.row (scroll : SurfaceScroll) (width : UInt16) (cells : List CellData) (y : ℕ) :
    List CellData :=
  Slice.read cells (rowStart scroll.rect width.toNat y) scroll.rect.width.toNat

def SurfaceScroll.unreached (scroll : SurfaceScroll) (shift : ℤ) : List ℕ :=
  (List.range scroll.rect.height.toNat).filter fun y =>
    decide (y + shift < 0 ∨ scroll.rect.height.toNat ≤ y + shift)

lemma range_split {h k : ℕ} (hk : k ≤ h) :
    List.range h = List.range k ++ List.range' k (h - k) := by
  have hr : List.range' 0 k ++ List.range' (0 + k) (h - k) = List.range' 0 (k + (h - k)) :=
    List.range'_append_1
  rw [Nat.zero_add, Nat.add_sub_cancel' hk] at hr
  rw [List.range_eq_range', List.range_eq_range', hr]

lemma filter_range_last (h k : ℕ) (hk : k ≤ h) (p : ℕ → Bool) (hl : ∀ y < k, p y = false)
    (hh : ∀ y, k ≤ y → y < h → p y = true) :
    (List.range h).filter p = List.range' k (h - k) := by
  rw [range_split hk, List.filter_append, List.filter_eq_nil_iff.mpr, List.filter_eq_self.mpr, List.nil_append]
  · intro y hy
    have hy' := List.mem_range'_1.mp hy
    exact hh y hy'.1 (by omega)
  · intro y hy
    simp [hl y (List.mem_range.mp hy)]

lemma filter_range_first (h k : ℕ) (hk : k ≤ h) (p : ℕ → Bool) (hl : ∀ y < k, p y = true)
    (hh : ∀ y, k ≤ y → y < h → p y = false) : (List.range h).filter p = List.range k := by
  rw [range_split hk, List.filter_append, List.filter_eq_self.mpr, List.filter_eq_nil_iff.mpr, List.append_nil]
  · intro y hy
    have hy' := List.mem_range'_1.mp hy
    simp [hh y hy'.1 (by omega)]
  · intro y hy
    exact hl y (List.mem_range.mp hy)

lemma unreached_down {scroll : SurfaceScroll} {d : ℕ} (hd : d ≤ scroll.rect.height.toNat) :
    scroll.unreached d = List.range' (scroll.rect.height.toNat - d) d := by
  rw [SurfaceScroll.unreached, filter_range_last _ (scroll.rect.height.toNat - d) (by omega)]
  · congr 1
    omega
  · intro y hy
    simp only [decide_eq_false_iff_not]
    omega
  · intro y hy hy'
    simp only [decide_eq_true_eq]
    omega

lemma unreached_up {scroll : SurfaceScroll} {d : ℕ} (hd : d ≤ scroll.rect.height.toNat) :
    scroll.unreached (-d) = List.range d := by
  rw [SurfaceScroll.unreached, filter_range_first _ d hd]
  · intro y hy
    simp only [decide_eq_true_eq]
    omega
  · intro y hy hy'
    simp only [decide_eq_false_iff_not]
    omega

lemma shift_pos_or_neg {width height : UInt16} {scroll : SurfaceScroll}
    (h : ScrollFits width height scroll) :
    (0 < scroll.shift ∧ scroll.shift.toInt = scroll.distance) ∨
      (¬ 0 < scroll.shift ∧ scroll.shift.toInt = -scroll.distance) := by
  have hd := h.distance_pos
  rw [SurfaceScroll.distance] at *
  rw [Int16.lt_iff_toInt_lt, Int16.toInt_zero]
  omega

lemma moved_kept {f : FrameData} {scrolls : List SurfaceScroll} {cells cells' : List CellData}
    (h : MovedAll (scrolls.map (·.move f.width.toNat)) cells cells') {scroll : SurfaceScroll}
    (hs : scroll ∈ scrolls) (hf : ScrollFits f.width f.height scroll) {y y' : ℕ}
    (hy : y < scroll.rect.height.toNat) (hy' : y' < scroll.rect.height.toNat)
    (he : (y' : ℤ) = y + scroll.shift.toInt) :
    scroll.row f.width cells' y = scroll.row f.width cells y' := by
  have hm := h.moved (List.mem_map_of_mem hs) hy
  have hπ : swaps scroll.pairs id y = y' := by
    rcases shift_pos_or_neg hf with ⟨hpos, hd⟩ | ⟨hneg, hd⟩
    · rw [SurfaceScroll.pairs, if_pos hpos, ascending_kept id (by omega)]
      simp only [id]
      omega
    · rw [SurfaceScroll.pairs, if_neg hneg, descending_kept id (by omega) (by omega)]
      simp only [id]
      omega
  rw [← hπ]
  exact hm

lemma moved_vacated {f : FrameData} {scrolls : List SurfaceScroll} {cells cells' : List CellData}
    (h : MovedAll (scrolls.map (·.move f.width.toNat)) cells cells') {scroll : SurfaceScroll}
    (hs : scroll ∈ scrolls) (hf : ScrollFits f.width f.height scroll) :
    ((scroll.unreached scroll.shift.toInt).map (scroll.row f.width cells')).Perm
      ((scroll.unreached (-scroll.shift.toInt)).map (scroll.row f.width cells)) := by
  have hrows : ∀ y < scroll.rect.height.toNat, scroll.row f.width cells' y =
      swaps scroll.pairs (scroll.row f.width cells) y := by
    intro y hy
    rw [swaps_eq_comp_id]
    exact h.moved (List.mem_map_of_mem hs) hy
  have hlt := hf.distance_lt
  have hmap : (scroll.unreached scroll.shift.toInt).map (scroll.row f.width cells') =
      (scroll.unreached scroll.shift.toInt).map
        (swaps scroll.pairs (scroll.row f.width cells)) := by
    apply List.map_congr_left
    intro y hy
    exact hrows y (List.mem_range.mp (List.mem_filter.mp hy).1)
  rw [hmap]
  rcases shift_pos_or_neg hf with ⟨hpos, hd⟩ | ⟨hneg, hd⟩
  · rw [hd, unreached_down hlt.le, unreached_up hlt.le, SurfaceScroll.pairs, if_pos hpos]
    exact ascending_vacated _ _ _
  · rw [hd, neg_neg, unreached_down hlt.le, unreached_up hlt.le, SurfaceScroll.pairs, if_neg hneg]
    exact descending_vacated hlt.le _

def SurfaceRect.Covers (rect : SurfaceRect) (y x : ℕ) : Prop :=
  rect.y.toNat ≤ y ∧ y < rect.y.toNat + rect.height.toNat ∧
    rect.x.toNat ≤ x ∧ x < rect.x.toNat + rect.width.toNat

lemma moved_outside {f : FrameData} {scrolls : List SurfaceScroll} {cells cells' : List CellData}
    (h : MovedAll (scrolls.map (·.move f.width.toNat)) cells cells')
    (hf : ∀ scroll ∈ scrolls, ScrollFits f.width f.height scroll) {y x : ℕ}
    (hx : x < f.width.toNat) (ho : ∀ scroll ∈ scrolls, ¬ scroll.rect.Covers y x) :
    cells'[y * f.width.toNat + x]? = cells[y * f.width.toNat + x]? := by
  apply h.outside
  intro m hm
  obtain ⟨scroll, hs, rfl⟩ := List.mem_map.mp hm
  rintro ⟨y', hy', x', hx', he⟩
  simp only [SurfaceScroll.move, SurfaceScroll.region, Region.index] at *
  have hr := (hf scroll hs).right
  obtain ⟨hl, hc⟩ := position_inj hx (by omega) (he.trans (Nat.add_assoc _ _ _))
  exact ho scroll hs ⟨by omega, by omega, by omega, by omega⟩

theorem scroll_patch_correct (s : PaneSurfaceFrame) (scroll : ScrollPatch)
    (hv : s.validatePatch scroll.patch = .ok ())
    (hc : checkScrolls s.frame scroll.scrolls = .ok ()) :
    ∃ cells s', scrollRegions s.frame.width s.frame.cells scroll.scrolls = some cells ∧
      s.applyScrollPatch scroll = some (.ok (), s') ∧
      (∀ r ∈ scroll.scrolls, ∀ y < r.rect.height.toNat, ∀ y' < r.rect.height.toNat,
        (y' : ℤ) = y + r.shift.toInt → r.row s.frame.width cells y =
          r.row s.frame.width s.frame.cells y') ∧
      (∀ r ∈ scroll.scrolls, ((r.unreached r.shift.toInt).map (r.row s.frame.width cells)).Perm
        ((r.unreached (-r.shift.toInt)).map (r.row s.frame.width s.frame.cells))) ∧
      (∀ y x, x < s.frame.width.toNat → (∀ r ∈ scroll.scrolls, ¬ r.rect.Covers y x) →
        cells[y * s.frame.width.toNat + x]? = s.frame.cells[y * s.frame.width.toNat + x]?) ∧
      (∀ scrolls', scroll.scrolls.Perm scrolls' →
        scrollRegions s.frame.width s.frame.cells scrolls' = some cells ∧
        s.applyScrollPatch ⟨scrolls', scroll.patch⟩ = some (.ok (), s')) ∧
      (∀ y x, x < s.frame.width.toNat → s'.frame.cells[y * s.frame.width.toNat + x]? =
        (patchCell scroll.patch.rows y x).or cells[y * s.frame.width.toNat + x]?) ∧
      s'.frame.cells.length = s.frame.cells.length ∧ s'.frame.cursor = scroll.patch.cursor := by
  have hf := (validatePatch_ok_iff s scroll.patch).mp hv
  have ha := checkScrolls_ok hc
  obtain ⟨cells, hs, hm⟩ := scrollRegions_moved hf.frame.count ha
  obtain ⟨s', hs', hp, hcell⟩ := commit_spec hf cells hm.length (moved_mem hm)
  refine ⟨cells, s', hs, by rw [applyScrollPatch_eq scroll hv hc hs, hs']; rfl, ?_, ?_, ?_, ?_, hcell, ?_,
    hp.cursor⟩
  · intro r hr y hy y' hy' he
    exact moved_kept hm hr (ha.fits r hr) hy hy' he
  · intro r hr
    exact moved_vacated hm hr (ha.fits r hr)
  · intro y x hx ho
    exact moved_outside hm ha.fits hx ho
  · intro scrolls' hperm
    have hc' : checkScrolls s.frame scrolls' = .ok () := checkScrolls_perm s.frame hperm ▸ hc
    obtain ⟨cells', hs₂, hm₂⟩ := scrollRegions_moved hf.frame.count (checkScrolls_ok hc')
    obtain rfl : cells = cells' := hm.unique hm₂ (fun m => (hperm.map _).mem_iff)
    refine ⟨hs₂, ?_⟩
    rw [applyScrollPatch_eq ⟨scrolls', scroll.patch⟩ hv hc' hs₂, hs']
    rfl
  · rw [hp.valid.count, hp.width, hp.height, hf.frame.count]

def letter (symbol : String) : CellData := ⟨symbol, 0, 0, 0, false, none⟩

def threeLines : PaneSurfaceFrame where
  bootId := "boot"
  projectionRevision := 1
  surfaceRevision := 4
  frame := ⟨[letter "a", letter "x", letter "b", letter "y", letter "c", letter "z"], 2, 3, none, [],
    []⟩
  panes := []
  splits := []
  popup := none
  graphics := ⟨[], [], []⟩

def oneUp : ScrollPatch where
  scrolls := [⟨⟨0, 0, 1, 3⟩, 1⟩, ⟨⟨1, 0, 1, 3⟩, -2⟩]
  patch := ⟨"boot", 1, 4, 5, [⟨0, 2, [letter "d"]⟩], [], none⟩

theorem scroll_patch_correct_threeLines :
    ∃ cells s', scrollRegions 2 threeLines.frame.cells oneUp.scrolls = some cells ∧
      threeLines.applyScrollPatch oneUp = some (.ok (), s') := by
  obtain ⟨cells, s', hs, ha, -⟩ :=
    scroll_patch_correct threeLines oneUp (by decide) (by decide)
  exact ⟨cells, s', hs, ha⟩

end Sheprd.Protocol
