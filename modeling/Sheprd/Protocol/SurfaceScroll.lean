import Sheprd.Lib.Grid
import Sheprd.Protocol.Frame

namespace Sheprd.Protocol

open Sheprd.Lib Sheprd.Lib.Grid

structure SurfaceScroll where
  rect : SurfaceRect
  shift : Int16

structure ScrollPatch where
  scrolls : List SurfaceScroll
  patch : PaneSurfacePatch

def checkedAdd (a b : UInt16) : Option UInt16 :=
  if a.toNat + b.toNat < 2 ^ 16 then some (a + b) else none

def SurfaceScroll.distance (scroll : SurfaceScroll) : ℕ := scroll.shift.toInt.natAbs

def scrollFits (width height : UInt16) (scroll : SurfaceScroll) : Bool :=
  decide (0 < scroll.rect.width) && decide (2 ≤ scroll.rect.height) && decide (scroll.shift ≠ 0) &&
    decide (scroll.distance < scroll.rect.height.toNat) &&
    (checkedAdd scroll.rect.x scroll.rect.width).any (fun e => decide (e ≤ width)) &&
    (checkedAdd scroll.rect.y scroll.rect.height).any (fun e => decide (e ≤ height))

def rectsOverlap (a b : SurfaceRect) : Bool :=
  decide (a.x < b.x + b.width) && decide (b.x < a.x + a.width) &&
    decide (a.y < b.y + b.height) && decide (b.y < a.y + a.height)

def anyOverlap : List SurfaceScroll → Bool
  | [] => false
  | scroll :: rest => rest.any (fun other => rectsOverlap scroll.rect other.rect) || anyOverlap rest

def forEachSwap {σ : Type} (height : ℕ) (shift : Int16) (swap : σ → ℕ → ℕ → Option σ) (s : σ) :
    Option σ :=
  let distance := shift.toInt.natAbs
  if 0 < shift then
    if distance ≤ height then
      (List.range (height - distance)).foldlM (fun s y => swap s y (y + distance)) s
    else none
  else (List.range' distance (height - distance)).reverse.foldlM (fun s y => swap s y (y - distance)) s

def rowStart (rect : SurfaceRect) (stride y : ℕ) : ℕ := (rect.y.toNat + y) * stride + rect.x.toNat

def scrollRegion (stride : ℕ) (cells : List CellData) (scroll : SurfaceScroll) :
    Option (List CellData) :=
  forEachSwap scroll.rect.height.toNat scroll.shift (fun cells a b =>
    Slice.swap cells (rowStart scroll.rect stride (min a b)) (rowStart scroll.rect stride (max a b))
      scroll.rect.width.toNat) cells

def scrollRegions (width : UInt16) (cells : List CellData) (scrolls : List SurfaceScroll) :
    Option (List CellData) :=
  scrolls.foldlM (scrollRegion width.toNat) cells

def checkScrolls (f : FrameData) (scrolls : List SurfaceScroll) : Except Error Unit :=
  if !scrolls.all (scrollFits f.width f.height) then .error .scrollBounds
  else if anyOverlap scrolls then .error .scrollBounds
  else .ok ()

def PaneSurfaceFrame.applyScrollPatch (s : PaneSurfaceFrame) (scroll : ScrollPatch) :
    Option (Except Error Unit × PaneSurfaceFrame) :=
  match s.validatePatch scroll.patch with
  | .error e => some (.error e, s)
  | .ok () =>
      match checkScrolls s.frame scroll.scrolls with
      | .error e => some (.error e, s)
      | .ok () => do
          let cells ← scrollRegions s.frame.width s.frame.cells scroll.scrolls
          let s' ← ({ s with frame := { s.frame with cells } }).commitPatch scroll.patch
          some (.ok (), s')

def SurfaceScroll.region (scroll : SurfaceScroll) (stride : ℕ) : Region :=
  ⟨stride, scroll.rect.y.toNat, scroll.rect.x.toNat, scroll.rect.height.toNat,
    scroll.rect.width.toNat⟩

def SurfaceScroll.pairs (scroll : SurfaceScroll) : List (ℕ × ℕ) :=
  if 0 < scroll.shift then ascending scroll.rect.height.toNat scroll.distance
  else descending scroll.rect.height.toNat scroll.distance

structure ScrollFits (width height : UInt16) (scroll : SurfaceScroll) : Prop where
  distance_pos : 0 < scroll.distance
  distance_lt : scroll.distance < scroll.rect.height.toNat
  right : scroll.rect.x.toNat + scroll.rect.width.toNat ≤ width.toNat
  bottom : scroll.rect.y.toNat + scroll.rect.height.toNat ≤ height.toNat

lemma checkedAdd_any {a b c : UInt16}
    (h : (checkedAdd a b).any (fun e => decide (e ≤ c)) = true) :
    a.toNat + b.toNat ≤ c.toNat := by
  rw [checkedAdd] at h
  split at h
  · rename_i hlt
    simp only [Option.any_some, decide_eq_true_eq, UInt16.le_iff_toNat_le, UInt16.toNat_add] at h
    omega
  · exact absurd h (by simp)

lemma scrollFits_spec {width height : UInt16} {scroll : SurfaceScroll}
    (h : scrollFits width height scroll = true) : ScrollFits width height scroll := by
  simp only [scrollFits, Bool.and_eq_true, decide_eq_true_eq] at h
  obtain ⟨⟨⟨⟨⟨-, -⟩, hs⟩, hd⟩, hx⟩, hy⟩ := h
  refine ⟨?_, hd, checkedAdd_any hx, checkedAdd_any hy⟩
  rw [SurfaceScroll.distance, Int.natAbs_pos]
  intro hz
  exact hs (Int16.toInt_inj.mp (by rw [hz]; rfl))

lemma region_fits {f : FrameData} {scroll : SurfaceScroll} {cells : List CellData}
    (hc : cells.length = f.width.toNat * f.height.toNat) (h : ScrollFits f.width f.height scroll) :
    (scroll.region f.width.toNat).Fits cells.length := by
  refine ⟨h.right, ?_⟩
  rw [hc, Nat.mul_comm f.width.toNat]
  exact Nat.mul_le_mul_right _ h.bottom

lemma pairs_inside {width height : UInt16} {scroll : SurfaceScroll}
    (h : ScrollFits width height scroll) :
    ∀ p ∈ scroll.pairs, p.1 < scroll.rect.height.toNat ∧ p.2 < scroll.rect.height.toNat ∧
      p.1 ≠ p.2 := by
  intro p hp
  have hd := h.distance_pos
  have hl := h.distance_lt
  rw [SurfaceScroll.pairs] at hp
  split at hp
  · obtain ⟨y, hy, rfl⟩ := List.mem_map.mp hp
    have hy' := List.mem_range.mp hy
    dsimp only
    omega
  · obtain ⟨y, hy, rfl⟩ := List.mem_map.mp hp
    have hy' := List.mem_range'_1.mp (List.mem_reverse.mp hy)
    dsimp only
    omega

lemma foldlM_map_pairs {σ : Type} (swap : σ → ℕ → ℕ → Option σ) (ys : List ℕ) (p : ℕ → ℕ × ℕ)
    (s : σ) : ys.foldlM (fun s y => swap s (p y).1 (p y).2) s =
      (ys.map p).foldlM (fun s q => swap s q.1 q.2) s := by
  induction ys generalizing s with
  | nil => rfl
  | cons y ys ih =>
    simp only [List.map_cons, List.foldlM_cons]
    congr 1
    funext t
    exact ih t

lemma forEachSwap_eq {σ : Type} {width height : UInt16} {scroll : SurfaceScroll}
    (h : ScrollFits width height scroll) (swap : σ → ℕ → ℕ → Option σ) (s : σ) :
    forEachSwap scroll.rect.height.toNat scroll.shift swap s =
      scroll.pairs.foldlM (fun s p => swap s p.1 p.2) s := by
  have hd : scroll.shift.toInt.natAbs ≤ scroll.rect.height.toNat := h.distance_lt.le
  simp only [forEachSwap, SurfaceScroll.pairs]
  by_cases hpos : 0 < scroll.shift
  · rw [if_pos hpos, if_pos hpos, if_pos hd]
    exact foldlM_map_pairs swap _ (fun y => (y, y + scroll.distance)) s
  · rw [if_neg hpos, if_neg hpos]
    exact foldlM_map_pairs swap _ (fun y => (y, y - scroll.distance)) s

def SurfaceScroll.move (scroll : SurfaceScroll) (stride : ℕ) : Region × (ℕ → ℕ) :=
  (scroll.region stride, swaps scroll.pairs id)

lemma scrollRegion_moved {f : FrameData} {cells : List CellData} {scroll : SurfaceScroll}
    (hc : cells.length = f.width.toNat * f.height.toNat) (h : ScrollFits f.width f.height scroll) :
    ∃ cells', scrollRegion f.width.toNat cells scroll = some cells' ∧
      Moved (scroll.region f.width.toNat) (swaps scroll.pairs id) cells cells' := by
  obtain ⟨cells', hs, hm⟩ := foldlM_swapRows (region_fits hc h) (pairs_inside h)
  refine ⟨cells', ?_, hm⟩
  rw [scrollRegion, forEachSwap_eq h]
  exact hs

lemma rectsOverlap_comm (a b : SurfaceRect) : rectsOverlap a b = rectsOverlap b a := by
  simp only [rectsOverlap]
  ac_rfl

lemma anyOverlap_eq_false {scrolls : List SurfaceScroll} :
    anyOverlap scrolls = false ↔
      scrolls.Pairwise fun a b => rectsOverlap a.rect b.rect = false := by
  induction scrolls with
  | nil => simp [anyOverlap]
  | cons scroll rest ih => simp [anyOverlap, ih, List.pairwise_cons]

lemma regions_disjoint {width height : UInt16} {a b : SurfaceScroll}
    (ha : ScrollFits width height a) (hb : ScrollFits width height b)
    (h : rectsOverlap a.rect b.rect = false) (i : ℕ) (hi : (a.region width.toNat).Mem i) :
    ¬ (b.region width.toNat).Mem i := by
  obtain ⟨y, hy, x, hx, rfl⟩ := hi
  rintro ⟨y', hy', x', hx', he⟩
  simp only [SurfaceScroll.region, Region.index] at *
  have ha' := ha.right
  have hb' := hb.right
  obtain ⟨hl, hr⟩ := position_inj (w := width.toNat) (by omega) (by omega)
    ((Nat.add_assoc _ _ _).symm.trans (he.trans (Nat.add_assoc _ _ _)))
  have hah := ha.bottom
  have hbh := hb.bottom
  have hw := width.toNat_lt
  have hh := height.toNat_lt
  rw [← Bool.not_eq_true] at h
  apply h
  simp only [rectsOverlap, Bool.and_eq_true, decide_eq_true_eq, UInt16.lt_iff_toNat_lt,
    UInt16.toNat_add]
  omega

structure Accepted (f : FrameData) (scrolls : List SurfaceScroll) : Prop where
  fits : ∀ scroll ∈ scrolls, ScrollFits f.width f.height scroll
  apart : scrolls.Pairwise fun a b => rectsOverlap a.rect b.rect = false

lemma checkScrolls_ok {f : FrameData} {scrolls : List SurfaceScroll}
    (h : checkScrolls f scrolls = .ok ()) : Accepted f scrolls := by
  rw [checkScrolls] at h
  split at h
  · exact absurd h (by simp)
  · rename_i hfit
    split at h
    · exact absurd h (by simp)
    · rename_i hover
      simp only [Bool.not_eq_eq_eq_not, Bool.not_true, Bool.not_eq_false, List.all_eq_true] at hfit
      exact ⟨fun scroll hs => scrollFits_spec (hfit scroll hs),
        anyOverlap_eq_false.mp (by simpa using hover)⟩

lemma checkScrolls_perm (f : FrameData) {scrolls scrolls' : List SurfaceScroll}
    (h : scrolls.Perm scrolls') : checkScrolls f scrolls = checkScrolls f scrolls' := by
  have hall : scrolls.all (scrollFits f.width f.height) =
      scrolls'.all (scrollFits f.width f.height) := by
    rw [Bool.eq_iff_iff, List.all_eq_true, List.all_eq_true]
    exact forall_congr' fun scroll => by rw [h.mem_iff]
  have hany : anyOverlap scrolls = anyOverlap scrolls' := by
    have hiff : anyOverlap scrolls = false ↔ anyOverlap scrolls' = false := by
      rw [anyOverlap_eq_false, anyOverlap_eq_false]
      apply h.pairwise_iff
      intro a b hab
      rw [rectsOverlap_comm, hab]
    cases ha : anyOverlap scrolls
    · exact (hiff.mp ha).symm
    · cases hb : anyOverlap scrolls'
      · exact absurd (hiff.mpr hb) (by simp [ha])
      · rfl
  rw [checkScrolls, checkScrolls, hall, hany]

lemma scrollRegions_moved {f : FrameData} {scrolls : List SurfaceScroll} {cells : List CellData}
    (hc : cells.length = f.width.toNat * f.height.toNat) (h : Accepted f scrolls) :
    ∃ cells', scrollRegions f.width cells scrolls = some cells' ∧
      MovedAll (scrolls.map (·.move f.width.toNat)) cells cells' := by
  induction scrolls generalizing cells with
  | nil => exact ⟨cells, rfl, MovedAll.nil cells⟩
  | cons scroll rest ih =>
    obtain ⟨c, hs, hm⟩ := scrollRegion_moved hc (h.fits scroll (by simp))
    have hrest : Accepted f rest :=
      ⟨fun r hr => h.fits r (by simp [hr]), (List.pairwise_cons.mp h.apart).2⟩
    obtain ⟨c', hs', hm'⟩ := ih (by rw [hm.length, hc]) hrest
    refine ⟨c', ?_, ?_⟩
    · rw [scrollRegions, List.foldlM_cons, hs]
      exact hs'
    · apply MovedAll.cons hm hm'
      · intro m hmem i hi
        obtain ⟨r, hr, rfl⟩ := List.mem_map.mp hmem
        exact regions_disjoint (h.fits scroll (by simp)) (h.fits r (by simp [hr]))
          ((List.pairwise_cons.mp h.apart).1 r hr) i hi
      · intro m hmem
        obtain ⟨r, hr, rfl⟩ := List.mem_map.mp hmem
        exact swaps_lt (fun p hp => ⟨(pairs_inside (hrest.fits r hr) p hp).1,
          (pairs_inside (hrest.fits r hr) p hp).2.1⟩) (fun y hy => hy)

lemma moved_mem {moves : List (Region × (ℕ → ℕ))} {cells cells' : List CellData}
    (h : MovedAll moves cells cells') : ∀ c ∈ cells', c ∈ cells := by
  intro c hc
  obtain ⟨i, hi⟩ := List.mem_iff_getElem?.mp hc
  by_cases hin : ∃ m ∈ moves, m.1.Mem i
  · obtain ⟨m, hm, y, hy, x, hx, rfl⟩ := hin
    rw [h.inside m hm y hy x hx] at hi
    exact List.mem_iff_getElem?.mpr ⟨_, hi⟩
  · rw [h.outside i (fun m hm hmem => hin ⟨m, hm, hmem⟩)] at hi
    exact List.mem_iff_getElem?.mpr ⟨_, hi⟩

lemma applyScrollPatch_eq {s : PaneSurfaceFrame} (scroll : ScrollPatch)
    (hv : s.validatePatch scroll.patch = .ok ())
    (hc : checkScrolls s.frame scroll.scrolls = .ok ()) {cells : List CellData}
    (hs : scrollRegions s.frame.width s.frame.cells scroll.scrolls = some cells) :
    s.applyScrollPatch scroll =
      (({ s with frame := { s.frame with cells } }).commitPatch scroll.patch).map
        fun s' => (.ok (), s') := by
  simp only [PaneSurfaceFrame.applyScrollPatch, hv, hc, hs, Option.bind_eq_bind, Option.bind_some]
  cases ({ s with frame := { s.frame with cells } }).commitPatch scroll.patch <;> rfl

lemma applyScrollPatch_spec (s : PaneSurfaceFrame) (scroll : ScrollPatch) :
    (∃ e, s.applyScrollPatch scroll = some (.error e, s)) ∨
      ∃ s', PatchFits s scroll.patch ∧ s.applyScrollPatch scroll = some (.ok (), s') ∧
        Patched s s' scroll.patch := by
  cases hv : s.validatePatch scroll.patch with
  | error e => exact Or.inl ⟨e, by simp only [PaneSurfaceFrame.applyScrollPatch, hv]⟩
  | ok u =>
    cases hc : checkScrolls s.frame scroll.scrolls with
    | error e => exact Or.inl ⟨e, by simp only [PaneSurfaceFrame.applyScrollPatch, hv, hc]⟩
    | ok u =>
      have hf := (validatePatch_ok_iff s scroll.patch).mp hv
      obtain ⟨cells, hs, hm⟩ := scrollRegions_moved hf.frame.count (checkScrolls_ok hc)
      obtain ⟨s', hs', hp, -⟩ := commit_spec hf cells hm.length (moved_mem hm)
      refine Or.inr ⟨s', hf, ?_, hp⟩
      rw [applyScrollPatch_eq scroll hv hc hs, hs']
      rfl

end Sheprd.Protocol
