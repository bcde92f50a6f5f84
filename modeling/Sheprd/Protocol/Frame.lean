import Sheprd.Lib.Slice
import Sheprd.Protocol.Wire

namespace Sheprd.Protocol

open Sheprd.Lib

def linkOutside (hyperlinks : List String) (c : CellData) : Bool :=
  c.hyperlink.any fun i => decide (hyperlinks.length ≤ i.toNat)

def cursorOutside (width height : UInt16) (cursor : Option CursorState) : Bool :=
  cursor.any fun c => c.visible && (decide (width ≤ c.x) || decide (height ≤ c.y))

def FrameData.validate (f : FrameData) : Except Error Unit :=
  if f.cells.length ≠ f.width.toNat * f.height.toNat then .error .cellCount
  else if f.cells.any (linkOutside f.hyperlinks) then .error .hyperlinkIndex
  else if cursorOutside f.width f.height f.cursor then .error .cursorBounds
  else .ok ()

structure FrameData.Valid (f : FrameData) : Prop where
  count : f.cells.length = f.width.toNat * f.height.toNat
  links : ∀ c ∈ f.cells, linkOutside f.hyperlinks c = false
  cursor : cursorOutside f.width f.height f.cursor = false

lemma FrameData.validate_ok_iff (f : FrameData) : f.validate = .ok () ↔ f.Valid := by
  rw [FrameData.validate]
  constructor
  · intro h
    split at h
    · exact absurd h (by simp)
    · rename_i hc
      split at h
      · exact absurd h (by simp)
      · rename_i hl
        split at h
        · exact absurd h (by simp)
        · rename_i hu
          simp only [Bool.not_eq_true, List.any_eq_false] at hl hu
          exact ⟨not_not.mp hc, fun c hc => by simpa using hl c hc, hu⟩
  · rintro ⟨hc, hl, hu⟩
    rw [if_neg (not_not.mpr hc), if_neg (by simpa using hl), if_neg (by simp [hu])]

instance (f : FrameData) : Decidable f.Valid :=
  decidable_of_iff _ f.validate_ok_iff

def rowOutside (f : FrameData) (row : PaneSurfacePatchRow) : Bool :=
  decide (f.height ≤ row.y) || decide (f.width.toNat < row.x.toNat + row.cells.length) ||
    row.cells.any (linkOutside f.hyperlinks)

def paneKnown (panes : List PaneSurfacePane) (pane : PaneSurfacePane) : Bool :=
  panes.any fun p => decide (p.paneId = pane.paneId ∧ p.rect = pane.rect ∧
    p.innerRect = pane.innerRect)

namespace PaneSurfaceFrame

def validatePatch (s : PaneSurfaceFrame) (p : PaneSurfacePatch) : Except Error Unit :=
  if p.bootId ≠ s.bootId ∨ p.projectionRevision ≠ s.projectionRevision ∨
      p.baseSurfaceRevision ≠ s.surfaceRevision ∨
      checkedSucc s.surfaceRevision ≠ some p.surfaceRevision ∨ s.popup.isSome then
    .error .patchIdentity
  else do
    s.frame.validate
    if p.rows.any (rowOutside s.frame) then .error .patchRowBounds
    else if p.panes.any (fun pane => !paneKnown s.panes pane) then .error .patchGeometry
    else if cursorOutside s.frame.width s.frame.height p.cursor then .error .patchCursorBounds
    else .ok ()

end PaneSurfaceFrame

def writeRow (width : UInt16) (cells : List CellData) (row : PaneSurfacePatchRow) :
    Option (List CellData) :=
  Slice.write cells (row.y.toNat * width.toNat + row.x.toNat) row.cells

def applyRows (cells : List CellData) (width : UInt16) (rows : List PaneSurfacePatchRow) :
    Option (List CellData) :=
  rows.foldlM (writeRow width) cells

def replacePane : List PaneSurfacePane → PaneSurfacePane → List PaneSurfacePane
  | [], _ => []
  | p :: panes, pane =>
      if p.paneId = pane.paneId then pane :: panes else p :: replacePane panes pane

namespace PaneSurfaceFrame

def commitPatch (s : PaneSurfaceFrame) (p : PaneSurfacePatch) : Option PaneSurfaceFrame := do
  let cells ← applyRows s.frame.cells s.frame.width p.rows
  some { s with
    frame := { s.frame with cells, cursor := p.cursor }
    panes := p.panes.foldl replacePane s.panes
    surfaceRevision := p.surfaceRevision }

def applyPatch (s : PaneSurfaceFrame) (p : PaneSurfacePatch) :
    Option (Except Error Unit × PaneSurfaceFrame) :=
  match s.validatePatch p with
  | .error e => some (.error e, s)
  | .ok () => (s.commitPatch p).map fun s' => (.ok (), s')

end PaneSurfaceFrame

structure PatchFollows (s : PaneSurfaceFrame) (p : PaneSurfacePatch) : Prop where
  bootId : p.bootId = s.bootId
  projection : p.projectionRevision = s.projectionRevision
  base : p.baseSurfaceRevision = s.surfaceRevision
  succ : checkedSucc s.surfaceRevision = some p.surfaceRevision
  popup : s.popup = none

structure PatchFits (s : PaneSurfaceFrame) (p : PaneSurfacePatch) : Prop extends
    PatchFollows s p where
  frame : s.frame.Valid
  rows : ∀ row ∈ p.rows, rowOutside s.frame row = false
  panes : ∀ pane ∈ p.panes, paneKnown s.panes pane = true
  cursor : cursorOutside s.frame.width s.frame.height p.cursor = false

lemma validatePatch_ok_iff (s : PaneSurfaceFrame) (p : PaneSurfacePatch) :
    s.validatePatch p = .ok () ↔ PatchFits s p := by
  rw [PaneSurfaceFrame.validatePatch]
  constructor
  · intro h
    split at h
    · exact absurd h (by simp)
    · rename_i hid
      simp only [not_or, not_not, Option.isSome_iff_ne_none] at hid
      cases hv : s.frame.validate with
      | error e =>
        rw [hv] at h
        exact absurd h (by simp [bind, Except.bind])
      | ok u =>
        rw [hv] at h
        simp only [bind, Except.bind] at h
        split at h
        · exact absurd h (by simp)
        · rename_i hr
          split at h
          · exact absurd h (by simp)
          · rename_i hp
            split at h
            · exact absurd h (by simp)
            · rename_i hc
              simp only [Bool.not_eq_true, List.any_eq_false] at hr hp hc
              exact
                { bootId := hid.1
                  projection := hid.2.1
                  base := hid.2.2.1
                  succ := hid.2.2.2.1
                  popup := hid.2.2.2.2
                  frame := s.frame.validate_ok_iff.mp hv
                  rows := fun row hrow => by simpa using hr row hrow
                  panes := fun pane hpane => by simpa using hp pane hpane
                  cursor := hc }
  · intro h
    rw [if_neg (by simp [h.bootId, h.projection, h.base, h.succ, h.popup]),
      s.frame.validate_ok_iff.mpr h.frame]
    simp only [bind, Except.bind]
    rw [if_neg (by simpa using h.rows), if_neg (by simpa using h.panes),
      if_neg (by simp [h.cursor])]

lemma validate_not_identity (f : FrameData) : f.validate ≠ .error .patchIdentity := by
  rw [FrameData.validate]
  split_ifs
  all_goals simp

lemma validatePatch_identity {s : PaneSurfaceFrame} {p : PaneSurfacePatch} (h : PatchFollows s p) :
    s.validatePatch p ≠ .error .patchIdentity := by
  rw [PaneSurfaceFrame.validatePatch,
    if_neg (by simp [h.bootId, h.projection, h.base, h.succ, h.popup])]
  have hv := validate_not_identity s.frame
  cases hf : s.frame.validate with
  | error e =>
    rw [hf] at hv
    simpa [bind, Except.bind] using hv
  | ok u =>
    simp only [bind, Except.bind]
    split_ifs
    all_goals simp

lemma rowOutside_eq_false {f : FrameData} {row : PaneSurfacePatchRow}
    (h : rowOutside f row = false) :
    row.y.toNat < f.height.toNat ∧ row.x.toNat + row.cells.length ≤ f.width.toNat ∧
      ∀ c ∈ row.cells, linkOutside f.hyperlinks c = false := by
  simp only [rowOutside, Bool.or_eq_false_iff, decide_eq_false_iff_not, List.any_eq_false,
    Bool.not_eq_true] at h
  obtain ⟨⟨hy, hx⟩, hl⟩ := h
  rw [UInt16.not_le, UInt16.lt_iff_toNat_lt] at hy
  exact ⟨hy, by omega, hl⟩

def patchCell (rows : List PaneSurfacePatchRow) (y x : ℕ) : Option CellData :=
  match rows with
  | [] => none
  | row :: rest =>
      match patchCell rest y x with
      | some c => some c
      | none =>
          if row.y.toNat = y ∧ row.x.toNat ≤ x ∧ x < row.x.toNat + row.cells.length then
            row.cells[x - row.x.toNat]?
          else none

lemma position_lt {w h y x : ℕ} (hy : y < h) (hx : x ≤ w) : y * w + x ≤ h * w := by
  have hm : (y + 1) * w ≤ h * w := Nat.mul_le_mul_right _ hy
  rw [Nat.add_mul, Nat.one_mul] at hm
  omega

lemma position_inj {w y y' x x' : ℕ} (hx : x < w) (hx' : x' < w) (h : y * w + x = y' * w + x') :
    y = y' ∧ x = x' := by
  have hw : 0 < w := by omega
  have hdiv : ∀ {y x}, x < w → (y * w + x) / w = y := by
    intro y x hx
    rw [Nat.mul_comm, Nat.mul_add_div hw, Nat.div_eq_of_lt hx, Nat.add_zero]
  have hy : y = y' := by rw [← hdiv (y := y) hx, h, hdiv hx']
  subst hy
  exact ⟨rfl, by omega⟩

lemma writeRow_spec {f : FrameData} {cells : List CellData} {row : PaneSurfacePatchRow}
    (hc : cells.length = f.width.toNat * f.height.toNat) (hr : rowOutside f row = false) :
    ∃ cells', writeRow f.width cells row = some cells' ∧ cells'.length = cells.length ∧
      (∀ c ∈ cells', c ∈ cells ∨ c ∈ row.cells) ∧
      ∀ y x, x < f.width.toNat → cells'[y * f.width.toNat + x]? =
        if row.y.toNat = y ∧ row.x.toNat ≤ x ∧ x < row.x.toNat + row.cells.length then
          row.cells[x - row.x.toNat]?
        else cells[y * f.width.toNat + x]? := by
  obtain ⟨hy, hx, -⟩ := rowOutside_eq_false hr
  have hpos : row.y.toNat * f.width.toNat + (row.x.toNat + row.cells.length) ≤ cells.length := by
    rw [hc, Nat.mul_comm f.width.toNat]
    exact position_lt hy hx
  obtain ⟨cells', hw⟩ := Slice.write_isSome cells row.cells
    (row.y.toNat * f.width.toNat + row.x.toNat) (by omega)
  refine ⟨cells', hw, Slice.write_length hw, ?_, ?_⟩
  · intro c hmem
    obtain ⟨i, hi⟩ := List.mem_iff_getElem?.mp hmem
    rw [Slice.write_getElem? hw] at hi
    split at hi
    · exact Or.inr (List.mem_iff_getElem?.mpr ⟨_, hi⟩)
    · exact Or.inl (List.mem_iff_getElem?.mpr ⟨_, hi⟩)
  · intro y x hxw
    rw [Slice.write_getElem? hw]
    by_cases hin : row.y.toNat = y ∧ row.x.toNat ≤ x ∧ x < row.x.toNat + row.cells.length
    · obtain ⟨rfl, hlo, hhi⟩ := hin
      rw [if_pos ⟨by omega, by omega⟩, if_pos ⟨rfl, hlo, hhi⟩]
      congr 1
      omega
    · rw [if_neg hin, if_neg]
      rintro ⟨hlo, hhi⟩
      have hs : y * f.width.toNat + x = row.y.toNat * f.width.toNat +
          (row.x.toNat + (y * f.width.toNat + x - (row.y.toNat * f.width.toNat + row.x.toNat))) := by
        omega
      obtain ⟨rfl, hxx⟩ := position_inj hxw (by omega) hs
      exact hin ⟨rfl, by omega, by omega⟩

lemma applyRows_spec {f : FrameData} (cells : List CellData) {rows : List PaneSurfacePatchRow}
    (hc : cells.length = f.width.toNat * f.height.toNat)
    (hr : ∀ row ∈ rows, rowOutside f row = false) :
    ∃ cells', applyRows cells f.width rows = some cells' ∧ cells'.length = cells.length ∧
      (∀ c ∈ cells', c ∈ cells ∨ ∃ row ∈ rows, c ∈ row.cells) ∧
      ∀ y x, x < f.width.toNat → cells'[y * f.width.toNat + x]? =
        (patchCell rows y x).or cells[y * f.width.toNat + x]? := by
  induction rows generalizing cells with
  | nil => exact ⟨cells, rfl, rfl, fun c h => Or.inl h, fun y x _ => rfl⟩
  | cons row rows ih =>
    obtain ⟨c₁, hw, hl, hmem, hcell⟩ := writeRow_spec hc (hr row (by simp))
    obtain ⟨c₂, hw', hl', hmem', hcell'⟩ :=
      ih c₁ (by rw [hl, hc]) (fun r h => hr r (by simp [h]))
    refine ⟨c₂, ?_, hl'.trans hl, ?_, ?_⟩
    · rw [applyRows, List.foldlM_cons, hw]
      exact hw'
    · intro c h
      rcases hmem' c h with h | ⟨r, hrow, h⟩
      · rcases hmem c h with h | h
        · exact Or.inl h
        · exact Or.inr ⟨row, by simp, h⟩
      · exact Or.inr ⟨r, by simp [hrow], h⟩
    · intro y x hx
      rw [hcell' y x hx, hcell y x hx, patchCell]
      cases patchCell rows y x with
      | some c => rfl
      | none =>
        simp only [Option.none_or]
        split
        · rename_i hin
          rw [List.getElem?_eq_getElem (by omega), Option.some_or]
        · rfl

structure Patched (s s' : PaneSurfaceFrame) (p : PaneSurfacePatch) : Prop where
  valid : s'.frame.Valid
  width : s'.frame.width = s.frame.width
  height : s'.frame.height = s.frame.height
  hyperlinks : s'.frame.hyperlinks = s.frame.hyperlinks
  cursor : s'.frame.cursor = p.cursor
  bootId : s'.bootId = s.bootId
  projection : s'.projectionRevision = s.projectionRevision
  revision : s'.surfaceRevision = p.surfaceRevision
  popup : s'.popup = s.popup
  graphics : s'.graphics = s.graphics

lemma commit_spec {s : PaneSurfaceFrame} {p : PaneSurfacePatch} (h : PatchFits s p)
    (cells : List CellData) (hlen : cells.length = s.frame.cells.length)
    (hmem : ∀ c ∈ cells, c ∈ s.frame.cells) :
    ∃ s', ({ s with frame := { s.frame with cells } }).commitPatch p = some s' ∧ Patched s s' p ∧
      ∀ y x, x < s.frame.width.toNat → s'.frame.cells[y * s.frame.width.toNat + x]? =
        (patchCell p.rows y x).or cells[y * s.frame.width.toNat + x]? := by
  obtain ⟨cells', hw, hl, hm, hcell⟩ :=
    applyRows_spec cells (hlen.trans h.frame.count) h.rows
  refine ⟨_, by simp only [PaneSurfaceFrame.commitPatch, hw]; rfl, ?_, hcell⟩
  exact
    { valid :=
        { count := hl.trans (hlen.trans h.frame.count)
          links := by
            intro c hc
            rcases hm c hc with hc | ⟨row, hrow, hc⟩
            · exact h.frame.links c (hmem c hc)
            · exact (rowOutside_eq_false (h.rows row hrow)).2.2 c hc
          cursor := h.cursor }
      width := rfl
      height := rfl
      hyperlinks := rfl
      cursor := rfl
      bootId := rfl
      projection := rfl
      revision := rfl
      popup := rfl
      graphics := rfl }

lemma applyPatch_spec (s : PaneSurfaceFrame) (p : PaneSurfacePatch) :
    (∃ e, s.validatePatch p = .error e ∧ s.applyPatch p = some (.error e, s)) ∨
      ∃ s', PatchFits s p ∧ s.applyPatch p = some (.ok (), s') ∧ Patched s s' p := by
  cases hv : s.validatePatch p with
  | error e => exact Or.inl ⟨e, rfl, by simp only [PaneSurfaceFrame.applyPatch, hv]⟩
  | ok u =>
    have hf := (validatePatch_ok_iff s p).mp hv
    obtain ⟨s', hs, hp, -⟩ := commit_spec hf s.frame.cells rfl (fun c h => h)
    exact Or.inr ⟨s', hf, by
      simp only [PaneSurfaceFrame.applyPatch, hv]
      rw [show s.commitPatch p = some s' from hs]
      rfl, hp⟩

end Sheprd.Protocol
