import Sheprd.Lib.Spans
import Sheprd.Protocol.SurfaceEncodings

namespace Sheprd.Protocol

open Sheprd.Lib

def PaneSurfacePatchRow.span (width : UInt16) (row : PaneSurfacePatchRow) : Span CellData where
  start := row.y.toNat * width.toNat + row.x.toNat
  cells := row.cells

def spans (width : UInt16) (rows : List PaneSurfacePatchRow) : List (Span CellData) :=
  rows.map (PaneSurfacePatchRow.span width)

lemma applyRows_eq (cells : List CellData) (width : UInt16) (rows : List PaneSurfacePatchRow) :
    applyRows cells width rows = Span.writeAll cells (spans width rows) := by
  rw [applyRows, Span.writeAll, spans, List.foldlM_map]
  rfl

lemma checkSpans_apart {width height : UInt16} {budget previousEnd total : ℕ}
    {rows : List PaneSurfacePatchRow}
    (h : checkSpans width height budget previousEnd total rows = .ok ()) :
    Span.Apart (spans width rows) ∧ ∀ s ∈ spans width rows, previousEnd ≤ s.start := by
  induction rows generalizing previousEnd total with
  | nil => exact ⟨List.Pairwise.nil, by simp [spans]⟩
  | cons row rows ih =>
    rw [checkSpans] at h
    split at h
    · cases h
    · dsimp only at h
      split at h
      · cases h
      · next ordered =>
        rw [not_or, not_lt] at ordered
        obtain ⟨apart, after⟩ := ih h
        refine ⟨List.pairwise_cons.mpr ⟨after, apart⟩, ?_⟩
        refine List.forall_mem_cons.mpr ⟨ordered.1, fun s hs => ?_⟩
        exact ordered.1.trans ((Nat.le_add_right _ _).trans (after s hs))

lemma checkRows_apart {rows : List PaneSurfacePatchRow} {width height : UInt16}
    (h : checkRows rows width height = .ok ()) : Span.Apart (spans width rows) := by
  obtain ⟨budget, -, checked⟩ := bind_eq_ok.mp h
  split at checked
  · cases checked
  · exact (checkSpans_apart checked).1

lemma RowInside.stop_le {width height : UInt16} {row : PaneSurfacePatchRow}
    (h : RowInside width height row) : (row.span width).stop ≤ width.toNat * height.toNat := by
  have fits := position_lt h.1 h.2
  rw [Nat.mul_comm width.toNat]
  change row.y.toNat * width.toNat + row.x.toNat + row.cells.length ≤ _
  omega

lemma applyRows_checked {rows : List PaneSurfacePatchRow} {width height : UInt16}
    (h : checkRows rows width height = .ok ()) {cells : List CellData}
    (size : cells.length = width.toNat * height.toNat) (cells' : List CellData) :
    applyRows cells width rows = some cells' ↔ Span.Overwritten cells (spans width rows) cells' := by
  rw [applyRows_eq]
  refine Span.writeAll_eq_some (checkRows_apart h) fun s hs => ?_
  obtain ⟨row, hrow, rfl⟩ := List.mem_map.mp hs
  rw [size]
  exact (checkRows_ok h row hrow).stop_le

structure DeltaFollows (delta : SurfaceDelta) (base : PaneSurfaceFrame) : Prop where
  boot : delta.surface.bootId = base.bootId
  baseProjection : delta.baseProjectionRevision = base.projectionRevision
  baseSurface : delta.baseSurfaceRevision = base.surfaceRevision
  succ : checkedSucc base.surfaceRevision = some delta.surface.surfaceRevision
  projection : base.projectionRevision ≤ delta.surface.projectionRevision
  width : delta.surface.frame.width = base.frame.width
  height : delta.surface.frame.height = base.frame.height
  count : base.frame.cells.length = base.frame.width.toNat * base.frame.height.toNat

inductive PopupFollows (previous : Option ClientShellPopupSurface) :
    Option ClientShellPopupSurface → Option GridUpdate → Option ClientShellPopupSurface → Prop where
  | closed : PopupFollows previous none none none
  | replaced (popup : ClientShellPopupSurface) (cells : List CellData) :
      PopupFollows previous (some popup) (some (.replace cells)) (some (withCells popup cells))
  | patched (popup last : ClientShellPopupSurface) (rows : List PaneSurfacePatchRow)
      (cells : List CellData) (kept : previous = some last) (same : samePopupGrid last popup = true)
      (written : Span.Overwritten last.frame.cells (spans popup.frame.width rows) cells) :
      PopupFollows previous (some popup) (some (.patch rows)) (some (withCells popup cells))

def expanded (surface : PaneSurfaceFrame) (cells : List CellData)
    (popup : Option ClientShellPopupSurface) : PaneSurfaceFrame :=
  { surface with frame := { surface.frame with cells }, popup }

structure Describes (delta : SurfaceDelta) (base next : PaneSurfaceFrame) : Prop where
  follows : DeltaFollows delta base
  metadata : next = expanded delta.surface next.frame.cells next.popup
  cells : Span.Overwritten base.frame.cells (spans base.frame.width delta.rows) next.frame.cells
  popup : PopupFollows base.popup delta.surface.popup delta.popupCells next.popup

lemma popupFollows_iff {previous popup next : Option ClientShellPopupSurface}
    {update : Option GridUpdate} (h : checkPopup popup update = .ok ()) :
    reconstructPopup previous popup update = some (.ok next) ↔
      PopupFollows previous popup update next := by
  cases popup with
  | none =>
    cases update with
    | none =>
      simp only [reconstructPopup, Option.some.injEq, Except.ok.injEq]
      exact ⟨fun same => same ▸ .closed, fun h => by cases h; rfl⟩
    | some update => cases h
  | some popup =>
    cases update with
    | none => exact ⟨by simp [reconstructPopup], fun h => by cases h⟩
    | some update =>
      cases update with
      | replace cells =>
        simp only [reconstructPopup, Option.some.injEq, Except.ok.injEq]
        exact ⟨fun same => same ▸ .replaced popup cells, fun h => by cases h; rfl⟩
      | patch rows =>
        obtain ⟨-, -, checked⟩ := bind_eq_ok.mp h
        have size : ∀ last : ClientShellPopupSurface, samePopupGrid last popup = true →
            last.frame.cells.length = popup.frame.width.toNat * popup.frame.height.toNat := by
          intro last same
          simp only [samePopupGrid, Bool.and_eq_true, decide_eq_true_eq] at same
          exact same.2
        constructor
        · intro same
          simp only [reconstructPopup] at same
          split at same
          · simp at same
          · next last kept =>
            obtain ⟨was, grid⟩ := Option.filter_eq_some_iff.mp kept
            obtain ⟨cells, written, made⟩ := Option.bind_eq_some_iff.mp same
            cases made
            exact .patched popup last rows cells was grid
              ((applyRows_checked checked (size last grid) cells).mp written)
        · intro follows
          cases follows with
          | patched _ last _ cells kept grid written =>
            have some_ : previous.filter (fun previous => samePopupGrid previous popup) = some last :=
              Option.filter_eq_some_iff.mpr ⟨kept, grid⟩
            simp only [reconstructPopup, some_]
            rw [(applyRows_checked checked (size last grid) cells).mpr written]
            rfl

lemma follows_iff (delta : SurfaceDelta) (base : PaneSurfaceFrame) :
    DeltaFollows delta base ↔
      ¬ (delta.surface.bootId ≠ base.bootId ∨ delta.baseProjectionRevision ≠ base.projectionRevision ∨
        delta.baseSurfaceRevision ≠ base.surfaceRevision ∨
        checkedSucc base.surfaceRevision ≠ some delta.surface.surfaceRevision ∨
        delta.surface.projectionRevision < base.projectionRevision ∨
        delta.surface.frame.width ≠ base.frame.width ∨ delta.surface.frame.height ≠ base.frame.height ∨
        base.frame.cells.length ≠ base.frame.width.toNat * base.frame.height.toNat) := by
  simp only [not_or, not_not, UInt64.not_lt]
  constructor
  · rintro ⟨boot, baseProjection, baseSurface, succ, projection, width, height, count⟩
    exact ⟨boot, baseProjection, baseSurface, succ, projection, width, height, count⟩
  · rintro ⟨boot, baseProjection, baseSurface, succ, projection, width, height, count⟩
    exact ⟨boot, baseProjection, baseSurface, succ, projection, width, height, count⟩

lemma reconstruct_iff {delta : SurfaceDelta} (h : delta.check = .ok ()) (base next : PaneSurfaceFrame) :
    delta.reconstruct base = some (.ok next) ↔ Describes delta base next := by
  obtain ⟨_, empty, hchecks⟩ := bind_eq_ok.mp h
  obtain ⟨_, hrows, hpopup⟩ := bind_eq_ok.mp hchecks
  constructor
  · intro same
    unfold SurfaceDelta.reconstruct at same
    dsimp only at same
    split at same
    · simp at same
    · next base_ =>
      have follows := (follows_iff delta base).mpr base_
      obtain ⟨r, made, rest⟩ := Option.bind_eq_some_iff.mp same
      cases r with
      | error e => simp at rest
      | ok popup =>
        obtain ⟨cells, written, same⟩ := Option.bind_eq_some_iff.mp rest
        cases same
        rw [follows.width, follows.height] at hrows
        exact ⟨follows, rfl, (applyRows_checked hrows follows.count cells).mp written,
          (popupFollows_iff hpopup).mp made⟩
  · rintro ⟨follows, metadata, written, popup⟩
    have made := (popupFollows_iff hpopup).mpr popup
    rw [follows.width, follows.height] at hrows
    unfold SurfaceDelta.reconstruct
    rw [if_neg ((follows_iff delta base).mp follows), made]
    simp only [Option.bind_eq_bind, Option.bind_some,
      (applyRows_checked hrows follows.count next.frame.cells).mpr written]
    rw [metadata]
    rfl

def WritesOnce (delta : SurfaceDelta) : Prop :=
  (∀ i, (spans delta.surface.frame.width delta.rows).Pairwise fun s t => ¬ (s.Covers i ∧ t.Covers i)) ∧
    ∀ popup rows, delta.surface.popup = some popup → delta.popupCells = some (.patch rows) →
      ∀ i, (spans popup.frame.width rows).Pairwise fun s t => ¬ (s.Covers i ∧ t.Covers i)

lemma check_once {delta : SurfaceDelta} (h : delta.check = .ok ()) : WritesOnce delta := by
  obtain ⟨_, -, hchecks⟩ := bind_eq_ok.mp h
  obtain ⟨_, hrows, hpopup⟩ := bind_eq_ok.mp hchecks
  refine ⟨(checkRows_apart hrows).covers_once, fun popup rows shown patched => ?_⟩
  rw [shown, patched] at hpopup
  obtain ⟨-, -, checked⟩ := bind_eq_ok.mp hpopup
  exact (checkRows_apart checked).covers_once

def NoSpans (delta : SurfaceDelta) : Prop :=
  delta.rows = [] ∧ ∀ rows, delta.popupCells = some (.patch rows) → rows = []

def fullPopup (base : PaneSurfaceFrame) (delta : SurfaceDelta) : Option ClientShellPopupSurface :=
  match delta.surface.popup, delta.popupCells, base.popup with
  | some popup, some (.replace cells), _ => some (withCells popup cells)
  | some popup, some (.patch _), some last => some (withCells popup last.frame.cells)
  | _, _, _ => none

def correspondingReuse (base : PaneSurfaceFrame) (delta : SurfaceDelta) : SurfaceReuse where
  baseSurfaceRevision := delta.baseSurfaceRevision
  surface := { delta.surface with popup := fullPopup base delta }

lemma PopupFollows.full {base : PaneSurfaceFrame} {delta : SurfaceDelta} (none : NoSpans delta)
    {next : Option ClientShellPopupSurface}
    (h : PopupFollows base.popup delta.surface.popup delta.popupCells next) :
    next = fullPopup base delta := by
  unfold fullPopup
  generalize hshown : delta.surface.popup = shown at h ⊢
  generalize hupdate : delta.popupCells = update at h ⊢
  generalize hprevious : base.popup = previous at h ⊢
  cases h with
  | closed => rfl
  | replaced popup cells => rfl
  | patched popup last rows cells kept same written =>
    rw [none.2 rows hupdate] at written
    rw [kept, Span.overwritten_nil_iff.mp written]

lemma reuse_eq {delta : SurfaceDelta} (h : delta.check = .ok ()) {base next : PaneSurfaceFrame}
    (none : NoSpans delta) (describes : Describes delta base next) :
    (correspondingReuse base delta).reconstruct base = .ok next := by
  obtain ⟨_, metadata, -⟩ := bind_eq_ok.mp h
  have empty : delta.surface.frame.cells = [] := by
    obtain ⟨_, -, checked⟩ := bind_eq_ok.mp metadata
    split at checked
    · cases checked
    · next same => exact not_not.mp same
  obtain ⟨follows, same, written, popup⟩ := describes
  rw [none.1] at written
  have cells : next.frame.cells = base.frame.cells := Span.overwritten_nil_iff.mp written
  have popup_ : next.popup = fullPopup base delta := popup.full none
  unfold SurfaceReuse.reconstruct correspondingReuse
  dsimp only
  rw [if_neg (by
    simp only [not_or, not_not, UInt64.not_lt]
    exact ⟨follows.boot, follows.baseSurface, follows.succ, follows.projection, follows.width,
      follows.height, empty⟩)]
  rw [same, cells, popup_]
  rfl

theorem delta_expands {base64 : String → Option (List UInt8)} {data : String} {delta : SurfaceDelta}
    (h : decodeDelta base64 data = .ok delta) (base : PaneSurfaceFrame) :
    (∃ r, delta.reconstruct base = some r) ∧ WritesOnce delta ∧
      (∀ next, delta.reconstruct base = some (.ok next) ↔ Describes delta base next) ∧
      (NoSpans delta → ∀ next, delta.reconstruct base = some (.ok next) →
        (correspondingReuse base delta).reconstruct base = .ok next) := by
  have checked := decodeDelta_check h
  refine ⟨reconstruct_isSome checked base, check_once checked, reconstruct_iff checked base,
    fun none next made => ?_⟩
  exact reuse_eq checked none ((reconstruct_iff checked base next).mp made)

deriving instance DecidableEq for GridUpdate, SurfaceDelta

lemma eq_ok_of_decide {ε α : Type} [DecidableEq α] {r : Except ε α} {a : α}
    (h : r.toOption.any (fun b => decide (b = a)) = true) : r = .ok a := by
  cases r with
  | error e => cases h
  | ok b => exact congrArg _ (of_decide_eq_true h)

def narrowSurface (revision : UInt64) (cells : List CellData) : PaneSurfaceFrame where
  bootId := "b"
  projectionRevision := 1
  surfaceRevision := revision
  frame := { cells, width := 2, height := 1, cursor := none, hyperlinks := [], graphics := [] }
  panes := []
  splits := []
  popup := none
  graphics := { assets := [], placements := [], retainedAssets := [] }

def narrowDelta : SurfaceDelta where
  baseProjectionRevision := 1
  baseSurfaceRevision := 1
  surface := narrowSurface 2 []
  rows := [⟨1, 0, [⟨"x", 5, 0, 0, false, none⟩]⟩]
  popupCells := none

def narrowText : String := "AQEBYgECAAIBAAAAAAAAAAAAAQEAAQF4BQAAAAAA"

def narrowBytes : List UInt8 :=
  [1, 1, 1, 98, 1, 2, 0, 2, 1, 0, 0, 0, 0, 0, 0, 0, 0, 0, 1, 1, 0, 1, 1, 120, 5, 0, 0, 0, 0, 0]

lemma narrow_decodes :
    decodeDelta (fun data => if data = narrowText then some narrowBytes else none) narrowText =
      .ok narrowDelta := eq_ok_of_decide (by decide +kernel)

theorem delta_expands_narrow :
    ∃ r, narrowDelta.reconstruct (narrowSurface 1 [⟨" ", 0, 0, 0, false, none⟩,
      ⟨" ", 0, 0, 0, false, none⟩]) = some r :=
  (delta_expands narrow_decodes _).1

end Sheprd.Protocol
