import Sheprd.Lib.Exec
import Sheprd.Protocol.Codec
import Sheprd.Protocol.SurfaceScroll

namespace Sheprd.Protocol

open Sheprd.Lib Sheprd.Lib.Bincode

inductive GridUpdate where
  | patch (rows : List PaneSurfacePatchRow)
  | replace (cells : List CellData)

structure SurfaceDelta where
  baseProjectionRevision : UInt64
  baseSurfaceRevision : UInt64
  surface : PaneSurfaceFrame
  rows : List PaneSurfacePatchRow
  popupCells : Option GridUpdate

structure SurfaceReuse where
  baseSurfaceRevision : UInt64
  surface : PaneSurfaceFrame

namespace Decode

def gridUpdate : Decoder GridUpdate := do
  match (← u32).toNat with
  | 0 => return .patch (← vec patchRow)
  | 1 => return .replace (← vec cellData)
  | _ => failure

def surfaceDelta : Decoder SurfaceDelta := do
  return ⟨← u64, ← u64, ← paneSurfaceFrame, ← vec patchRow, ← option gridUpdate⟩

end Decode

def maxScrolls : ℕ := 64
def scrollBytes : ℕ := 10
def maxSpans : ℕ := 4096
def maxGridDimension : UInt16 := 4096
def maxGridCells : ℕ := 1000000

section Scroll

variable (base64 : String → Option (List UInt8))

def encodedLen (n : ℕ) : ℕ :=
  n / 3 * 4 + (if n % 3 = 0 then 0 else n % 3 + 1)

def scrollAt (chunk : List UInt8) : SurfaceScroll :=
  let value (offset : ℕ) : UInt16 := UInt16.ofNat (littleEndian ((chunk.drop offset).take 2))
  ⟨⟨value 0, value 2, value 4, value 6⟩, (value 8).toInt16⟩

def decodeScroll (data : String) : Except Error ScrollPatch :=
  if encodedLen maxFrameSize < data.utf8ByteSize then .error .encodingLimit
  else
    match base64 data with
    | none => .error .encodingPayload
    | some [] => .error .scrollTruncated
    | some (first :: bytes) =>
        let count := first.toNat
        if count = 0 ∨ maxScrolls < count then .error .scrollCount
        else if bytes.length < count * scrollBytes then .error .scrollTruncated
        else do
          let scrolls := (List.range count).map fun i => scrollAt (bytes.drop (i * scrollBytes))
          let (message, frame) ←
            readMessage Decode.serverMessage maxFrameSize (bytes.drop (count * scrollBytes))
          if frame ≠ [] then .error .trailingBytes
          else
            match message with
            | .paneSurfacePatch patch => .ok ⟨scrolls, patch⟩
            | _ => .error .scrollPayload

end Scroll

def gridCells (width height : UInt16) : Except Error ℕ :=
  let cells := width.toNat * height.toNat
  if maxGridDimension < width ∨ maxGridDimension < height ∨ maxGridCells < cells then
    .error .deltaGridLimit
  else .ok cells

def checkSpans (width height : UInt16) (budget previousEnd total : ℕ) :
    List PaneSurfacePatchRow → Except Error Unit
  | [] => .ok ()
  | row :: rows =>
      let len := row.cells.length
      if len = 0 ∨ height ≤ row.y ∨ width.toNat ≤ row.x.toNat ∨
          width.toNat - row.x.toNat < len then
        .error .deltaSpan
      else
        let start := row.y.toNat * width.toNat + row.x.toNat
        if start < previousEnd ∨ budget < total + len then .error .deltaSpan
        else checkSpans width height budget (start + len) (total + len) rows

def checkRows (rows : List PaneSurfacePatchRow) (width height : UInt16) : Except Error Unit := do
  let budget ← gridCells width height
  if min maxSpans budget < rows.length then .error .deltaSpan
  else checkSpans width height budget 0 0 rows

def checkMetadata (frame : FrameData) : Except Error Unit := do
  discard (gridCells frame.width frame.height)
  if frame.cells ≠ [] then .error .deltaMetadataCells else .ok ()

def checkPopup (popup : Option ClientShellPopupSurface) (update : Option GridUpdate) :
    Except Error Unit :=
  match popup, update with
  | none, some _ => .error .deltaPopup
  | none, none => .ok ()
  | some popup, update => do
      checkMetadata popup.frame
      match update with
      | some (.patch rows) => checkRows rows popup.frame.width popup.frame.height
      | some (.replace cells) =>
          if cells.length ≠ (← gridCells popup.frame.width popup.frame.height) then
            .error .deltaPopup
          else .ok ()
      | none => .error .deltaPopup

def SurfaceDelta.check (delta : SurfaceDelta) : Except Error Unit := do
  checkMetadata delta.surface.frame
  checkRows delta.rows delta.surface.frame.width delta.surface.frame.height
  checkPopup delta.surface.popup delta.popupCells

def hasGraphics (scene : SurfaceGraphicsScene) : Bool :=
  !(scene.assets.isEmpty && scene.placements.isEmpty && scene.retainedAssets.isEmpty)

def decodeDelta (base64 : String → Option (List UInt8)) (data : String) :
    Except Error SurfaceDelta :=
  if maxGraphicsFrameSize < data.utf8ByteSize then .error .encodingLimit
  else
    match base64 data with
    | none => .error .encodingPayload
    | some bytes => do
        let delta ← decodePayload Decode.surfaceDelta bytes
        if maxFrameSize < data.utf8ByteSize ∧ !hasGraphics delta.surface.graphics then
          .error .encodingLimit
        else do
          delta.check
          return delta

def decodeReuse (json : String → Option SurfaceReuse) (data : String) :
    Except Error SurfaceReuse :=
  if maxFrameSize < data.utf8ByteSize then .error .encodingLimit
  else
    match json data with
    | some reuse => .ok reuse
    | none => .error .encodingJson

def samePopupGrid (previous next : ClientShellPopupSurface) : Bool :=
  decide (previous.terminalId = next.terminalId) &&
    decide (previous.frame.width = next.frame.width) &&
    decide (previous.frame.height = next.frame.height) &&
    decide (previous.frame.cells.length = next.frame.width.toNat * next.frame.height.toNat)

def withCells (popup : ClientShellPopupSurface) (cells : List CellData) : ClientShellPopupSurface :=
  { popup with frame := { popup.frame with cells } }

def reconstructPopup (previous popup : Option ClientShellPopupSurface)
    (update : Option GridUpdate) : Option (Except Error (Option ClientShellPopupSurface)) :=
  match popup, update with
  | none, none => some (.ok none)
  | some popup, some (.replace cells) => some (.ok (some (withCells popup cells)))
  | some popup, some (.patch rows) =>
      match previous.filter fun previous => samePopupGrid previous popup with
      | none => some (.error .deltaPopup)
      | some previous => do
          let cells ← applyRows previous.frame.cells popup.frame.width rows
          some (.ok (some (withCells popup cells)))
  | _, _ => some (.error .deltaPopup)

def SurfaceDelta.reconstruct (delta : SurfaceDelta) (base : PaneSurfaceFrame) :
    Option (Except Error PaneSurfaceFrame) :=
  let surface := delta.surface
  if surface.bootId ≠ base.bootId ∨ delta.baseProjectionRevision ≠ base.projectionRevision ∨
      delta.baseSurfaceRevision ≠ base.surfaceRevision ∨
      checkedSucc base.surfaceRevision ≠ some surface.surfaceRevision ∨
      surface.projectionRevision < base.projectionRevision ∨
      surface.frame.width ≠ base.frame.width ∨ surface.frame.height ≠ base.frame.height ∨
      base.frame.cells.length ≠ base.frame.width.toNat * base.frame.height.toNat then
    some (.error .surfaceBaseline)
  else do
    match ← reconstructPopup base.popup surface.popup delta.popupCells with
    | .error e => some (.error e)
    | .ok popup =>
        let cells ← applyRows base.frame.cells base.frame.width delta.rows
        some (.ok { surface with frame := { surface.frame with cells }, popup })

def SurfaceReuse.reconstruct (reuse : SurfaceReuse) (base : PaneSurfaceFrame) :
    Except Error PaneSurfaceFrame :=
  let surface := reuse.surface
  if surface.bootId ≠ base.bootId ∨ reuse.baseSurfaceRevision ≠ base.surfaceRevision ∨
      checkedSucc base.surfaceRevision ≠ some surface.surfaceRevision ∨
      surface.projectionRevision < base.projectionRevision ∨
      surface.frame.width ≠ base.frame.width ∨ surface.frame.height ≠ base.frame.height ∨
      surface.frame.cells ≠ [] then
    .error .surfaceBaseline
  else .ok { surface with frame := { surface.frame with cells := base.frame.cells } }

def RowInside (width height : UInt16) (row : PaneSurfacePatchRow) : Prop :=
  row.y.toNat < height.toNat ∧ row.x.toNat + row.cells.length ≤ width.toNat

lemma checkSpans_ok {width height : UInt16} {budget previousEnd total : ℕ}
    {rows : List PaneSurfacePatchRow}
    (h : checkSpans width height budget previousEnd total rows = .ok ()) :
    ∀ row ∈ rows, RowInside width height row := by
  induction rows generalizing previousEnd total with
  | nil => simp
  | cons row rows ih =>
    rw [checkSpans] at h
    split at h
    · exact absurd h (by simp)
    · rename_i hin
      simp only [not_or, UInt16.not_le, UInt16.lt_iff_toNat_lt] at hin
      dsimp only at h
      split at h
      · exact absurd h (by simp)
      · intro r hr
        rcases List.mem_cons.mp hr with rfl | hr
        · exact ⟨hin.2.1, by omega⟩
        · exact ih h r hr

lemma checkRows_ok {rows : List PaneSurfacePatchRow} {width height : UInt16}
    (h : checkRows rows width height = .ok ()) : ∀ row ∈ rows, RowInside width height row := by
  rw [checkRows] at h
  cases hg : gridCells width height with
  | error e =>
    rw [hg] at h
    exact absurd h (by simp [bind, Except.bind])
  | ok budget =>
    rw [hg] at h
    simp only [bind, Except.bind] at h
    split at h
    · exact absurd h (by simp)
    · exact checkSpans_ok h

lemma applyRows_isSome {width height : UInt16} (cells : List CellData)
    {rows : List PaneSurfacePatchRow} (hc : cells.length = width.toNat * height.toNat)
    (hr : ∀ row ∈ rows, RowInside width height row) :
    ∃ cells', applyRows cells width rows = some cells' := by
  induction rows generalizing cells with
  | nil => exact ⟨cells, rfl⟩
  | cons row rows ih =>
    obtain ⟨hy, hx⟩ := hr row (by simp)
    have hpos := position_lt hy hx
    obtain ⟨c₁, hw⟩ := Slice.write_isSome cells row.cells
      (row.y.toNat * width.toNat + row.x.toNat) (by rw [hc, Nat.mul_comm width.toNat]; omega)
    obtain ⟨c₂, hw'⟩ := ih c₁ (by rw [Slice.write_length hw, hc]) (fun r h => hr r (by simp [h]))
    refine ⟨c₂, ?_⟩
    rw [applyRows, List.foldlM_cons, writeRow, hw]
    exact hw'

lemma checkPopup_ok {popup : ClientShellPopupSurface} {rows : List PaneSurfacePatchRow}
    (h : checkPopup (some popup) (some (.patch rows)) = .ok ()) :
    ∀ row ∈ rows, RowInside popup.frame.width popup.frame.height row := by
  obtain ⟨-, -, h⟩ := bind_eq_ok.mp h
  exact checkRows_ok h

lemma reconstructPopup_isSome (previous : Option ClientShellPopupSurface)
    {popup : Option ClientShellPopupSurface} {update : Option GridUpdate}
    (h : checkPopup popup update = .ok ()) :
    ∃ r, reconstructPopup previous popup update = some r := by
  rcases popup with _ | popup
  · rcases update with _ | update
    · exact ⟨_, rfl⟩
    · exact ⟨_, rfl⟩
  · rcases update with _ | rows | cells
    · exact ⟨_, rfl⟩
    · simp only [reconstructPopup]
      split
      · exact ⟨_, rfl⟩
      · rename_i last hlast
        have hsame := (Option.filter_eq_some_iff.mp hlast).2
        simp only [samePopupGrid, Bool.and_eq_true, decide_eq_true_eq] at hsame
        obtain ⟨cells, hcells⟩ :=
          applyRows_isSome last.frame.cells hsame.2 (checkPopup_ok h)
        exact ⟨_, by rw [hcells]; rfl⟩
    · exact ⟨_, rfl⟩

lemma reconstruct_isSome {delta : SurfaceDelta} (h : delta.check = .ok ())
    (base : PaneSurfaceFrame) : ∃ r, delta.reconstruct base = some r := by
  obtain ⟨_, _, hchecks⟩ := bind_eq_ok.mp h
  obtain ⟨_, hrows, hpopup⟩ := bind_eq_ok.mp hchecks
  rw [SurfaceDelta.reconstruct]
  split
  · exact ⟨_, rfl⟩
  · rename_i hbase
    simp only [not_or, not_not] at hbase
    obtain ⟨-, -, -, -, -, hw, hh, hc⟩ := hbase
    obtain ⟨r, hr⟩ := reconstructPopup_isSome base.popup hpopup
    rw [hr]
    rcases r with e | popup
    · exact ⟨_, rfl⟩
    · rw [hw, hh] at hrows
      obtain ⟨cells, hcells⟩ := applyRows_isSome base.frame.cells hc (checkRows_ok hrows)
      exact ⟨_, by simp only [Option.bind_eq_bind, Option.bind_some, hcells]; rfl⟩

lemma decodeDelta_check {base64 : String → Option (List UInt8)} {data : String}
    {delta : SurfaceDelta} (h : decodeDelta base64 data = .ok delta) : delta.check = .ok () := by
  rw [decodeDelta] at h
  split at h
  · exact absurd h (by simp)
  · split at h
    · exact absurd h (by simp)
    · obtain ⟨d, -, h⟩ := bind_eq_ok.mp h
      split at h
      · exact absurd h (by simp)
      · obtain ⟨_, hc, hd⟩ := bind_eq_ok.mp h
        cases hd
        exact hc

end Sheprd.Protocol
