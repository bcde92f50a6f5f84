import Sheprd.Lib.Text

namespace Sheprd.Terminal.Selecting

open Sheprd.Lib

def u16Max : ℕ := 2 ^ 16 - 1

def u32Max : ℕ := 2 ^ 32 - 1

def maxSelectionBytes : ℕ := 4 * 2 ^ 20

def maxWidthBytes : ℕ := 64

def hidden : ℕ := 2 ^ 7

inductive Side where
  | left
  | right
  deriving DecidableEq

def Side.rank : Side → ℕ
  | left => 0
  | right => 1

structure Edge where
  row : ℕ
  column : ℕ
  side : Side
  deriving DecidableEq

instance : LE Edge where
  le a b := a.row < b.row ∨ a.row = b.row ∧
    (a.column < b.column ∨ a.column = b.column ∧ a.side.rank ≤ b.side.rank)

instance (a b : Edge) : Decidable (a ≤ b) := inferInstanceAs (Decidable (_ ∨ _))

structure Span where
  start : ℕ
  stop : ℕ
  deriving DecidableEq

namespace Span

def isEmpty (span : Span) : Bool := span.stop ≤ span.start

def contains (span : Span) (index : ℕ) : Bool := span.start ≤ index && index < span.stop

end Span

def unsigned (a b : ℕ) : Option ℕ := if a < b then none else some (a - b)

structure Region where
  columns : Span
  rows : Span
  top : ℕ
  bottom : ℕ

namespace Region

def whole (region : Region) : Edge × Edge :=
  (⟨0, region.columns.start, .left⟩, ⟨region.bottom, region.columns.stop - 1, .right⟩)

def contentRow (region : Region) (row : ℕ) : Option ℕ :=
  (unsigned row region.rows.start).map fun offset => min (region.top + offset) u32Max

def gridRow (region : Region) (row : ℕ) : Option ℕ := do
  if row < region.top ∨ row - region.top > u16Max then none
  else
    let grid := region.rows.start + (row - region.top)
    if grid ≤ u16Max ∧ region.rows.contains grid then some grid else none

def shows (region : Region) (row : ℕ) : Bool := (region.gridRow row).isSome

end Region

structure Rect where
  x : ℕ
  y : ℕ
  width : ℕ
  height : ℕ
  x_le : x ≤ u16Max
  y_le : y ≤ u16Max

structure Scroll where
  offsetFromBottom : ℕ
  maxOffsetFromBottom : ℕ

structure Cell where
  symbol : String
  modifier : ℕ
  skip : Bool

structure Frame where
  width : ℕ
  height : ℕ
  cells : List Cell

structure Pane where
  paneId : String
  innerRect : Rect
  scroll : Option Scroll

structure Popup where
  terminalId : String
  frame : Frame

structure Surface where
  frame : Frame
  panes : List Pane
  popup : Option Popup

inductive Target where
  | pane (paneId : String)
  | popup (terminalId : String)
  deriving DecidableEq

def viewportTop (pane : Pane) : ℕ :=
  match pane.scroll with
  | none => 0
  | some scroll => min (scroll.maxOffsetFromBottom - scroll.offsetFromBottom) u32Max

def paneRegion (pane : Pane) : Region :=
  let rect := pane.innerRect
  let top := viewportTop pane
  let below := match pane.scroll with
    | none => 0
    | some scroll => min scroll.offsetFromBottom u32Max
  { columns := ⟨rect.x, min (rect.x + rect.width) u16Max⟩
    rows := ⟨rect.y, min (rect.y + rect.height) u16Max⟩
    top := top
    bottom := min (min (top + (rect.height - 1)) u32Max + below) u32Max }

def popupRegion (popup : Popup) : Region :=
  { columns := ⟨0, popup.frame.width⟩
    rows := ⟨0, popup.frame.height⟩
    top := 0
    bottom := popup.frame.height - 1 }

def region (surface : Surface) : Target → Option Region
  | .popup terminalId => (surface.popup.filter (·.terminalId = terminalId)).map popupRegion
  | .pane paneId =>
    if surface.popup.isSome then none
    else (surface.panes.find? (·.paneId = paneId)).map paneRegion

def frame (surface : Surface) : Target → Option Frame
  | .popup _ => surface.popup.map (·.frame)
  | .pane _ => some surface.frame

inductive Unit where
  | cell
  | word
  | line
  | all
  deriving DecidableEq

structure Selection where
  target : Target
  unit : Unit
  origin : Edge × Edge
  anchor : Edge
  head : Edge
  rows_le : ∀ edge ∈ [origin.1, origin.2, anchor, head], edge.row ≤ u32Max

structure Point where
  row : ℕ
  col : ℕ
  deriving DecidableEq

instance : LE Point where
  le a b := a.row < b.row ∨ a.row = b.row ∧ a.col ≤ b.col

instance (a b : Point) : Decidable (a ≤ b) := inferInstanceAs (Decidable (_ ∨ _))

structure TextRange where
  start : Point
  stop : Point
  deriving DecidableEq

def Edge.cut (edge : Edge) : ℕ :=
  match edge.side with
  | .left => edge.column
  | .right => min (edge.column + 1) u16Max

def spanOf (region : Region) (start stop : Edge) (row : ℕ) : Option (ℕ × Span) :=
  let first := if row = start.row then max start.cut region.columns.start else region.columns.start
  let last := if row = stop.row then min stop.cut region.columns.stop else region.columns.stop
  if first < last then (region.gridRow row).map fun grid => (grid, ⟨first, last⟩) else none

def firstPoint (columns : Span) (start : Edge) : Option Point :=
  match start.side with
  | .left => some ⟨start.row, start.column⟩
  | .right =>
    if start.column < columns.stop - 1 then some ⟨start.row, start.column + 1⟩
    else if start.row + 1 ≤ u32Max then some ⟨start.row + 1, columns.start⟩
    else none

def lastPoint (columns : Span) (stop : Edge) : Option Point :=
  match stop.side with
  | .right => some ⟨stop.row, stop.column⟩
  | .left =>
    if columns.start < stop.column then some ⟨stop.row, stop.column - 1⟩
    else if 0 < stop.row then some ⟨stop.row - 1, columns.stop - 1⟩
    else none

def localPoint (columns : Span) (point : Point) : Option Point :=
  (unsigned point.col columns.start).map fun col => ⟨point.row, col⟩

namespace Selection

def extended (selection : Selection) (span : Edge × Edge) : Edge × Edge :=
  if ¬selection.origin.1 ≤ span.1 then (selection.origin.2, span.1)
  else (selection.origin.1, if selection.origin.2 ≤ span.2 then span.2 else selection.origin.2)

def extend (selection : Selection) (span : Edge × Edge)
    (hspan : span.1.row ≤ u32Max ∧ span.2.row ≤ u32Max) : Selection × Bool :=
  let ends := selection.extended span
  ({ selection with
      anchor := ends.1
      head := ends.2
      rows_le := by
        have horigin := selection.rows_le selection.origin.1 (by simp)
        have horigin' := selection.rows_le selection.origin.2 (by simp)
        simp only [List.mem_cons, List.not_mem_nil, or_false, forall_eq_or_imp, forall_eq]
        simp only [ends, extended]
        split
        · exact ⟨horigin, horigin', horigin', hspan.1⟩
        · refine ⟨horigin, horigin', horigin, ?_⟩
          split
          · exact hspan.2
          · exact horigin' },
    decide ((selection.anchor, selection.head) ≠ ends))

def ends (selection : Selection) (region : Region) : Edge × Edge :=
  if selection.unit = .all then region.whole
  else if selection.anchor ≤ selection.head then (selection.anchor, selection.head)
  else (selection.head, selection.anchor)

def spans (selection : Selection) (region : Region) : Option (List (ℕ × Span)) := do
  let (start, stop) := selection.ends region
  let bottom ← region.contentRow (region.rows.stop - 1)
  let last := min stop.row bottom
  if region.rows.isEmpty then return []
  else
    let first := max start.row region.top
    return (List.range' first (last + 1 - first)).filterMap (spanOf region start stop)

def rows (selection : Selection) (surface : Surface) : Option (List (ℕ × Span)) :=
  match region surface selection.target with
  | none => some []
  | some region => selection.spans region

def paneRange (selection : Selection) (region : Region) : Option (Option (String × TextRange)) :=
  match selection.target with
  | .popup _ => some none
  | .pane paneId =>
    let (start, stop) := selection.ends region
    if region.columns.stop = 0 then some none
    else
      match firstPoint region.columns start, lastPoint region.columns stop with
      | some first, some last =>
        if ¬first ≤ last then some none
        else do
          let first ← localPoint region.columns first
          let last ← localPoint region.columns last
          return some (paneId, ⟨first, last⟩)
      | _, _ => some none

def offscreenRange (selection : Selection) (surface : Surface) :
    Option (Option (String × TextRange)) :=
  match region surface selection.target with
  | none => some none
  | some region =>
    let (start, stop) := selection.ends region
    if region.shows start.row && region.shows stop.row then some none
    else selection.paneRange region

def contentRange (selection : Selection) (surface : Surface) :
    Option (Option (String × TextRange)) :=
  match region surface selection.target with
  | none => some none
  | some region => selection.paneRange region

end Selection

inductive Error where
  | stale
  | offscreen
  | size
  deriving DecidableEq

def shown (cell : Cell) : String :=
  if cell.modifier &&& hidden ≠ 0 ∨ cell.symbol = "" then " " else cell.symbol

structure Widths where
  text : String → ℕ
  char : Char → Option ℕ

structure Reading where
  covered : ℕ
  wideBase : Bool
  read : List (ℕ × ℕ × Cell)

def Reading.next (widths : Widths) (length : ℕ) (reading : Reading) (item : Cell × ℕ) : Reading :=
  let (cell, column) := item
  if cell.skip = true ∨ (column < reading.covered ∧
      (cell.symbol = "" ∨ (reading.wideBase = true ∧ cell.symbol = " "))) then reading
  else
    let head := Text.takeBytes maxWidthBytes cell.symbol.toList
    let span := min (max (widths.text (.ofList head)) 1) (length - column)
    { covered := column + span
      wideBase := head.head?.any fun c => (widths.char c).any (1 < ·)
      read := reading.read ++ [(column, span, cell)] }

def graphemes (widths : Widths) (cells : List Cell) : List (ℕ × ℕ × Cell) :=
  (cells.zipIdx.foldl (Reading.next widths cells.length) ⟨0, false, []⟩).read

def getCells (frame : Frame) (row : ℕ) (columns : Span) : Option (List Cell) :=
  let start := row * frame.width + columns.start
  let stop := row * frame.width + columns.stop
  if start ≤ stop ∧ stop ≤ frame.cells.length then
    some ((frame.cells.drop start).take (stop - start))
  else none

def readLine (widths : Widths) (text : String) (skip : ℕ) (cells : List Cell) :
    Except Error String :=
  (graphemes widths cells).foldlM (fun line ((column, _, cell) : ℕ × ℕ × Cell) =>
    if cell.symbol.utf8ByteSize > maxSelectionBytes then .error .size
    else if column < skip then .ok line
    else if text.utf8ByteSize + line.utf8ByteSize + (shown cell).utf8ByteSize > maxSelectionBytes then
      .error .size
    else .ok (line ++ shown cell)) ""

def readRow (widths : Widths) (frame : Frame) (region : Region) (text : String)
    (row : (ℕ × Span) × ℕ) : Option (Except Error String) := do
  let ((row, columns), index) := row
  if row ≥ frame.height then return .error .stale
  else
    match getCells frame row ⟨region.columns.start, columns.stop⟩ with
    | none => return .error .stale
    | some cells => do
      let skip ← unsigned columns.start region.columns.start
      let text := if index > 0 then text ++ "\n" else text
      return do
        let line ← readLine widths text skip cells
        return text ++
          if columns.stop ≥ region.columns.stop then
            .ofList (Text.trimEnd line.toList)
          else line

def readRows (widths : Widths) (frame : Frame) (region : Region) :
    String → List ((ℕ × Span) × ℕ) → Option (Except Error String)
  | text, [] => some (.ok text)
  | text, row :: rows =>
    match readRow widths frame region text row with
    | none => none
    | some (.error error) => some (.error error)
    | some (.ok text) => readRows widths frame region text rows

def Selection.text (selection : Selection) (widths : Widths) (surface : Surface) :
    Option (Except Error String) :=
  match region surface selection.target, frame surface selection.target with
  | some region, some frame =>
    let (start, stop) := selection.ends region
    if !region.shows start.row || !region.shows stop.row then some (.error .offscreen)
    else do
      let spans ← selection.spans region
      readRows widths frame region "" spans.zipIdx
  | _, _ => some (.error .stale)

end Sheprd.Terminal.Selecting
