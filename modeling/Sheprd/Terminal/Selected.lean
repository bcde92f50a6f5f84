import Sheprd.Terminal.Selection

namespace Sheprd.Terminal.Selecting

open Sheprd.Lib

lemma edge_le_iff {a b : Edge} : a ≤ b ↔ a.row < b.row ∨ a.row = b.row ∧
    (a.column < b.column ∨ a.column = b.column ∧ a.side.rank ≤ b.side.rank) := Iff.rfl

lemma point_le_iff {a b : Point} : a ≤ b ↔ a.row < b.row ∨ a.row = b.row ∧ a.col ≤ b.col := Iff.rfl

lemma contains_iff {span : Span} {index : ℕ} :
    span.contains index = true ↔ span.start ≤ index ∧ index < span.stop := by
  simp [Span.contains]

def Chosen (columns : Span) (start stop : Edge) (row column : ℕ) : Prop :=
  columns.contains column = true ∧ start ≤ ⟨row, column, .left⟩ ∧ ⟨row, column, .right⟩ ≤ stop

def TextRange.Holds (range : TextRange) (columns : Span) (row column : ℕ) : Prop :=
  columns.contains column = true ∧ range.start ≤ ⟨row, column - columns.start⟩ ∧
    ⟨row, column - columns.start⟩ ≤ range.stop

def Painted (spans : List (ℕ × Span)) (region : Region) (row column : ℕ) : Prop :=
  ∃ grid span, (grid, span) ∈ spans ∧ region.gridRow row = some grid ∧ span.contains column = true

section Points

variable {columns : Span} {start stop : Edge} {first last : Point}

lemma firstPoint_some (h : columns.contains start.column = true)
    (hfirst : firstPoint columns start = some first) : columns.contains first.col = true ∧
      ∀ row column, columns.contains column = true →
        (start ≤ ⟨row, column, .left⟩ ↔ first ≤ ⟨row, column⟩) := by
  obtain ⟨row₀, column₀, side⟩ := start
  simp only [contains_iff] at h ⊢
  cases side with
  | left =>
    cases hfirst
    refine ⟨h, fun row column _ => ?_⟩
    simp only [edge_le_iff, point_le_iff, Side.rank]
    omega
  | right =>
    simp only [firstPoint] at hfirst
    split at hfirst
    · cases hfirst
      refine ⟨by dsimp only; omega, fun row column _ => ?_⟩
      simp only [edge_le_iff, point_le_iff, Side.rank]
      omega
    · split at hfirst
      · cases hfirst
        refine ⟨by dsimp only; omega, fun row column _ => ?_⟩
        simp only [edge_le_iff, point_le_iff, Side.rank]
        omega
      · cases hfirst

lemma firstPoint_none (h : columns.contains start.column = true)
    (hfirst : firstPoint columns start = none) {row column : ℕ} (hrow : row ≤ u32Max)
    (hcolumn : columns.contains column = true) : ¬start ≤ ⟨row, column, .left⟩ := by
  obtain ⟨row₀, column₀, side⟩ := start
  simp only [contains_iff] at h hcolumn
  cases side with
  | left => cases hfirst
  | right =>
    simp only [firstPoint] at hfirst
    split at hfirst
    · cases hfirst
    · split at hfirst
      · cases hfirst
      · simp only [edge_le_iff, Side.rank]
        omega

lemma lastPoint_some (h : columns.contains stop.column = true)
    (hlast : lastPoint columns stop = some last) : columns.contains last.col = true ∧
      ∀ row column, columns.contains column = true →
        (⟨row, column, .right⟩ ≤ stop ↔ ⟨row, column⟩ ≤ last) := by
  obtain ⟨row₀, column₀, side⟩ := stop
  simp only [contains_iff] at h ⊢
  cases side with
  | right =>
    cases hlast
    refine ⟨h, fun row column _ => ?_⟩
    simp only [edge_le_iff, point_le_iff, Side.rank]
    omega
  | left =>
    simp only [lastPoint] at hlast
    split at hlast
    · cases hlast
      refine ⟨by dsimp only; omega, fun row column _ => ?_⟩
      simp only [edge_le_iff, point_le_iff, Side.rank]
      omega
    · split at hlast
      · cases hlast
        refine ⟨by dsimp only; omega, fun row column _ => ?_⟩
        simp only [edge_le_iff, point_le_iff, Side.rank]
        omega
      · cases hlast

lemma lastPoint_none (h : columns.contains stop.column = true)
    (hlast : lastPoint columns stop = none) {row column : ℕ}
    (hcolumn : columns.contains column = true) : ¬⟨row, column, .right⟩ ≤ stop := by
  obtain ⟨row₀, column₀, side⟩ := stop
  simp only [contains_iff] at h hcolumn
  cases side with
  | right => cases hlast
  | left =>
    simp only [lastPoint] at hlast
    split at hlast
    · cases hlast
    · split at hlast
      · cases hlast
      · simp only [edge_le_iff, Side.rank]
        omega

end Points

lemma paneRegion_bounds (pane : Pane) :
    (paneRegion pane).columns.stop ≤ u16Max ∧ (paneRegion pane).bottom ≤ u32Max ∧
      (paneRegion pane).rows.start ≤ (paneRegion pane).rows.stop := by
  have hy := pane.innerRect.y_le
  refine ⟨min_le_right _ _, min_le_right _ _, ?_⟩
  simp only [paneRegion]
  omega

lemma region_pane {surface : Surface} {paneId : String} {found : Region}
    (h : region surface (.pane paneId) = some found) : ∃ pane, found = paneRegion pane := by
  simp only [region] at h
  split at h
  · cases h
  · obtain ⟨pane, -, rfl⟩ := Option.map_eq_some_iff.mp h
    exact ⟨pane, rfl⟩

lemma ends_row {selection : Selection} {region : Region} (h : region.bottom ≤ u32Max) :
    (selection.ends region).1.row ≤ u32Max ∧ (selection.ends region).2.row ≤ u32Max := by
  have hanchor := selection.rows_le selection.anchor (by simp)
  have hhead := selection.rows_le selection.head (by simp)
  simp only [Selection.ends]
  split
  · exact ⟨Nat.zero_le _, h⟩
  · split
    · exact ⟨hanchor, hhead⟩
    · exact ⟨hhead, hanchor⟩

lemma gridRow_eq_some {region : Region} {row grid : ℕ} : region.gridRow row = some grid ↔
    region.top ≤ row ∧ row - region.top ≤ u16Max ∧ grid = region.rows.start + (row - region.top) ∧
      grid ≤ u16Max ∧ grid < region.rows.stop := by
  simp only [Region.gridRow]
  split
  · simp only [reduceCtorEq, false_iff]
    omega
  · split
    · rename_i hshown
      simp only [contains_iff] at hshown
      rw [Option.some.injEq]
      omega
    · rename_i hhidden
      simp only [contains_iff] at hhidden
      simp only [reduceCtorEq, false_iff]
      omega

lemma spanOf_eq_some {region : Region} {start stop : Edge} {row grid : ℕ} {span : Span} :
    spanOf region start stop row = some (grid, span) ↔
      region.gridRow row = some grid ∧ span.start < span.stop ∧
      span.start = (if row = start.row then max start.cut region.columns.start
        else region.columns.start) ∧
      span.stop = if row = stop.row then min stop.cut region.columns.stop
        else region.columns.stop := by
  obtain ⟨first, last⟩ := span
  simp only [spanOf]
  generalize (if row = start.row then max start.cut region.columns.start
    else region.columns.start) = from'
  generalize (if row = stop.row then min stop.cut region.columns.stop
    else region.columns.stop) = until'
  split
  · simp only [Option.map_eq_some_iff, Prod.mk.injEq, Span.mk.injEq]
    constructor
    · rintro ⟨grid', hgrid, rfl, rfl, rfl⟩
      exact ⟨hgrid, ‹_›, rfl, rfl⟩
    · rintro ⟨hgrid, -, rfl, rfl⟩
      exact ⟨grid, hgrid, rfl, rfl, rfl⟩
  · simp only [reduceCtorEq, false_iff]
    omega

section Painting

variable {selection : Selection} {region : Region}

def Rowed (region : Region) : Prop := region.rows.isEmpty = false ∨ region.rows.start = 0

lemma contentRow_last (h : region.rows.start ≤ region.rows.stop) :
    region.contentRow (region.rows.stop - 1) = none ↔ ¬Rowed region := by
  simp only [Region.contentRow, unsigned, Rowed, Span.isEmpty, decide_eq_false_iff_not]
  split
  · simp only [Option.map_none, true_iff]
    omega
  · simp only [Option.map_some, reduceCtorEq, false_iff, not_not]
    omega

lemma spans_eq_none (h : region.rows.start ≤ region.rows.stop) :
    selection.spans region = none ↔ ¬Rowed region := by
  rw [← contentRow_last h]
  simp only [Selection.spans, Option.bind_eq_bind]
  cases region.contentRow (region.rows.stop - 1) with
  | none => simp
  | some bottom =>
    simp only [Option.bind_some, reduceCtorEq, iff_false]
    split <;> simp

lemma cut_le {start : Edge} (h : start.column < u16Max) (column : ℕ) :
    start.cut ≤ column ↔ start ≤ ⟨start.row, column, .left⟩ := by
  obtain ⟨row, column₀, side⟩ := start
  dsimp only at h
  cases side with
  | left =>
    simp only [Edge.cut, edge_le_iff, Side.rank, lt_irrefl, false_or, true_and]
    omega
  | right =>
    simp only [Edge.cut, edge_le_iff, Side.rank, lt_irrefl, false_or, true_and]
    rw [min_eq_left (by omega)]
    omega

lemma lt_cut {stop : Edge} (h : stop.column < u16Max) (column : ℕ) :
    column < stop.cut ↔ ⟨stop.row, column, .right⟩ ≤ stop := by
  obtain ⟨row, column₀, side⟩ := stop
  dsimp only at h
  cases side with
  | left =>
    simp only [Edge.cut, edge_le_iff, Side.rank, lt_irrefl, false_or, true_and]
    omega
  | right =>
    simp only [Edge.cut, edge_le_iff, Side.rank, lt_irrefl, false_or, true_and]
    rw [min_eq_left (by omega)]
    omega

lemma left_of_row {start : Edge} {row column : ℕ} (h : start.row < row) :
    start ≤ ⟨row, column, .left⟩ := .inl h

lemma right_of_row {stop : Edge} {row column : ℕ} (h : row < stop.row) :
    ⟨row, column, .right⟩ ≤ stop := .inl h

lemma chosen_iff {start stop : Edge} {row column : ℕ} (hstop : region.columns.stop ≤ u16Max)
    (hstartIn : region.columns.contains start.column = true)
    (hstopIn : region.columns.contains stop.column = true)
    (hle : start.row ≤ row ∧ row ≤ stop.row) :
    ((if row = start.row then max start.cut region.columns.start else region.columns.start) ≤
        column ∧
      column < if row = stop.row then min stop.cut region.columns.stop
        else region.columns.stop) ↔ Chosen region.columns start stop row column := by
  simp only [contains_iff] at hstartIn hstopIn
  have hfirst : (if row = start.row then max start.cut region.columns.start
      else region.columns.start) ≤ column ↔
        region.columns.start ≤ column ∧ start ≤ ⟨row, column, .left⟩ := by
    split
    · rename_i hrow
      rw [hrow, ← cut_le (by omega), max_le_iff, and_comm]
    · exact ⟨fun h => ⟨h, left_of_row (by omega)⟩, fun h => h.1⟩
  have hlast : (column < if row = stop.row then min stop.cut region.columns.stop
      else region.columns.stop) ↔
        column < region.columns.stop ∧ ⟨row, column, .right⟩ ≤ stop := by
    split
    · rename_i hrow
      rw [hrow, ← lt_cut (by omega), lt_min_iff, and_comm]
    · exact ⟨fun h => ⟨h, right_of_row (by omega)⟩, fun h => h.1⟩
  rw [hfirst, hlast, Chosen, contains_iff]
  tauto

lemma chosen_rows {columns : Span} {start stop : Edge} {row column : ℕ}
    (h : Chosen columns start stop row column) : start.row ≤ row ∧ row ≤ stop.row := by
  obtain ⟨-, hstart, hstop⟩ := h
  simp only [edge_le_iff] at hstart hstop
  omega

lemma painted_iff {spans : List (ℕ × Span)} (hstop : region.columns.stop ≤ u16Max)
    (hbottom : region.bottom ≤ u32Max)
    (hstartIn : region.columns.contains (selection.ends region).1.column = true)
    (hstopIn : region.columns.contains (selection.ends region).2.column = true)
    (hspans : selection.spans region = some spans) (row column : ℕ) :
    Painted spans region row column ↔
      region.shows row = true ∧
        Chosen region.columns (selection.ends region).1 (selection.ends region).2 row column := by
  have hrow : (selection.ends region).2.row ≤ u32Max := (ends_row hbottom).2
  simp only [Selection.spans, Option.bind_eq_bind, Option.bind_eq_some_iff] at hspans
  obtain ⟨bottom, hcontent, hspans⟩ := hspans
  generalize (selection.ends region).1 = start at *
  generalize (selection.ends region).2 = stop at *
  simp only [Region.contentRow, unsigned, Option.map_eq_some_iff] at hcontent
  obtain ⟨offset, hoffset, rfl⟩ := hcontent
  split at hspans
  · rename_i hempty
    cases hspans
    simp only [Span.isEmpty, decide_eq_true_eq] at hempty
    constructor
    · rintro ⟨grid, span, hmem, -⟩
      cases hmem
    · rintro ⟨hshown, -⟩
      obtain ⟨grid, hgrid⟩ := Option.isSome_iff_exists.mp hshown
      have := gridRow_eq_some.mp hgrid
      omega
  · cases hspans
    constructor
    · rintro ⟨grid, span, hmem, hgrid, hcolumn⟩
      obtain ⟨row', hrow', hspan⟩ := List.mem_filterMap.mp hmem
      obtain rfl : row' = row := by
        have h := gridRow_eq_some.mp (spanOf_eq_some.mp hspan).1
        have h' := gridRow_eq_some.mp hgrid
        omega
      rw [List.mem_range'_1] at hrow'
      refine ⟨Option.isSome_iff_exists.mpr ⟨grid, hgrid⟩, ?_⟩
      obtain ⟨-, -, hfirst, hlast⟩ := spanOf_eq_some.mp hspan
      rw [contains_iff, hfirst, hlast] at hcolumn
      exact (chosen_iff hstop hstartIn hstopIn (by omega)).mp hcolumn
    · rintro ⟨hshown, hchosen⟩
      obtain ⟨grid, hgrid⟩ := Option.isSome_iff_exists.mp hshown
      have hrows := chosen_rows hchosen
      have hinside := (chosen_iff hstop hstartIn hstopIn hrows).mpr hchosen
      refine ⟨grid, ⟨_, _⟩, List.mem_filterMap.mpr ⟨row, ?_, spanOf_eq_some.mpr
        ⟨hgrid, hinside.1.trans_lt hinside.2, rfl, rfl⟩⟩, hgrid, contains_iff.mpr hinside⟩
      have hbounds := gridRow_eq_some.mp hgrid
      split at hoffset
      · cases hoffset
      · cases hoffset
        rw [List.mem_range'_1]
        omega

end Painting

section Reading

variable {selection : Selection} {region : Region}

def Reached (selection : Selection) (region : Region) : Prop :=
  region.columns.stop = 0 ∨ ∀ first last,
    firstPoint region.columns (selection.ends region).1 = some first →
    lastPoint region.columns (selection.ends region).2 = some last → first ≤ last →
    region.columns.start ≤ first.col ∧ region.columns.start ≤ last.col

lemma localPoint_eq_some {columns : Span} {point moved : Point} :
    localPoint columns point = some moved ↔
      columns.start ≤ point.col ∧ moved = ⟨point.row, point.col - columns.start⟩ := by
  simp only [localPoint, unsigned]
  split
  · simp only [Option.map_none, reduceCtorEq, false_iff]
    omega
  · simp only [Option.map_some, Option.some.injEq]
    constructor
    · rintro rfl
      exact ⟨by omega, rfl⟩
    · rintro ⟨-, rfl⟩
      rfl

lemma paneRange_cases {paneId : String} (region : Region)
    (htarget : selection.target = .pane paneId) :
    (¬Reached selection region ∧ selection.paneRange region = none) ∨
    (Reached selection region ∧ selection.paneRange region = some none ∧
      (region.columns.stop = 0 ∨ firstPoint region.columns (selection.ends region).1 = none ∨
        lastPoint region.columns (selection.ends region).2 = none ∨
        ∃ first last, firstPoint region.columns (selection.ends region).1 = some first ∧
          lastPoint region.columns (selection.ends region).2 = some last ∧ ¬first ≤ last)) ∨
    (Reached selection region ∧ ∃ first last,
      firstPoint region.columns (selection.ends region).1 = some first ∧
      lastPoint region.columns (selection.ends region).2 = some last ∧ first ≤ last ∧
      region.columns.start ≤ first.col ∧ region.columns.start ≤ last.col ∧
      selection.paneRange region = some (some (paneId,
        ⟨⟨first.row, first.col - region.columns.start⟩,
          ⟨last.row, last.col - region.columns.start⟩⟩))) := by
  simp only [Selection.paneRange, htarget, Reached]
  by_cases hzero : region.columns.stop = 0
  · simp [hzero]
  · cases hfirst : firstPoint region.columns (selection.ends region).1 with
    | none => simp [hzero]
    | some first =>
      cases hlast : lastPoint region.columns (selection.ends region).2 with
      | none => simp [hzero]
      | some last =>
        by_cases hle : first ≤ last
        · by_cases hreached : region.columns.start ≤ first.col ∧ region.columns.start ≤ last.col
          · have hfirst' := localPoint_eq_some.mpr ⟨hreached.1, rfl⟩
            have hlast' := localPoint_eq_some.mpr ⟨hreached.2, rfl⟩
            simp [hzero, hle, hreached, hfirst', hlast']
          · have hnone : ((localPoint region.columns first).bind fun first =>
                (localPoint region.columns last).bind fun last =>
                  some (some (paneId, (⟨first, last⟩ : TextRange)))) = none := by
              rw [Option.bind_eq_none_iff]
              intro moved hmoved
              rw [Option.bind_eq_none_iff]
              intro moved' hmoved'
              exact absurd ⟨(localPoint_eq_some.mp hmoved).1, (localPoint_eq_some.mp hmoved').1⟩
                hreached
            left
            refine ⟨?_, ?_⟩
            · simpa [hzero, hle] using fun h => not_and.mp hreached h
            · simpa [hzero, hle] using hnone
        · simp [hzero, hle]

end Reading

def Sound (selection : Selection) (surface : Surface) : Prop :=
  (selection.rows surface ≠ none ∧ selection.offscreenRange surface ≠ none ∧
    selection.contentRange surface ≠ none ∧
    ∀ widths, selection.text widths surface ≠ none) ∧
  ∀ paneId found spans range, selection.target = .pane paneId →
    region surface selection.target = some found →
    found.columns.contains (selection.ends found).1.column = true →
    found.columns.contains (selection.ends found).2.column = true →
    selection.rows surface = some spans → selection.contentRange surface = some range →
      (∀ row column, Painted spans found row column ↔ found.shows row = true ∧
        ∃ cells, range = some (paneId, cells) ∧ cells.Holds found.columns row column) ∧
      (range = none ↔ ∀ row column,
        ¬Chosen found.columns (selection.ends found).1 (selection.ends found).2 row column) ∧
      (∀ id cells, range = some (id, cells) → id = paneId ∧ ∀ row column,
        cells.Holds found.columns row column ↔
          Chosen found.columns (selection.ends found).1 (selection.ends found).2 row column)

def Paintable (selection : Selection) (surface : Surface) : Prop :=
  ∀ paneId found, selection.target = .pane paneId →
    region surface selection.target = some found → Rowed found ∧ Reached selection found

lemma popup_rowed {surface : Surface} {terminalId : String} {found : Region}
    (h : region surface (.popup terminalId) = some found) :
    Rowed found ∧ found.rows.start ≤ found.rows.stop := by
  simp only [region, Option.map_eq_some_iff] at h
  obtain ⟨popup, -, rfl⟩ := h
  exact ⟨.inr rfl, Nat.zero_le _⟩

section Sound

variable {selection : Selection} {surface : Surface}

lemma region_rows {found : Region} (h : region surface selection.target = some found) :
    found.rows.start ≤ found.rows.stop := by
  cases htarget : selection.target with
  | pane paneId =>
    rw [htarget] at h
    obtain ⟨pane, rfl⟩ := region_pane h
    exact (paneRegion_bounds pane).2.2
  | popup terminalId =>
    rw [htarget] at h
    exact (popup_rowed h).2

lemma rows_ne_none (h : Paintable selection surface) : selection.rows surface ≠ none := by
  rw [Selection.rows]
  cases hfound : region surface selection.target with
  | none => simp
  | some found =>
    rw [ne_eq, spans_eq_none (region_rows hfound), not_not]
    cases htarget : selection.target with
    | pane paneId => exact (h paneId found htarget hfound).1
    | popup terminalId =>
      rw [htarget] at hfound
      exact (popup_rowed hfound).1

lemma paneRange_ne_none (h : Paintable selection surface) {found : Region}
    (hfound : region surface selection.target = some found) : selection.paneRange found ≠ none := by
  cases htarget : selection.target with
  | pane paneId =>
    have hreached := (h paneId found htarget hfound).2
    rcases paneRange_cases found htarget with
      ⟨hnot, -⟩ | ⟨-, hnone, -⟩ | ⟨-, _, _, -, -, -, -, -, hsome⟩
    · exact absurd hreached hnot
    · simp [hnone]
    · simp [hsome]
  | popup terminalId => simp [Selection.paneRange, htarget]

lemma contentRange_ne_none (h : Paintable selection surface) :
    selection.contentRange surface ≠ none := by
  rw [Selection.contentRange]
  cases hfound : region surface selection.target with
  | none => simp
  | some found => exact paneRange_ne_none h hfound

lemma offscreenRange_ne_none (h : Paintable selection surface) :
    selection.offscreenRange surface ≠ none := by
  rw [Selection.offscreenRange]
  cases hfound : region surface selection.target with
  | none => simp
  | some found =>
    dsimp only
    split
    · simp
    · exact paneRange_ne_none h hfound

lemma spans_start {found : Region} {spans : List (ℕ × Span)}
    (h : selection.spans found = some spans) :
    ∀ span ∈ spans, found.columns.start ≤ span.2.start := by
  simp only [Selection.spans, Option.bind_eq_bind, Option.bind_eq_some_iff] at h
  obtain ⟨bottom, -, h⟩ := h
  split at h
  · cases h
    simp
  · cases h
    rintro ⟨grid, span⟩ hspan
    obtain ⟨row, -, hrow⟩ := List.mem_filterMap.mp hspan
    obtain ⟨-, -, hfirst, -⟩ := spanOf_eq_some.mp hrow
    rw [hfirst]
    split
    · exact le_max_right _ _
    · exact le_rfl

lemma readRows_ne_none (widths : Widths) (frame : Frame) (found : Region) (text : String)
    {rows : List ((ℕ × Span) × ℕ)} (h : ∀ row ∈ rows, found.columns.start ≤ row.1.2.start) :
    readRows widths frame found text rows ≠ none := by
  induction rows generalizing text with
  | nil => simp [readRows]
  | cons row rows ih =>
    obtain ⟨hrow, hrows⟩ := List.forall_mem_cons.mp h
    have hsome : readRow widths frame found text row ≠ none := by
      have hskip : unsigned row.1.2.start found.columns.start =
          some (row.1.2.start - found.columns.start) := by
        rw [unsigned, if_neg (by omega)]
      simp only [readRow, hskip]
      split
      · simp
      · split <;> simp
    rw [readRows]
    split
    · exact absurd ‹_› hsome
    · simp
    · exact ih _ hrows

lemma text_ne_none (h : Paintable selection surface) (widths : Widths) :
    selection.text widths surface ≠ none := by
  rw [Selection.text]
  split
  · rename_i found frame hfound hframe
    dsimp only
    split
    · simp
    · obtain ⟨spans, hspans⟩ := Option.ne_none_iff_exists'.mp (rows_ne_none h)
      rw [Selection.rows, hfound] at hspans
      simp only [hspans, Option.bind_eq_bind, Option.bind_some]
      refine readRows_ne_none widths frame found "" fun row hrow => ?_
      exact spans_start hspans row.1 (List.fst_mem_of_mem_zipIdx hrow)
  · simp

lemma contentRange_chosen {paneId : String} {found : Region}
    {range : Option (String × TextRange)} (hbottom : found.bottom ≤ u32Max)
    (htarget : selection.target = .pane paneId)
    (hstartIn : found.columns.contains (selection.ends found).1.column = true)
    (hstopIn : found.columns.contains (selection.ends found).2.column = true)
    (hrange : selection.paneRange found = some range) :
    (range = none ∧ ∀ row column,
      ¬Chosen found.columns (selection.ends found).1 (selection.ends found).2 row column) ∨
    ∃ cells, range = some (paneId, cells) ∧
      (∃ row column,
        Chosen found.columns (selection.ends found).1 (selection.ends found).2 row column) ∧
      ∀ row column, cells.Holds found.columns row column ↔
        Chosen found.columns (selection.ends found).1 (selection.ends found).2 row column := by
  have hrows : (selection.ends found).2.row ≤ u32Max := (ends_row hbottom).2
  rcases paneRange_cases found htarget with ⟨-, hnone⟩ | ⟨-, hnone, hcases⟩ |
    ⟨-, first, last, hfirst, hlast, hle, hfirstCol, hlastCol, hsome⟩
  · rw [hnone] at hrange
    cases hrange
  · rw [hnone] at hrange
    refine .inl ⟨(Option.some.inj hrange).symm, fun row column hchosen => ?_⟩
    have hbetween := chosen_rows hchosen
    obtain ⟨hcolumn, hstart, hstop⟩ := hchosen
    rcases hcases with hzero | hfirst | hlast | ⟨first, last, hfirst, hlast, hle⟩
    · rw [contains_iff] at hcolumn
      omega
    · exact firstPoint_none hstartIn hfirst (hbetween.2.trans hrows) hcolumn hstart
    · exact lastPoint_none hstopIn hlast hcolumn hstop
    · have hfirstLe := ((firstPoint_some hstartIn hfirst).2 row column hcolumn).mp hstart
      have hleLast := ((lastPoint_some hstopIn hlast).2 row column hcolumn).mp hstop
      simp only [point_le_iff] at hfirstLe hleLast hle
      omega
  · rw [hsome] at hrange
    obtain ⟨hfirstIn, hfirstIff⟩ := firstPoint_some hstartIn hfirst
    obtain ⟨hlastIn, hlastIff⟩ := lastPoint_some hstopIn hlast
    refine .inr ⟨_, (Option.some.inj hrange).symm, ⟨first.row, first.col, hfirstIn, ?_, ?_⟩, ?_⟩
    · refine (hfirstIff _ _ hfirstIn).mpr ?_
      exact .inr ⟨rfl, le_rfl⟩
    · exact (hlastIff _ _ hfirstIn).mpr hle
    · intro row column
      simp only [TextRange.Holds, Chosen]
      refine and_congr_right fun hcolumn => ?_
      rw [hfirstIff row column hcolumn, hlastIff row column hcolumn]
      rw [contains_iff] at hcolumn
      simp only [point_le_iff]
      omega

end Sound

def paneAt (x y height : ℕ) (hx : x ≤ u16Max) (hy : y ≤ u16Max) : Surface where
  frame := ⟨20, 4, List.replicate 80 ⟨"a", 0, false⟩⟩
  panes := [⟨"pane", ⟨x, y, 10, height, hx, hy⟩, none⟩]
  popup := none

def dragged : Selection :=
  (Selection.extend ⟨.pane "pane", .cell, (⟨0, 1, .left⟩, ⟨0, 1, .left⟩), ⟨0, 1, .left⟩,
    ⟨0, 1, .left⟩, by decide⟩ (⟨0, 2, .right⟩, ⟨0, 2, .right⟩) (by decide)).1

example : dragged.contentRange (paneAt 0 0 2 (by decide) (by decide)) =
    some (some ("pane", ⟨⟨0, 1⟩, ⟨0, 2⟩⟩)) := by
  decide

lemma moved_pane_underflows :
    dragged.contentRange (paneAt 4 0 2 (by decide) (by decide)) = none ∧
      dragged.rows (paneAt 0 1 0 (by decide) (by decide)) = none := by
  decide

end Sheprd.Terminal.Selecting
