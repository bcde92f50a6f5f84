import Sheprd.Lib.Text
import Sheprd.Protocol.Wire
import Sheprd.Ansi.Runs
import Sheprd.Lib.Fuel

namespace Sheprd.Ansi

open Sheprd.Lib Sheprd.Protocol

def chunks (size : ℕ) (cells : List CellData) : List (List CellData) :=
  (List.range ((cells.length + size - 1) / size)).map fun row => (cells.drop (row * size)).take size

def modifiers : List (UInt16 × ℕ) := [(1, 1), (2, 2), (4, 3), (8, 4), (64, 7), (128, 8), (256, 9)]

def color (value : UInt32) (background : Bool) : List ℕ :=
  let code := if background then 48 else 38
  if value >>> 24 = 1 then [code, 5, (value &&& 255).toNat]
  else if value >>> 24 = 2 then
    [code, 2, ((value >>> 16) &&& 255).toNat, ((value >>> 8) &&& 255).toNat, (value &&& 255).toNat]
  else if 1 ≤ value ∧ value ≤ 16 then
    let index := (value - 1).toNat
    let base := if background then 40 else 30
    [base + index % 8 + if index ≥ 8 then 60 else 0]
  else []

def fields (codes : List ℕ) : List Char := codes.flatMap fun code => ';' :: code.repr.toList

abbrev Look := UInt32 × UInt32 × UInt16

def codes : Look → List ℕ
  | (fg, bg, modifier) =>
      (modifiers.filter fun (bit, _) => modifier &&& bit ≠ 0).map Prod.snd ++ color fg false ++ color bg true

def sequence (codes : List ℕ) : List Char := '\x1b' :: '[' :: '0' :: fields codes ++ ['m']

def visible (cell : CellData) : List Char := cell.symbol.toList.filter fun c => !Text.isControl c

def writeCell (written : List Char × Option Look) (cell : CellData) : List Char × Option Look :=
  let (text, style) := written
  let next := (cell.fg, cell.bg, cell.modifier)
  let text := if style ≠ some next then text ++ sequence (codes next) else text
  (text ++ visible cell, some next)

def writeRow (written : List Char × Option Look) (row : List CellData) : List Char × Option Look :=
  let (text, style) := written
  let written := if text ≠ [] then (text ++ sequence [] ++ ['\n'], none) else (text, style)
  (row.filter fun cell => !cell.skip).foldl writeCell written

def ansi (cells : List CellData) (cols : UInt16) : String :=
  .ofList (((chunks cols.toNat cells).foldl writeRow ([], none)).1 ++ sequence [])

end Sheprd.Ansi

namespace Sheprd.Ansi

open Sheprd.Lib Sheprd.Lib.Fuel Sheprd.Protocol

def cubeLevels : List UInt8 := [0, 95, 135, 175, 215, 255]

def terminalColors : List Color :=
  (List.range 16).map (fun index => .named (UInt8.ofNat index)) ++
    (cubeLevels.flatMap fun r => cubeLevels.flatMap fun g => cubeLevels.map fun b => .rgb r g b) ++
    (List.range 24).map fun step => .rgb (UInt8.ofNat (8 + 10 * step)) (UInt8.ofNat (8 + 10 * step))
      (UInt8.ofNat (8 + 10 * step))

def cellColor (value : UInt32) : Color :=
  if value >>> 24 = 1 then terminalColors.getD value.toUInt8.toNat .default
  else if value >>> 24 = 2 then .rgb (value >>> 16).toUInt8 (value >>> 8).toUInt8 value.toUInt8
  else if 1 ≤ value ∧ value ≤ 16 then .named (value - 1).toUInt8
  else .default

def lookStyle : Look → Style
  | (fg, bg, modifier) =>
      { fg := cellColor fg
        bg := cellColor bg
        bold := modifier &&& 1 ≠ 0
        dim := modifier &&& 2 ≠ 0
        italic := modifier &&& 4 ≠ 0
        underline := modifier &&& 8 ≠ 0
        reverse := modifier &&& 64 ≠ 0
        hidden := modifier &&& 128 ≠ 0
        strike := modifier &&& 256 ≠ 0 }

def look (cell : CellData) : Look := (cell.fg, cell.bg, cell.modifier)

def shown (row : List CellData) : List (Style × Char) :=
  (row.filter fun cell => !cell.skip).flatMap fun cell => (visible cell).map fun c => (lookStyle (look cell), c)

def expand (runs : List (Style × String)) : List (Style × Char) :=
  runs.flatMap fun run => run.2.toList.map fun c => (run.1, c)

section Codes

variable {style : Style}

def paint (background : Bool) (color : Color) (style : Style) : Style :=
  if background then { style with bg := color } else { style with fg := color }

def ground (background : Bool) (style : Style) : Color := if background then style.bg else style.fg

lemma paint_ground {background : Bool} {c : Color} (h : ground background style = c) :
    paint background c style = style := by
  cases background <;> cases h <;> rfl

lemma mark_reads {code : ℕ} (hf : code ≠ 38) (hb : code ≠ 48) (style : Style) :
    Reads applyCodes [code] style (mark style code) := by
  refine Reads.unit (List.cons_ne_nil _ _) fun fuel rest => ?_
  rw [List.singleton_append, applyCodes, if_neg hf, if_neg hb]

lemma applyCodes_extended (fuel : ℕ) (background : Bool) (codes : List ℕ) (style : Style) :
    applyCodes (fuel + 1) ((if background then 48 else 38) :: codes) style =
      applyCodes fuel (extended codes).2 (paint background (extended codes).1 style) := by
  cases background <;> rfl

lemma byte_low (value : UInt32) (codes : List ℕ) : byte ((value &&& 255).toNat :: codes) = (value.toUInt8, codes) := by
  have hlow : (value &&& 255).toNat = value.toNat % 256 := by
    rw [UInt32.toNat_and]
    exact Nat.and_two_pow_sub_one_eq_mod value.toNat 8
  have hbyte : UInt8.ofNat (value.toNat % 256) = value.toUInt8 := by
    rw [← UInt8.toNat_inj, UInt8.toNat_ofNat', UInt32.toNat_toUInt8, Nat.mod_mod]
  rw [byte, hlow, if_pos (Nat.mod_lt _ (by decide)), hbyte]

lemma palette_terminal (index : UInt8) : palette index = terminalColors.getD index.toNat .default := by
  have hall : ∀ n < 256, palette (UInt8.ofNat n) = terminalColors.getD n .default := by decide +kernel
  have hindex := hall index.toNat index.toNat_lt
  rwa [UInt8.ofNat_toNat] at hindex

lemma extended_palette (value : UInt32) (codes : List ℕ) :
    extended (5 :: (value &&& 255).toNat :: codes) =
      (terminalColors.getD value.toUInt8.toNat .default, codes) := by
  simp only [extended, byte_low, palette_terminal]

lemma extended_own (r g b : UInt32) (codes : List ℕ) :
    extended (2 :: (r &&& 255).toNat :: (g &&& 255).toNat :: (b &&& 255).toNat :: codes) =
      (.rgb r.toUInt8 g.toUInt8 b.toUInt8, codes) := by
  simp only [extended, byte_low]

def namedCode (background : Bool) (index : ℕ) : ℕ :=
  (if background then 40 else 30) + index % 8 + if index ≥ 8 then 60 else 0

lemma namedCode_alone {index : ℕ} (h : index < 16) (background : Bool) :
    namedCode background index ≠ 38 ∧ namedCode background index ≠ 48 := by
  cases background <;> interval_cases index <;> decide

lemma namedCode_lt (background : Bool) (index : ℕ) : namedCode background index < 256 := by
  have hbase : (if background then 40 else 30) ≤ 40 := by cases background <;> decide
  have hbright : (if index ≥ 8 then 60 else 0) ≤ 60 := by split <;> decide
  rw [namedCode]
  omega

lemma mark_named {index : ℕ} (h : index < 16) (background : Bool) (style : Style) :
    mark style (namedCode background index) = paint background (.named (UInt8.ofNat index)) style := by
  cases background <;> interval_cases index <;> rfl

lemma color_reads (value : UInt32) (background : Bool) (h : ground background style = .default) :
    Reads applyCodes (color value background) style (paint background (cellColor value) style) := by
  rw [color, cellColor]
  split
  · refine Reads.unit (List.cons_ne_nil _ _) fun fuel rest => ?_
    rw [List.cons_append, applyCodes_extended]
    exact congrArg (fun c : Color × List ℕ => applyCodes fuel c.2 (paint background c.1 style))
      (extended_palette value rest)
  · split
    · refine Reads.unit (List.cons_ne_nil _ _) fun fuel rest => ?_
      rw [List.cons_append, applyCodes_extended]
      exact congrArg (fun c : Color × List ℕ => applyCodes fuel c.2 (paint background c.1 style))
        (extended_own (value >>> 16) (value >>> 8) value rest)
    · split
      · rename_i hnamed
        have hle := UInt32.le_iff_toNat_le.mp hnamed.2
        have hlow : (value - 1).toNat < 16 := by
          rw [UInt32.toNat_sub_of_le _ _ hnamed.1]
          have hone : (1 : UInt32).toNat = 1 := rfl
          have hsixteen : (16 : UInt32).toNat = 16 := rfl
          omega
        have hmarks := mark_reads (namedCode_alone hlow background).1 (namedCode_alone hlow background).2 style
        rw [mark_named hlow] at hmarks
        exact hmarks
      · rw [paint_ground h]
        exact Reads.nil _ style

lemma marks_reads {p : UInt16 × ℕ → Bool} {marks : List (UInt16 × ℕ)}
    (h : ∀ m ∈ marks, m.2 ≠ 38 ∧ m.2 ≠ 48) (style : Style) :
    Reads applyCodes ((marks.filter p).map Prod.snd) style
      (marks.foldl (fun style m => if p m then mark style m.2 else style) style) := by
  induction marks generalizing style with
  | nil => exact Reads.nil _ style
  | cons m marks ih =>
    obtain ⟨hm, hmarks⟩ := List.forall_mem_cons.mp h
    rw [List.filter_cons, List.foldl_cons]
    cases p m with
    | true => exact (mark_reads hm.1 hm.2 style).append (ih hmarks _)
    | false => exact ih hmarks style

lemma marks_style (modifier : UInt16) :
    modifiers.foldl (fun style m => if decide (modifier &&& m.1 ≠ 0) then mark style m.2 else style) {} =
      lookStyle (0, 0, modifier) := by
  simp only [modifiers, List.foldl_cons, List.foldl_nil, lookStyle]
  generalize decide (modifier &&& 1 ≠ 0) = bold
  generalize decide (modifier &&& 2 ≠ 0) = dim
  generalize decide (modifier &&& 4 ≠ 0) = italic
  generalize decide (modifier &&& 8 ≠ 0) = underline
  generalize decide (modifier &&& 64 ≠ 0) = reverse
  generalize decide (modifier &&& 128 ≠ 0) = hidden
  generalize decide (modifier &&& 256 ≠ 0) = strike
  revert bold dim italic underline reverse hidden strike
  decide

lemma codes_reads (look : Look) (style : Style) :
    Reads applyCodes (0 :: codes look) style (lookStyle look) := by
  obtain ⟨fg, bg, modifier⟩ := look
  have hplain : ∀ m ∈ modifiers, m.2 ≠ 38 ∧ m.2 ≠ 48 := by decide
  have hmarks := marks_reads (p := fun m => modifier &&& m.1 ≠ 0) hplain {}
  rw [marks_style] at hmarks
  have hfg := color_reads fg false (show ground false (lookStyle (0, 0, modifier)) = .default from rfl)
  have hbg := color_reads bg true
    (show ground true (paint false (cellColor fg) (lookStyle (0, 0, modifier))) = .default from rfl)
  have hreset : Reads applyCodes [0] style {} := mark_reads (by decide) (by decide) style
  exact hreset.append ((hmarks.append hfg).append hbg)

end Codes

section Sequence

variable {codes : List ℕ} {c : Char}

lemma fields_length {digits : ℕ} (hd : 0 < digits) (h : ∀ code ∈ codes, code < 10 ^ digits) :
    (fields codes).length ≤ (digits + 1) * codes.length := by
  induction codes with
  | nil => exact Nat.zero_le _
  | cons code codes ih =>
    obtain ⟨hcode, hcodes⟩ := List.forall_mem_cons.mp h
    have hrepr : code.repr.length ≤ digits := Nat.repr_length code digits hd hcode
    have hrest := ih hcodes
    rw [fields, List.flatMap_cons, List.length_append, List.length_cons, String.length_toList, List.length_cons,
      Nat.mul_succ]
    rw [fields] at hrest
    omega

lemma color_codes (value : UInt32) (background : Bool) :
    (color value background).length ≤ 5 ∧ ∀ code ∈ color value background, code < 256 := by
  have hlow : ∀ v : UInt32, (v &&& 255).toNat < 256 := fun v => by
    rw [UInt32.toNat_and]
    exact Nat.lt_succ_of_le Nat.and_le_right
  have hcode : (if background then 48 else 38) < 256 := by cases background <;> decide
  rw [color]
  split
  · refine ⟨by simp, ?_⟩
    simp only [List.forall_mem_cons]
    exact ⟨hcode, by decide, hlow value, List.forall_mem_nil _⟩
  · split
    · refine ⟨by simp, ?_⟩
      simp only [List.forall_mem_cons]
      exact ⟨hcode, by decide, hlow _, hlow _, hlow value, List.forall_mem_nil _⟩
    · split
      · exact ⟨by simp, List.forall_mem_singleton.mpr (namedCode_lt background (value - 1).toNat)⟩
      · exact ⟨Nat.zero_le 5, List.forall_mem_nil _⟩

lemma mark_codes (p : UInt16 × ℕ → Bool) :
    ((modifiers.filter p).map Prod.snd).length ≤ 7 ∧ ∀ code ∈ (modifiers.filter p).map Prod.snd, code < 10 := by
  constructor
  · rw [List.length_map]
    exact List.length_filter_le _ _
  · intro code hmem
    obtain ⟨m, hm, rfl⟩ := List.mem_map.mp hmem
    have hsmall : ∀ m ∈ modifiers, m.2 < 10 := by decide
    exact hsmall m (List.mem_filter.mp hm).1

lemma codes_lt (look : Look) : ∀ code ∈ Ansi.codes look, code < 256 := by
  obtain ⟨fg, bg, modifier⟩ := look
  intro code hmem
  rw [Ansi.codes, List.mem_append, List.mem_append] at hmem
  obtain (hmark | hfg) | hbg := hmem
  · exact ((mark_codes _).2 code hmark).trans (by decide)
  · exact (color_codes fg false).2 code hfg
  · exact (color_codes bg true).2 code hbg

lemma color_length (value : UInt32) (background : Bool) : (fields (color value background)).length ≤ 20 := by
  obtain ⟨hfew, hlow⟩ := color_codes value background
  have hlength := fields_length (by decide : 0 < 3) fun code hm => (hlow code hm).trans (by decide)
  omega

lemma codes_length (look : Look) : (fields (Ansi.codes look)).length ≤ 54 := by
  obtain ⟨fg, bg, modifier⟩ := look
  obtain ⟨hfew, hsmall⟩ := mark_codes fun (bit, _) => modifier &&& bit ≠ 0
  have hmarks := (fields_length (by decide : 0 < 1) hsmall).trans (Nat.mul_le_mul_left 2 hfew)
  rw [Ansi.codes, fields, List.flatMap_append, List.flatMap_append, List.length_append, List.length_append]
  exact Nat.add_le_add (Nat.add_le_add hmarks (color_length fg false)) (color_length bg true)

lemma plain_fields (h : c ∈ '0' :: fields codes) : 48 ≤ c.toNat ∧ c.toNat ≤ 59 := by
  obtain rfl | h := List.mem_cons.mp h
  · decide
  · obtain ⟨code, -, h⟩ := List.mem_flatMap.mp h
    obtain rfl | h := List.mem_cons.mp h
    · decide
    · obtain ⟨hlow, hhigh⟩ := Char.isDigit_iff_toNat.mp (Text.isDigit_of_repr h)
      exact ⟨hlow, hhigh.trans (by decide)⟩

lemma readParameters_plain {parameters text : List Char} (h : ∀ c ∈ text, 48 ≤ c.toNat ∧ c.toNat ≤ 59)
    (hsize : (String.ofList parameters).utf8ByteSize + text.length ≤ 64) (rest : List Char) :
    readParameters parameters (text ++ 'm' :: rest) = (parameters ++ text, some 'm', rest) := by
  induction text generalizing parameters with
  | nil =>
    rw [List.nil_append, readParameters, if_pos (by decide), List.append_nil]
  | cons c text ih =>
    obtain ⟨⟨hlow, hhigh⟩, htext⟩ := List.forall_mem_cons.mp h
    have hplain : ¬ ('\x40' ≤ c ∧ c ≤ '\x7e') := by
      rintro ⟨hc, -⟩
      have hc : (64 : ℕ) ≤ c.toNat := hc
      omega
    have hone : c.utf8Size = 1 := by
      rw [Char.utf8Size_eq_one_iff]
      exact UInt32.le_iff_toNat_le.mpr (hhigh.trans (by decide))
    have hpushed : (String.ofList (parameters ++ [c])).utf8ByteSize =
        (String.ofList parameters).utf8ByteSize + 1 := by
      rw [String.ofList_append, String.utf8ByteSize_append, Text.size_ofList_cons, hone]
      rfl
    rw [List.length_cons] at hsize
    rw [List.cons_append, readParameters, if_neg hplain, if_pos (by omega), ih htext (by omega),
      List.append_assoc, List.singleton_append]

lemma apply_fields (hlow : ∀ code ∈ codes, code < 256) (style : Style) :
    apply style ('0' :: fields codes) = applyCodes (0 :: codes).length (0 :: codes) style := by
  have hmark : ∀ c : Char, c.isDigit = true → c ∉ [';', ':'] := by
    intro c hdigit hmem
    obtain rfl | hmem := List.mem_cons.mp hmem
    · exact absurd hdigit (by decide)
    · rw [List.mem_singleton.mp hmem] at hdigit
      exact absurd hdigit (by decide)
  have hsplit : Text.splitOn [';', ':'] ('0' :: fields codes) = ['0'] :: codes.map fun code => code.repr.toList := by
    have hfields : fields codes = (codes.map fun code => code.repr.toList).flatMap fun part => ';' :: part := by
      rw [fields, List.flatMap_map]
    rw [hfields]
    refine Text.splitOn_flatMap List.mem_cons_self (List.forall_mem_singleton.mpr (hmark '0' rfl)) ?_
    intro part hpart c hc
    obtain ⟨code, -, rfl⟩ := List.mem_map.mp hpart
    exact hmark c (Text.isDigit_of_repr hc)
  have hparse : (codes.map fun code => code.repr.toList).map (fun code => (parseU16 code).getD 0) = codes := by
    have hcode : ∀ code ∈ codes, (parseU16 code.repr.toList).getD 0 = code := by
      intro code hmem
      have hfits : decide (code < 2 ^ 16) = true := decide_eq_true ((hlow code hmem).trans (by decide))
      rw [parseU16, Text.decimal_repr, Option.filter_some, if_pos hfits]
      rfl
    rw [List.map_map]
    exact (List.map_congr_left hcode).trans (List.map_id' codes)
  rw [apply, if_neg (List.cons_ne_nil _ _), hsplit, List.map_cons, hparse]
  rfl

variable {line : Line}

lemma sequence_reads (hlow : ∀ code ∈ codes, code < 256) (hlength : (fields codes).length ≤ 63) {style : Style}
    (h : Reads applyCodes (0 :: codes) line.style style) :
    Reads runsFrom (sequence codes) line { line with style := style } := by
  refine Reads.unit (List.cons_ne_nil _ _) fun fuel rest => ?_
  have htext : sequence codes ++ rest = '\x1b' :: '[' :: (('0' :: fields codes) ++ 'm' :: rest) := by
    simp [sequence]
  have hread : readParameters [] (('0' :: fields codes) ++ 'm' :: rest) = ('0' :: fields codes, some 'm', rest) := by
    refine readParameters_plain (fun c hc => plain_fields hc) ?_ rest
    rw [List.length_cons]
    exact Nat.le_trans (Nat.le_of_eq (Nat.zero_add _)) (Nat.succ_le_succ hlength)
  have hstyle : apply line.style ('0' :: fields codes) = style :=
    (apply_fields hlow line.style).trans (h.whole fun fuel => by cases fuel <;> rfl)
  rw [htext, runsFrom]
  simp only [hread, hstyle, if_true]

lemma push_reads (hc : Text.isControl c = false) (line : Line) : Reads runsFrom [c] line (line.push c) := by
  refine Reads.unit (List.cons_ne_nil _ _) fun fuel rest => ?_
  have hesc : c ≠ '\x1b' := by
    rintro rfl
    cases hc
  have htab : c ≠ '\t' := by
    rintro rfl
    cases hc
  rw [List.singleton_append, runsFrom]
  · simp only [if_neg htab, hc, Bool.false_eq_true, if_false]
  · exact hesc

end Sequence

section Rows

variable {line : Line} {c : Char} {row : List CellData}

lemma expand_push (line : Line) (c : Char) : expand (line.push c).runs = expand line.runs ++ [(line.style, c)] := by
  rw [Line.push]
  cases hlast : line.runs.getLast? with
  | none =>
    simp [List.getLast?_eq_none_iff.mp hlast, expand]
  | some run =>
    obtain ⟨before, hruns⟩ := List.getLast?_eq_some_iff.mp hlast
    obtain ⟨last, text⟩ := run
    by_cases hsame : last = line.style
    · simp [hruns, hsame, expand]
    · simp [hruns, hsame, expand]

lemma pushes_read {text : List Char} (h : ∀ c ∈ text, Text.isControl c = false) (line : Line) :
    ∃ line', Reads runsFrom text line line' ∧ line'.style = line.style ∧
      expand line'.runs = expand line.runs ++ text.map fun c => (line.style, c) := by
  induction text generalizing line with
  | nil => exact ⟨line, Reads.nil _ _, rfl, (List.append_nil _).symm⟩
  | cons c text ih =>
    obtain ⟨hc, htext⟩ := List.forall_mem_cons.mp h
    obtain ⟨line', hreads, hstyle, hruns⟩ := ih htext (line.push c)
    refine ⟨line', (push_reads hc line).append hreads, hstyle, ?_⟩
    rw [hruns, expand_push, List.append_assoc]
    rfl

lemma visible_plain (cell : CellData) : ∀ c ∈ visible cell, Text.isControl c = false := by
  intro c hc
  simpa using (List.mem_filter.mp hc).2

def cellsText : Option Look → List CellData → List Char
  | _, [] => []
  | style, cell :: cells =>
      (if style ≠ some (look cell) then sequence (codes (look cell)) else []) ++ visible cell ++
        cellsText (some (look cell)) cells

lemma writeCells (cells : List CellData) (text : List Char) (style : Option Look) :
    (cells.foldl writeCell (text, style)).1 = text ++ cellsText style cells := by
  induction cells generalizing text style with
  | nil => exact (List.append_nil text).symm
  | cons cell cells ih =>
    rw [List.foldl_cons, writeCell, ih, cellsText]
    change (if style ≠ some (look cell) then text ++ sequence (codes (look cell)) else text) ++ _ ++ _ = _
    split <;> simp [look]

lemma cells_read (cells : List CellData) (style : Option Look) (line : Line)
    (h : ∀ look, style = some look → line.style = lookStyle look) :
    ∃ line', Reads runsFrom (cellsText style cells) line line' ∧
      expand line'.runs = expand line.runs ++
        cells.flatMap fun cell => (visible cell).map fun c => (lookStyle (look cell), c) := by
  induction cells generalizing style line with
  | nil => exact ⟨line, Reads.nil _ _, (List.append_nil _).symm⟩
  | cons cell cells ih =>
    have hstyled : Reads runsFrom (if style ≠ some (look cell) then sequence (codes (look cell)) else []) line
        { line with style := lookStyle (look cell) } := by
      split
      · exact sequence_reads (codes_lt _) ((codes_length _).trans (by decide)) (codes_reads _ _)
      · rename_i hsame
        rw [← h _ (not_not.mp hsame)]
        exact Reads.nil _ _
    obtain ⟨shownLine, hvisible, hstyle, hruns⟩ := pushes_read (visible_plain cell)
      { line with style := lookStyle (look cell) }
    have hlook : ∀ next, some (look cell) = some next → shownLine.style = lookStyle next := by
      intro next hnext
      rw [← Option.some.inj hnext]
      exact hstyle
    obtain ⟨line', hrest, hall⟩ := ih (some (look cell)) shownLine hlook
    refine ⟨line', (hstyled.append hvisible).append hrest, ?_⟩
    rw [hall, hruns, List.flatMap_cons, List.append_assoc]

def kept (row : List CellData) : List CellData := row.filter fun cell => !cell.skip

def rowLine (row : List CellData) : List Char := cellsText none (kept row) ++ sequence []

lemma runs_rowLine (row : List CellData) :
    (runs (Text.trimEndMatches '\r' (rowLine row)) {}).style = {} ∧
      expand (runs (Text.trimEndMatches '\r' (rowLine row)) {}).runs = shown row := by
  obtain ⟨line, hcells, hruns⟩ := cells_read (kept row) none ⟨[], 0, {}⟩ (by simp)
  have hreset : Reads runsFrom (sequence []) line { line with style := {} } :=
    sequence_reads (by simp) (Nat.zero_le _) (mark_reads (by decide) (by decide) line.style)
  have hwhole := (hcells.append hreset).whole fun fuel => by cases fuel <;> rfl
  have htrim : Text.trimEndMatches '\r' (rowLine row) = rowLine row := by
    have hend : rowLine row = (cellsText none (kept row) ++ ['\x1b', '[', '0']) ++ ['m'] := by
      simp [rowLine, sequence, fields]
    rw [hend]
    exact Text.trimEndMatches_other (by decide) _
  rw [htrim]
  change (runsFrom (rowLine row).length (rowLine row) ⟨[], 0, {}⟩).style = {} ∧
    expand (runsFrom (rowLine row).length (rowLine row) ⟨[], 0, {}⟩).runs = shown row
  rw [rowLine, hwhole]
  exact ⟨rfl, hruns⟩

lemma parse_rowLines (rows : List (List CellData)) (screen : Screen) :
    ((rows.map rowLine).foldl parseLine (screen, {})).1.lines.map expand =
      screen.lines.map expand ++ rows.map shown := by
  induction rows generalizing screen with
  | nil => exact (List.append_nil _).symm
  | cons row rows ih =>
    obtain ⟨hstyle, hruns⟩ := runs_rowLine row
    rw [List.map_cons, List.foldl_cons, parseLine, hstyle, ih, List.map_append, List.append_assoc]
    exact congrArg (fun line => screen.lines.map expand ++ ([line] ++ rows.map shown)) hruns

lemma cellsText_ne_nil {cells : List CellData} (h : cells ≠ []) : cellsText none cells ≠ [] := by
  cases cells with
  | nil => exact absurd rfl h
  | cons cell cells => simp [cellsText, sequence]

lemma writeRow_first (row : List CellData) : (writeRow ([], none) row).1 = cellsText none (kept row) :=
  writeCells (kept row) [] none

lemma writeRow_next {text : List Char} (h : text ≠ []) (style : Option Look) (row : List CellData) :
    (writeRow (text, style) row).1 = text ++ sequence [] ++ ['\n'] ++ cellsText none (kept row) := by
  rw [writeRow]
  simp only [h, ne_eq, not_false_eq_true, if_true]
  exact writeCells (kept row) _ none

lemma writeRows {text : List Char} (h : text ≠ []) (style : Option Look) (rows : List (List CellData)) :
    (rows.foldl writeRow (text, style)).1 ++ sequence [] =
      text ++ sequence [] ++ (rows.map rowLine).flatMap fun line => '\n' :: line := by
  induction rows generalizing text style with
  | nil => simp
  | cons row rows ih =>
    have hwritten := writeRow_next h style row
    have hne : (writeRow (text, style) row).1 ≠ [] := by
      rw [hwritten]
      simp [h]
    rw [List.foldl_cons, ← Prod.mk.eta (p := writeRow (text, style) row), ih hne, hwritten, List.map_cons,
      List.flatMap_cons, rowLine]
    simp only [List.append_assoc, List.cons_append, List.nil_append]

lemma ansi_rows {cells : List CellData} {cols : UInt16} {rows : List (List CellData)}
    (hrows : chunks cols.toNat cells = row :: rows) (hrow : kept row ≠ []) :
    (ansi cells cols).toList = rowLine row ++ (rows.map rowLine).flatMap fun line => '\n' :: line := by
  have hfirst := writeRow_first row
  have hne : (writeRow ([], none) row).1 ≠ [] := by
    rw [hfirst]
    exact cellsText_ne_nil hrow
  rw [ansi, String.toList_ofList, hrows, List.foldl_cons, ← Prod.mk.eta (p := writeRow ([], none) row),
    writeRows hne, hfirst, rowLine]

lemma sequence_line {codes : List ℕ} (h : c ∈ sequence codes) : c ≠ '\n' := by
  rintro rfl
  have hplain : ∀ c ∈ '0' :: fields codes, c ≠ '\n' := by
    rintro c hc rfl
    exact absurd (plain_fields hc).1 (by decide)
  rw [sequence, List.mem_append, List.mem_cons, List.mem_cons] at h
  obtain (hc | hc | hc) | hc := h
  · exact absurd hc (by decide)
  · exact absurd hc (by decide)
  · exact hplain _ hc rfl
  · exact absurd hc (by decide)

lemma cellsText_line (cells : List CellData) (style : Option Look) : ∀ c ∈ cellsText style cells, c ≠ '\n' := by
  induction cells generalizing style with
  | nil => exact List.forall_mem_nil _
  | cons cell cells ih =>
    intro c hc
    obtain hc | hc := List.mem_append.mp hc
    · obtain hc | hc := List.mem_append.mp hc
      · split at hc
        · exact sequence_line hc
        · cases hc
      · rintro rfl
        exact absurd (visible_plain cell _ hc) (by decide)
    · exact ih _ c hc

lemma rowLine_line (row : List CellData) : ∀ c ∈ rowLine row, c ∉ ['\n'] := by
  intro c hc
  rw [List.mem_singleton]
  obtain hc | hc := List.mem_append.mp hc
  · exact cellsText_line _ _ c hc
  · exact sequence_line hc

end Rows

section Chunks

lemma chunks_nil {size : ℕ} (h : 0 < size) : chunks size [] = [] := by
  have hnone : (0 + size - 1) / size = 0 := Nat.div_eq_of_lt (by omega)
  rw [chunks, List.length_nil, hnone]
  rfl

lemma chunks_ne_nil {size : ℕ} {cells : List CellData} (h : 0 < size) (hcells : cells ≠ []) :
    chunks size cells ≠ [] := by
  have hpos := List.length_pos_iff.mpr hcells
  have hone : 0 < (cells.length + size - 1) / size := Nat.div_pos (by omega) h
  rw [chunks, ne_eq, List.map_eq_nil_iff, List.range_eq_nil]
  exact hone.ne'

end Chunks

lemma ansi_lines (cells : List CellData) {cols : UInt16} (hcols : 0 < cols)
    (hrows : ∀ row ∈ chunks cols.toNat cells, ∃ cell ∈ row, cell.skip = false) :
    ∃ row rows, (ansi cells cols).toList = rowLine row ++ (rows.map rowLine).flatMap (fun line => '\n' :: line) ∧
      (row :: rows).map shown = if cells = [] then [[]] else (chunks cols.toNat cells).map shown := by
  have hpos : 0 < cols.toNat := UInt16.lt_iff_toNat_lt.mp hcols
  by_cases hcells : cells = []
  · subst hcells
    refine ⟨[], [], ?_, rfl⟩
    rw [ansi, chunks_nil hpos, String.toList_ofList]
    rfl
  · obtain ⟨row, rows, hchunks⟩ := List.exists_cons_of_ne_nil (chunks_ne_nil hpos hcells)
    obtain ⟨cell, hmem, hskip⟩ := hrows row (hchunks ▸ List.mem_cons_self)
    have hkept : kept row ≠ [] := List.ne_nil_of_mem (List.mem_filter.mpr ⟨hmem, by simp [hskip]⟩)
    exact ⟨row, rows, ansi_rows hchunks hkept, by rw [if_neg hcells, hchunks]⟩

theorem parse_ansi (cells : List CellData) (cols : UInt16) (hcols : 0 < cols)
    (hrows : ∀ row ∈ chunks cols.toNat cells, ∃ cell ∈ row, cell.skip = false)
    (hsize : (ansi cells cols).length ≤ maxText) :
    (parse (ansi cells cols)).lines.map expand =
      if cells = [] then [[]] else (chunks cols.toNat cells).map shown := by
  obtain ⟨row, rows, htext, hshown⟩ := ansi_lines cells hcols hrows
  have hlines : ∀ line ∈ rows.map rowLine, ∀ c ∈ line, c ∉ ['\n'] := by
    intro line hline
    obtain ⟨row, -, rfl⟩ := List.mem_map.mp hline
    exact rowLine_line row
  rw [parse, List.take_of_length_le (String.length_toList ▸ hsize), htext,
    Text.splitOn_flatMap List.mem_cons_self (rowLine_line row) hlines, ← List.map_cons, parse_rowLines, ← hshown]
  rfl

def wide : List CellData :=
  [⟨"界", 2, 0x01000010, 65, false, none⟩, ⟨" ", 0, 0, 0, true, none⟩,
   ⟨"x", 0x02FF8000, 0, 8, false, none⟩, ⟨"\t", 0x02FF8000, 0, 8, false, none⟩]

theorem parse_ansi_wide : (parse (ansi wide 2)).lines.map expand = (chunks 2 wide).map shown := by
  have hparsed := parse_ansi wide 2 (by decide) (by decide) (by decide)
  rw [if_neg (by decide)] at hparsed
  exact hparsed

end Sheprd.Ansi
