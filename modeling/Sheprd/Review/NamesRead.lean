import Sheprd.Review.GitSections

namespace Sheprd.Review

open Lib

variable {repair : List UInt8 → Chars} {quotePath : Bool}

section Names

variable {name : Chars}

lemma plain_nil : Plain [] := fun c hc => absurd hc (by simp)

lemma path_label (hne : name ≠ []) : path repair (label quotePath [] name) [] = name := by
  rw [label]
  split
  · exact path_quoted plain_nil
  · rename_i hplain
    have hname := plain_of_unquoted (by simpa using hplain)
    have hpath : path repair ([] ++ name ++ []) [] = name :=
      path_plain plain_nil hname (by simpa using hne) (Or.inl rfl)
    rwa [List.append_nil] at hpath

lemma quoted_length (quotePath : Bool) (name : Chars) : name.length ≤ (name.flatMap (quoteChar quotePath)).length := by
  induction name with
  | nil => exact le_rfl
  | cons c name ih =>
    have hc : quoteChar quotePath c ≠ [] := by
      intro hnil
      have hbytes := unquoteBytes_quoteChar quotePath c []
      rw [hnil] at hbytes
      simp [unquoteBytes] at hbytes
    have hlength := List.length_pos_of_ne_nil hc
    rw [List.flatMap_cons, List.length_append, List.length_cons]
    omega

lemma space_quoted (quotePath : Bool) (name : Chars) : ' ' ∈ name.flatMap (quoteChar quotePath) ↔ ' ' ∈ name := by
  rw [List.mem_flatMap]
  constructor
  · rintro ⟨c, hc, hspace⟩
    obtain hnone | rfl := (quoteChar_cases quotePath c).1
    · exact absurd hspace hnone
    · exact hc
  · intro hname
    exact ⟨' ', hname, by simp [quoteChar, isAscii]⟩

lemma space_label (name : Chars) : ' ' ∈ label quotePath ['b', '/'] name ↔ ' ' ∈ name := by
  rw [label]
  split
  · simp [space_quoted, -List.mem_flatMap]
  · simp

lemma path_tabbed :
    path repair (Section.tabbed (label quotePath ['b', '/'] name)) ['b', '/'] = name ↔
      ¬ (mustQuote quotePath name = true ∧ ' ' ∈ name) := by
  by_cases hquote : mustQuote quotePath name = true
  · have hlabel : label quotePath ['b', '/'] name =
        '"' :: ['b', '/'] ++ name.flatMap (quoteChar quotePath) ++ ['"'] := if_pos hquote
    by_cases hspace : ' ' ∈ name
    · refine iff_of_false ?_ (not_not.mpr ⟨hquote, hspace⟩)
      rw [Section.tabbed, if_pos ((space_label name).mpr hspace), hlabel, path_quoted_tab (by simp)]
      intro heq
      have hlength := congrArg List.length heq
      have hquoted := quoted_length quotePath name
      simp only [List.length_append, List.length_cons, List.length_nil] at hlength
      omega
    · refine iff_of_true ?_ fun h => hspace h.2
      rw [Section.tabbed, if_neg (mt (space_label name).mp hspace), hlabel]
      exact path_quoted newLead_plain
  · refine iff_of_true ?_ fun h => hquote h.1
    have hplain := plain_of_unquoted (Bool.eq_false_iff.mpr hquote)
    have hlabel : label quotePath ['b', '/'] name = ['b', '/'] ++ name := if_neg hquote
    rw [Section.tabbed, hlabel]
    split
    · exact path_plain newLead_plain hplain (by simp) (Or.inr rfl)
    · have hpath : path repair (['b', '/'] ++ name ++ []) ['b', '/'] = name :=
        path_plain newLead_plain hplain (by simp) (Or.inl rfl)
      rwa [List.append_nil] at hpath

lemma headerName_label (front : Chars) (hne : name ≠ []) :
    headerName repair (front ++ ' ' :: label quotePath ['b', '/'] name) = name ↔
      mustQuote quotePath name = true ∨ ¬ separator <:+: name := by
  by_cases hquote : mustQuote quotePath name = true
  · have hlabel : label quotePath ['b', '/'] name =
        '"' :: ['b', '/'] ++ name.flatMap (quoteChar quotePath) ++ ['"'] := if_pos hquote
    rw [hlabel]
    exact iff_of_true (headerName_quoted front) (Or.inl hquote)
  · have hlabel : label quotePath ['b', '/'] name = ['b', '/'] ++ name := if_neg hquote
    have hplain := plain_of_unquoted (Bool.eq_false_iff.mpr hquote)
    rw [hlabel, headerName_plain front hplain hne]
    exact ⟨Or.inr, fun h => h.resolve_left hquote⟩

lemma label_exists (name : Chars) : label quotePath ['b', '/'] name ≠ "/dev/null".toList ∧
    Section.tabbed (label quotePath ['b', '/'] name) ≠ "/dev/null".toList := by
  have hhead : ∀ tab, label quotePath ['b', '/'] name ++ tab ≠ "/dev/null".toList := by
    intro tab
    rw [label]
    split <;> simp
  refine ⟨by simpa using hhead [], ?_⟩
  rw [Section.tabbed]
  split
  · exact hhead _
  · simpa using hhead []

end Names

section Header

variable (file : Open)

lemma header_extension (line : Extension) : file.header repair line.raw = file := by
  have hall : ∀ kind : Extended, file.header repair (kind.mark ++ line.text) = file := by
    intro kind
    cases kind with
    | index =>
      change file.header repair ("index ".toList ++ line.text) = file
      simp [Open.header, strip]
    | oldMode =>
      change file.header repair ("old mode ".toList ++ line.text) = file
      simp [Open.header, strip]
    | newMode =>
      change file.header repair ("new mode ".toList ++ line.text) = file
      simp [Open.header, strip]
    | similarity =>
      change file.header repair ("similarity index ".toList ++ line.text) = file
      simp [Open.header, strip]
    | dissimilarity =>
      change file.header repair ("dissimilarity index ".toList ++ line.text) = file
      simp [Open.header, strip]
  exact hall line.kind

lemma header_added (mode : Chars) :
    file.header repair ("new file mode ".toList ++ mode) = { file with status := .added } := by
  simp [Open.header, strip]

lemma header_deleted (mode : Chars) :
    file.header repair ("deleted file mode ".toList ++ mode) = { file with status := .deleted } := by
  simp [Open.header, strip]

lemma header_renamed (name : Chars) : file.header repair ("rename from ".toList ++ name) =
    { file with status := .renamed, oldPath := some (path repair name []) } := by
  simp [Open.header, strip]

lemma header_renamedTo (name : Chars) : file.header repair ("rename to ".toList ++ name) = file := by
  simp [Open.header, strip]

lemma header_copied (name : Chars) : file.header repair ("copy from ".toList ++ name) = { file with status := .added } := by
  simp [Open.header, strip]

lemma header_copiedTo (name : Chars) : file.header repair ("copy to ".toList ++ name) = file := by
  simp [Open.header, strip]

lemma header_binary (text : Chars) : file.header repair ("Binary files ".toList ++ text) = { file with binary := true } := by
  simp [Open.header, strip]

lemma header_before (name : Chars) : file.header repair ("--- ".toList ++ name) = file := by
  simp [Open.header, strip]

lemma header_after (name : Chars) : file.header repair ("+++ ".toList ++ name) =
    if name ≠ "/dev/null".toList then { file with path := path repair name ['b', '/'] } else file := by
  have hstrip : strip ['+', '+', '+', ' '] ("+++ ".toList ++ name) = some name := by simp [strip]
  rw [Open.header, hstrip]

end Header

section Lines

lemma line_headed {file : Open} {raw : Chars} (hnone : file.hunk = none) (hraw : isHunk raw = false) :
    file.line repair raw = file.header repair raw := by
  have hmark : ¬ hunkMark.isPrefixOf raw = true := Bool.eq_false_iff.mp hraw
  unfold Open.line
  rw [if_neg hmark, hnone]

structure Headed (raw : Chars) : Prop where
  clean : Clean raw
  file : isFile raw = false
  hunk : isHunk raw = false

def cleanText (text : Chars) : Bool := text.all fun c => c ≠ '\n' ∧ c ≠ '\r'

lemma clean_literal {text : Chars} (h : cleanText text = true) : Clean text := by
  intro c hc
  exact of_decide_eq_true (List.all_eq_true.mp h c hc)

def differs (front mark : Chars) : Bool := (front.zip mark).any fun (a, b) => a ≠ b

lemma isPrefix_differs {front mark : Chars} (h : differs front mark = true) (text : Chars) :
    front.isPrefixOf (mark ++ text) = false := by
  induction front generalizing mark with
  | nil => exact absurd h (by simp [differs])
  | cons c front ih =>
    cases mark with
    | nil => exact absurd h (by simp [differs])
    | cons d mark =>
      rw [List.cons_append, List.isPrefixOf_cons_cons]
      by_cases heq : c = d
      · have hrest : differs front mark = true := by simpa [differs, heq] using h
        rw [ih hrest, Bool.and_false]
      · simp [heq]

def heading (mark : Chars) : Bool := cleanText mark && differs fileMark mark && differs hunkMark mark

lemma headed_literal {mark : Chars} (h : heading mark = true) {text : Chars} (htext : Clean text) :
    Headed (mark ++ text) := by
  rw [heading, Bool.and_eq_true, Bool.and_eq_true] at h
  exact ⟨(clean_literal h.1.1).append htext, isPrefix_differs h.1.2 text, isPrefix_differs h.2 text⟩

lemma Extension.headed (line : Extension) : Headed line.raw := by
  have hall : ∀ kind : Extended, heading kind.mark = true := by
    intro kind
    cases kind <;> decide
  exact headed_literal (hall line.kind) line.clean

variable (part : Section)

lemma clean_lead : Clean ['a', '/'] ∧ Clean ['b', '/'] ∧ Clean [] := by
  refine ⟨?_, ?_, ?_⟩ <;> exact clean_literal (by decide)

lemma clean_newSide : Clean (part.newSide quotePath) := by
  rw [Section.newSide]
  split
  · exact clean_literal (by decide)
  · exact clean_label clean_lead.2.1 _

lemma clean_oldSide : Clean (part.oldSide quotePath) := by
  rw [Section.oldSide]
  split
  · exact clean_literal (by decide)
  · exact clean_label clean_lead.1 _

lemma clean_head : Clean (fileMark ++ part.head quotePath) := by
  have hspace : Clean [' '] := clean_literal (by decide)
  have hmark : Clean fileMark := clean_literal (by decide)
  exact hmark.append ((clean_label clean_lead.1 _).append (hspace.append (clean_label clean_lead.2.1 _)))

lemma headed_change {raw : Chars} (h : raw ∈ part.changeLines quotePath) : Headed raw := by
  have hlabel : ∀ name, Clean (label quotePath [] name) := fun name => clean_label clean_lead.2.2 name
  rw [Section.changeLines] at h
  split at h
  · exact absurd h (by simp)
  · obtain rfl := List.mem_singleton.mp h
    exact headed_literal (by decide) (clean_digits _)
  · obtain rfl := List.mem_singleton.mp h
    exact headed_literal (by decide) (clean_digits _)
  · simp only [List.mem_cons, List.not_mem_nil, or_false] at h
    obtain rfl | rfl := h
    · exact headed_literal (by decide) (hlabel _)
    · exact headed_literal (by decide) (hlabel _)
  · simp only [List.mem_cons, List.not_mem_nil, or_false] at h
    obtain rfl | rfl := h
    · exact headed_literal (by decide) (hlabel _)
    · exact headed_literal (by decide) (hlabel _)

lemma headed_binary : Headed ("Binary files ".toList ++ part.oldSide quotePath ++ " and ".toList ++
    part.newSide quotePath ++ " differ".toList) := by
  have hrest : Clean (part.oldSide quotePath ++ (" and ".toList ++ (part.newSide quotePath ++ " differ".toList))) :=
    (clean_oldSide part).append ((clean_literal (by decide)).append
      ((clean_newSide part).append (clean_literal (by decide))))
  rw [List.append_assoc, List.append_assoc, List.append_assoc]
  exact headed_literal (by decide) hrest

lemma headed_sides : Headed ("--- ".toList ++ Section.tabbed (part.oldSide quotePath)) ∧
    Headed ("+++ ".toList ++ Section.tabbed (part.newSide quotePath)) :=
  ⟨headed_literal (by decide) (clean_side (clean_oldSide part)),
    headed_literal (by decide) (clean_side (clean_newSide part))⟩

end Lines

section Hunks

lemma rangeText_spaceless (start : UInt32) (length : Option ℕ) :
    ∀ c ∈ rangeText start length, c ≠ ' ' ∧ c ≠ '\n' := by
  intro c hc
  have hdigit : ∀ n : ℕ, c ∈ n.repr.toList → c ≠ ' ' ∧ c ≠ '\n' := by
    intro n hn
    have hc := Text.isDigit_of_repr hn
    refine ⟨?_, ?_⟩ <;> rintro rfl <;> exact absurd hc (by decide)
  obtain hstart | hlength := List.mem_append.mp hc
  · exact hdigit _ hstart
  · cases length with
    | none => exact absurd hlength (by simp)
    | some length =>
      obtain rfl | hlength := List.mem_cons.mp hlength
      · simp
      · exact hdigit _ hlength

lemma hunkStart_rangeText (sign : Char) (start : UInt32) (length : Option ℕ) :
    hunkStart (some (sign :: rangeText start length)) sign = some start.toNat := by
  have hcomma : ∀ c ∈ start.toNat.repr.toList, c ∉ [','] := by
    intro c hc hmem
    have hdigit := Text.isDigit_of_repr hc
    rw [List.mem_singleton.mp hmem] at hdigit
    exact absurd hdigit (by decide)
  have hfirst : (Text.splitOn [','] (rangeText start length)).head? = some start.toNat.repr.toList := by
    cases length with
    | none =>
      change (Text.splitOn [','] (start.toNat.repr.toList ++ [])).head? = _
      rw [List.append_nil, Text.splitOn_whole hcomma, List.head?_cons]
    | some length =>
      change (Text.splitOn [','] (start.toNat.repr.toList ++ ',' :: length.repr.toList)).head? = _
      rw [Text.splitOn_append List.mem_cons_self hcomma, List.head?_cons]
  have hparse : parseU32 start.toNat.repr.toList = some start.toNat := by
    rw [parseU32, Text.decimal_repr, Option.filter_some, if_pos (decide_eq_true start.toNat_lt)]
  have hsign : Text.stripPrefix [sign] (sign :: rangeText start length) = some (rangeText start length) :=
    if_pos List.mem_cons_self
  simp only [hunkStart, Option.bind_eq_bind, Option.bind_some, hsign, hfirst, hparse]

lemma signed_spaceless (sign : Char) (hsign : sign ≠ ' ') (start : UInt32) (length : Option ℕ) :
    ∀ c ∈ sign :: rangeText start length, c ∉ [' '] := by
  intro c hc hmem
  obtain rfl := List.mem_singleton.mp hmem
  obtain rfl | hc := List.mem_cons.mp hc
  · exact hsign rfl
  · exact (rangeText_spaceless start length _ hc).1 rfl

lemma hunkStarts_printed (hunk : PrintedHunk) (tail : Chars) :
    hunkStarts (hunkMark ++ ('-' :: rangeText hunk.old hunk.oldLength ++
      ' ' :: ('+' :: rangeText hunk.new hunk.newLength ++ ' ' :: tail))) =
      some (hunk.old.toNat, hunk.new.toNat) := by
  have hparts := Text.splitOn_append (List.mem_singleton_self ' ')
    (signed_spaceless '-' (by simp) hunk.old hunk.oldLength)
    ('+' :: rangeText hunk.new hunk.newLength ++ ' ' :: tail)
  rw [Text.splitOn_append List.mem_cons_self (signed_spaceless '+' (by simp) hunk.new hunk.newLength)] at hparts
  simp only [hunkStarts, strip_append, Option.bind_eq_bind, Option.bind_some, hparts, List.getElem?_cons_zero,
    List.getElem?_cons_succ, hunkStart_rangeText]
  rfl

def Open.named (file : Open) (path : Chars) (oldPath : Option Chars) (status : Status) : Open :=
  { file with path, oldPath, status }

def Open.entered (file : Open) (raw : Chars) : Open :=
  { file with hunk := hunkStarts raw, lines := (file.lines.push .hunk none none raw).2 }

lemma line_hunk {raw : Chars} (h : isHunk raw = true) (file : Open) : file.line repair raw = file.entered raw := by
  have hmark : hunkMark.isPrefixOf raw = true := h
  rw [Open.line, if_pos hmark]
  rfl

lemma line_content (repair : List UInt8 → Chars) (path : Chars) (oldPath : Option Chars) (status : Status)
    {raw : Chars} (h : isHunk raw = false) {file : Open} (hsome : file.hunk.isSome) :
    (file.named path oldPath status).line repair raw = (file.line repair raw).named path oldPath status ∧
      (file.line repair raw).binary = file.binary ∧ (file.line repair raw).hunk.isSome := by
  have hmark : ¬ hunkMark.isPrefixOf raw = true := Bool.eq_false_iff.mp h
  obtain ⟨⟨old, new⟩, hhunk⟩ := Option.isSome_iff_exists.mp hsome
  have hnamed : (file.named path oldPath status).hunk = some (old, new) := hhunk
  unfold Open.line
  rw [if_neg hmark, if_neg hmark, hnamed, hhunk]
  cases hcontent : content old new raw with
  | none =>
    simp only [hcontent]
    exact ⟨trivial, trivial, hsome⟩
  | some found =>
    obtain ⟨kind, oldNumber, newNumber, text⟩ := found
    simp only [hcontent]
    refine ⟨rfl, trivial, ?_⟩
    split <;> rfl

lemma PrintedLine.cut_raw (line : PrintedLine) : ∃ rest, cutReturn line.raw = line.mark.char :: rest := by
  have hmark : line.mark.char ≠ '\r' := by cases line.mark <;> simp [Mark.char]
  exact cutReturn_append hmark [] line.text

lemma PrintedLine.not_hunk (line : PrintedLine) (rest : Chars) :
    isHunk (line.mark.char :: rest) = false ∧ isFile (line.mark.char :: rest) = false := by
  have hheading : ∀ mark : Mark, heading [mark.char] = true := by
    intro mark
    cases mark <;> decide
  have hmark := hheading line.mark
  rw [heading, Bool.and_eq_true, Bool.and_eq_true] at hmark
  exact ⟨isPrefix_differs hmark.2 rest, isPrefix_differs hmark.1.2 rest⟩

lemma PrintedHunk.cut_header (hunk : PrintedHunk) : ∃ tail, cutReturn hunk.header =
    hunkMark ++ ('-' :: rangeText hunk.old hunk.oldLength ++
      ' ' :: ('+' :: rangeText hunk.new hunk.newLength ++ ' ' :: tail)) := by
  obtain ⟨rest, hrest⟩ := cutReturn_append (c := '@') (by simp) (hunkMark ++ ('-' :: rangeText hunk.old hunk.oldLength ++
    ' ' :: ('+' :: rangeText hunk.new hunk.newLength ++ [' ', '@']))) hunk.tail
  refine ⟨'@' :: '@' :: rest, ?_⟩
  have hjoin : hunk.header = (hunkMark ++ ('-' :: rangeText hunk.old hunk.oldLength ++
      ' ' :: ('+' :: rangeText hunk.new hunk.newLength ++ [' ', '@']))) ++ '@' :: hunk.tail := by
    simp [PrintedHunk.header]
  rw [hjoin, hrest]
  simp

lemma readLines_content (repair : List UInt8 → Chars) (path : Chars) (oldPath : Option Chars) (status : Status)
    (lines : List PrintedLine) {file : Open} (hsome : file.hunk.isSome) :
    readLines repair (file.named path oldPath status) (lines.map fun line => cutReturn line.raw) =
        (readLines repair file (lines.map fun line => cutReturn line.raw)).named path oldPath status ∧
      (readLines repair file (lines.map fun line => cutReturn line.raw)).binary = file.binary := by
  induction lines generalizing file with
  | nil => exact ⟨rfl, rfl⟩
  | cons line lines ih =>
    obtain ⟨rest, hrest⟩ := line.cut_raw
    obtain ⟨hnamed, hbinary, hhunk⟩ := line_content repair path oldPath status (line.not_hunk rest).1 hsome
    have hlines := ih hhunk
    rw [List.map_cons, hrest]
    simp only [readLines, List.foldl_cons] at hlines ⊢
    rw [hnamed]
    exact ⟨hlines.1, hlines.2.trans hbinary⟩

lemma readLines_append (file : Open) (front back : List Chars) :
    readLines repair file (front ++ back) = readLines repair (readLines repair file front) back := List.foldl_append

lemma readLines_hunks (repair : List UInt8 → Chars) (path : Chars) (oldPath : Option Chars) (status : Status)
    (hunks : List PrintedHunk) (file : Open) :
    readLines repair (file.named path oldPath status) ((hunks.flatMap PrintedHunk.raws).map cutReturn) =
        (readLines repair file ((hunks.flatMap PrintedHunk.raws).map cutReturn)).named path oldPath status ∧
      (readLines repair file ((hunks.flatMap PrintedHunk.raws).map cutReturn)).binary = file.binary := by
  induction hunks generalizing file with
  | nil => exact ⟨rfl, rfl⟩
  | cons hunk hunks ih =>
    obtain ⟨tail, htail⟩ := hunk.cut_header
    have hhunk : isHunk (cutReturn hunk.header) = true := htail ▸ List.isPrefixOf_iff_prefix.mpr ⟨_, rfl⟩
    have hstarts : (hunkStarts (cutReturn hunk.header)).isSome := by
      rw [htail, hunkStarts_printed]
      rfl
    have hsplit : ((hunk :: hunks).flatMap PrintedHunk.raws).map cutReturn =
        [cutReturn hunk.header] ++ (hunk.lines.map fun line => cutReturn line.raw) ++
          (hunks.flatMap PrintedHunk.raws).map cutReturn := by
      simp [PrintedHunk.raws, Function.comp_def]
    have hfirst : ∀ file : Open,
        readLines repair file [cutReturn hunk.header] = file.entered (cutReturn hunk.header) := line_hunk hhunk
    have hnamed : (file.named path oldPath status).entered (cutReturn hunk.header) =
        (file.entered (cutReturn hunk.header)).named path oldPath status := rfl
    have hsome : (file.entered (cutReturn hunk.header)).hunk.isSome := hstarts
    have hcontent := readLines_content repair path oldPath status hunk.lines hsome
    rw [hsplit, readLines_append, readLines_append, readLines_append, readLines_append, hfirst, hfirst, hnamed,
      hcontent.1]
    have hrest := ih (readLines repair (file.entered (cutReturn hunk.header))
      (hunk.lines.map fun line => cutReturn line.raw))
    exact ⟨hrest.1, hrest.2.trans hcontent.2⟩

end Hunks

section Read

variable (part : Section)

lemma readLines_headed {raws : List Chars} (h : ∀ raw ∈ raws, Headed raw) {file : Open} (hnone : file.hunk = none) :
    readLines repair file (raws.map cutReturn) = raws.foldl (Open.header repair) file ∧
      (raws.foldl (Open.header repair) file).hunk = none := by
  induction raws generalizing file with
  | nil => exact ⟨rfl, hnone⟩
  | cons raw raws ih =>
    obtain ⟨hraw, hraws⟩ := List.forall_mem_cons.mp h
    have hline : file.line repair (cutReturn raw) = file.header repair raw := by
      rw [cutReturn_clean hraw.clean, line_headed hnone hraw.hunk]
    have hnext : (file.header repair raw).hunk = none := (header_lines file raw).2.trans hnone
    rw [List.map_cons, readLines, List.foldl_cons, List.foldl_cons, hline]
    exact ih hraws hnext

lemma foldl_extensions (lines : List Extension) (file : Open) :
    (lines.map Extension.raw).foldl (Open.header repair) file = file := by
  induction lines generalizing file with
  | nil => rfl
  | cons line lines ih => rw [List.map_cons, List.foldl_cons, header_extension, ih]

lemma foldl_change (name : Chars) :
    (part.changeLines quotePath).foldl (Open.header repair) { path := name } =
      { path := name, oldPath := part.oldPath, status := part.status } := by
  rw [Section.changeLines, Section.oldPath, Section.status]
  cases part.origin with
  | modified => rfl
  | added mode =>
    simp only [List.foldl_cons, List.foldl_nil]
    rw [header_added]
  | deleted mode =>
    simp only [List.foldl_cons, List.foldl_nil]
    rw [header_deleted]
  | renamed old =>
    simp only [List.foldl_cons, List.foldl_nil]
    rw [header_renamed, header_renamedTo, path_label old.nonempty]
  | copied old =>
    simp only [List.foldl_cons, List.foldl_nil]
    rw [header_copied, header_copiedTo]

lemma readLines_extended (name : Chars) :
    readLines repair { path := name } ((part.before.map Extension.raw ++ part.changeLines quotePath ++
        part.after.map Extension.raw).map cutReturn) =
      { path := name, oldPath := part.oldPath, status := part.status } := by
  have hheaded : ∀ raw ∈ part.before.map Extension.raw ++ part.changeLines quotePath ++ part.after.map Extension.raw,
      Headed raw := by
    intro raw hraw
    rw [List.mem_append, List.mem_append] at hraw
    obtain (hbefore | hchange) | hafter := hraw
    · obtain ⟨line, -, rfl⟩ := List.mem_map.mp hbefore
      exact line.headed
    · exact headed_change part hchange
    · obtain ⟨line, -, rfl⟩ := List.mem_map.mp hafter
      exact line.headed
  rw [(readLines_headed hheaded rfl).1, List.foldl_append, List.foldl_append, foldl_extensions, foldl_extensions,
    foldl_change]

end Read

end Sheprd.Review
