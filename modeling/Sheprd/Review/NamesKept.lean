import Sheprd.Review.NamesRead

namespace Sheprd.Review

open Lib

variable {repair : List UInt8 → Chars} {quotePath : Bool}

def Section.named (part : Section) : Bool :=
  match part.contents, part.origin with
  | .text _, .deleted _ => false
  | .text _, _ => true
  | _, _ => false

def Section.Readable (quotePath : Bool) (part : Section) : Prop :=
  if part.named then ¬ (mustQuote quotePath part.name.text = true ∧ ' ' ∈ part.name.text)
  else mustQuote quotePath part.name.text = true ∨ ¬ separator <:+: part.name.text

def Contents.body (repair : List UInt8 → Chars) : Contents → Body
  | .nothing => .loaded ({} : Lines).finish
  | .binary => .binary
  | .text hunks =>
      .loaded (readLines repair { path := [] } ((hunks.flatMap PrintedHunk.raws).map cutReturn)).lines.finish

section Parts

variable (part : Section)

lemma body_parts (file : Open) : readLines repair file ((part.body quotePath).map cutReturn) =
    readLines repair (readLines repair file ((part.before.map Extension.raw ++ part.changeLines quotePath ++
      part.after.map Extension.raw).map cutReturn)) ((part.contentLines quotePath).map cutReturn) := by
  rw [Section.body, List.map_append, readLines_append]

def Section.opened (name : Chars) : Open := { path := name, oldPath := part.oldPath, status := part.status }

lemma readLines_sides (hunks : List PrintedHunk) (name : Chars) :
    readLines repair (part.opened name) ((("--- ".toList ++ Section.tabbed (part.oldSide quotePath)) ::
        ("+++ ".toList ++ Section.tabbed (part.newSide quotePath)) :: hunks.flatMap PrintedHunk.raws).map cutReturn) =
      readLines repair (part.opened (if Section.tabbed (part.newSide quotePath) ≠ "/dev/null".toList then
        path repair (Section.tabbed (part.newSide quotePath)) ['b', '/'] else name))
        ((hunks.flatMap PrintedHunk.raws).map cutReturn) := by
  have hold : Headed ("--- ".toList ++ Section.tabbed (part.oldSide quotePath)) := (headed_sides part).1
  have hnew : Headed ("+++ ".toList ++ Section.tabbed (part.newSide quotePath)) := (headed_sides part).2
  have hfirst : (part.opened name).line repair ("--- ".toList ++ Section.tabbed (part.oldSide quotePath)) =
      part.opened name := (line_headed rfl hold.hunk).trans (header_before _ _)
  have hsecond : (part.opened name).line repair ("+++ ".toList ++ Section.tabbed (part.newSide quotePath)) =
      part.opened (if Section.tabbed (part.newSide quotePath) ≠ "/dev/null".toList then
        path repair (Section.tabbed (part.newSide quotePath)) ['b', '/'] else name) := by
    rw [line_headed rfl hnew.hunk, header_after]
    split <;> rfl
  rw [List.map_cons, List.map_cons, readLines, List.foldl_cons, List.foldl_cons, cutReturn_clean hold.clean,
    cutReturn_clean hnew.clean, hfirst, hsecond]
  rfl

lemma newSide_deleted {mode : ℕ} (h : part.origin = .deleted mode) :
    Section.tabbed (part.newSide quotePath) = "/dev/null".toList := by
  have hside : part.newSide quotePath = "/dev/null".toList := by rw [Section.newSide, h]
  rw [hside, Section.tabbed, if_neg (by simp)]

lemma newSide_present (h : ∀ mode, part.origin ≠ .deleted mode) :
    part.newSide quotePath = part.newLabel quotePath := by
  rw [Section.newSide]
  cases horigin : part.origin with
  | deleted mode => exact absurd horigin (h mode)
  | _ => rfl

def Section.nameRead (repair : List UInt8 → Chars) (quotePath : Bool) : Chars :=
  if part.named then path repair (Section.tabbed (part.newLabel quotePath)) ['b', '/']
  else headerName repair (part.head quotePath)

lemma readSection_eq : readSection repair (part.head quotePath, (part.body quotePath).map cutReturn) =
    { path := part.nameRead repair quotePath, oldPath := part.oldPath, status := part.status,
      body := part.contents.body repair } := by
  have hopened : readLines repair { path := headerName repair (part.head quotePath) }
      ((part.body quotePath).map cutReturn) =
      readLines repair (part.opened (headerName repair (part.head quotePath)))
        ((part.contentLines quotePath).map cutReturn) := by
    rw [body_parts, readLines_extended]
    rfl
  rw [readSection, hopened, Section.contentLines, Section.nameRead, Section.named]
  cases hcontents : part.contents with
  | nothing => rfl
  | binary =>
    have hbinary : (part.opened (headerName repair (part.head quotePath))).line repair ("Binary files ".toList ++
        part.oldSide quotePath ++ " and ".toList ++ part.newSide quotePath ++ " differ".toList) =
        { part.opened (headerName repair (part.head quotePath)) with binary := true } := by
      rw [line_headed rfl (headed_binary part).hunk, List.append_assoc, List.append_assoc, List.append_assoc,
        header_binary]
    simp only [List.map_cons, List.map_nil, readLines, List.foldl_cons, List.foldl_nil]
    rw [cutReturn_clean (headed_binary part).clean, hbinary]
    rfl
  | text hunks =>
    simp only
    rw [readLines_sides]
    have hread := readLines_hunks repair (if Section.tabbed (part.newSide quotePath) ≠ "/dev/null".toList
      then path repair (Section.tabbed (part.newSide quotePath)) ['b', '/'] else headerName repair (part.head quotePath))
      part.oldPath part.status hunks { path := [] }
    have hclose := congrArg Open.close hread.1
    refine hclose.trans ?_
    have hbody : ∀ (file : Open) (path : Chars), file.binary = false →
        (file.named path part.oldPath part.status).close =
          { path, oldPath := part.oldPath, status := part.status, body := .loaded file.lines.finish } := by
      intro file path hbinary
      simp [Open.close, Open.named, hbinary]
    rw [hbody _ _ hread.2]
    congr 1
    cases horigin : part.origin with
    | deleted mode =>
      rw [newSide_deleted part horigin, if_neg (by simp)]
      rfl
    | _ =>
      rw [newSide_present part (by simp [horigin])]
      exact if_pos (label_exists part.name.text).2

lemma nameRead_iff : part.nameRead repair quotePath = part.name.text ↔ part.Readable quotePath := by
  rw [Section.nameRead, Section.Readable]
  split
  · exact path_tabbed
  · exact headerName_label _ part.name.nonempty

end Parts

section Text

variable {parts : List Section}

lemma sections_skip {front : List Chars} (h : ∀ raw ∈ front, isFile raw = false) (rest : List Chars) :
    sections (front ++ rest) = sections rest := by
  induction front with
  | nil => rfl
  | cons raw front ih =>
    obtain ⟨hraw, hfront⟩ := List.forall_mem_cons.mp h
    have hstrip : strip fileMark raw = none := if_neg (Bool.eq_false_iff.mp hraw)
    rw [List.cons_append, sections, hstrip, ih hfront]

lemma takeWhile_body {front : List Chars} (h : ∀ raw ∈ front, isFile raw = false) (rest : List Chars) :
    (front ++ rest).takeWhile (fun raw => !isFile raw) = front ++ rest.takeWhile fun raw => !isFile raw := by
  refine List.takeWhile_append_of_pos ?_
  intro raw hraw
  rw [h raw hraw]
  rfl

lemma readLines_blank (file : Open) (raws : List Chars) :
    readLines repair file (raws ++ [[]]) = readLines repair file raws := by
  rw [readLines_append]
  have hblank : ∀ file : Open, file.line repair [] = file := by
    intro file
    have hmark : ¬ hunkMark.isPrefixOf [] = true := by simp [hunkMark]
    unfold Open.line
    rw [if_neg hmark]
    cases file.hunk with
    | none => simp [Open.header, strip]
    | some numbers => rfl
  exact hblank _

lemma whole_line (line : PrintedLine) : '\n' ∉ line.raw := by
  have hmark : line.mark.char ≠ '\n' := by cases line.mark <;> simp [Mark.char]
  rw [PrintedLine.raw, List.mem_cons, not_or]
  exact ⟨hmark.symm, line.whole⟩

lemma whole_header (hunk : PrintedHunk) : '\n' ∉ hunk.header := by
  have hold : '\n' ∉ rangeText hunk.old hunk.oldLength := fun h => (rangeText_spaceless _ _ _ h).2 rfl
  have hnew : '\n' ∉ rangeText hunk.new hunk.newLength := fun h => (rangeText_spaceless _ _ _ h).2 rfl
  simp [PrintedHunk.header, hunkMark, hold, hnew, hunk.whole]

lemma body_whole (part : Section) : ∀ raw ∈ part.body quotePath, '\n' ∉ raw ∧ isFile (cutReturn raw) = false := by
  have hheaded : ∀ raw, Headed raw → '\n' ∉ raw ∧ isFile (cutReturn raw) = false := by
    intro raw h
    refine ⟨fun hmem => (h.clean _ hmem).1 rfl, ?_⟩
    rw [cutReturn_clean h.clean]
    exact h.file
  have hhunk : ∀ hunk : PrintedHunk, ∀ raw ∈ hunk.raws, '\n' ∉ raw ∧ isFile (cutReturn raw) = false := by
    intro hunk raw hraw
    obtain rfl | hraw := List.mem_cons.mp hraw
    · obtain ⟨tail, htail⟩ := hunk.cut_header
      refine ⟨whole_header hunk, ?_⟩
      rw [htail]
      exact isPrefix_differs (by decide) _
    · obtain ⟨line, -, rfl⟩ := List.mem_map.mp hraw
      obtain ⟨rest, hrest⟩ := line.cut_raw
      refine ⟨whole_line line, ?_⟩
      rw [hrest]
      exact (line.not_hunk rest).2
  intro raw hraw
  rw [Section.body, List.mem_append, List.mem_append, List.mem_append] at hraw
  obtain ((hbefore | hchange) | hafter) | hcontents := hraw
  · obtain ⟨line, -, rfl⟩ := List.mem_map.mp hbefore
    exact hheaded _ line.headed
  · exact hheaded _ (headed_change part hchange)
  · obtain ⟨line, -, rfl⟩ := List.mem_map.mp hafter
    exact hheaded _ line.headed
  · rw [Section.contentLines] at hcontents
    split at hcontents
    · exact absurd hcontents (by simp)
    · obtain rfl := List.mem_singleton.mp hcontents
      exact hheaded _ (headed_binary part)
    · obtain rfl | hcontents := List.mem_cons.mp hcontents
      · exact hheaded _ (headed_sides part).1
      · obtain rfl | hcontents := List.mem_cons.mp hcontents
        · exact hheaded _ (headed_sides part).2
        · obtain ⟨hunk, -, hraw⟩ := List.mem_flatMap.mp hcontents
          exact hhunk hunk raw hraw

lemma rawLines_render (parts : List Section) :
    rawLines (render quotePath parts) = (parts.flatMap (Section.raws quotePath)).map cutReturn ++ [[]] := by
  have hwhole : ∀ raw ∈ parts.flatMap (Section.raws quotePath), '\n' ∉ raw := by
    intro raw hraw
    obtain ⟨part, -, hraw⟩ := List.mem_flatMap.mp hraw
    obtain rfl | hraw := List.mem_cons.mp hraw
    · exact fun hmem => (clean_head part _ hmem).1 rfl
    · exact (body_whole part raw hraw).1
  rw [rawLines, render, Text.splitOn_ended hwhole, List.map_append]
  rfl

lemma sections_render (parts : List Section) :
    (sections ((parts.flatMap (Section.raws quotePath)).map cutReturn ++ [[]])).map (readSection repair) =
        parts.map (fun part => readSection repair (part.head quotePath, (part.body quotePath).map cutReturn)) ∧
      (((parts.flatMap (Section.raws quotePath)).map cutReturn ++ [[]]).takeWhile (fun raw => !isFile raw) = [] ∨
        ((parts.flatMap (Section.raws quotePath)).map cutReturn ++ [[]]).takeWhile (fun raw => !isFile raw) = [[]]) := by
  induction parts with
  | nil => exact ⟨rfl, Or.inr rfl⟩
  | cons part parts ih =>
    have hbody : ∀ raw ∈ (part.body quotePath).map cutReturn, isFile raw = false := by
      intro raw hraw
      obtain ⟨whole, hwhole, rfl⟩ := List.mem_map.mp hraw
      exact (body_whole part whole hwhole).2
    have hlines : ((part :: parts).flatMap (Section.raws quotePath)).map cutReturn ++ [[]] =
        (fileMark ++ part.head quotePath) :: ((part.body quotePath).map cutReturn ++
          ((parts.flatMap (Section.raws quotePath)).map cutReturn ++ [[]])) := by
      rw [List.flatMap_cons, List.map_append, Section.raws, List.map_cons, cutReturn_clean (clean_head part),
        List.append_assoc, List.cons_append]
    rw [hlines]
    refine ⟨?_, Or.inl (List.takeWhile_cons_of_neg (by simp [isFile_append]))⟩
    rw [sections, strip_append]
    simp only
    rw [sections_skip hbody, takeWhile_body hbody, List.map_cons, List.map_cons, ih.1]
    congr 1
    obtain hnone | hblank := ih.2
    · rw [hnone, List.append_nil]
    · rw [hblank, readSection, readLines_blank, readSection]

end Text

def Parsed.facts (parsed : Parsed) : Chars × Option Chars × Status := (parsed.path, parsed.oldPath, parsed.status)

def Section.facts (part : Section) : Chars × Option Chars × Status := (part.name.text, part.oldPath, part.status)

theorem names_recovered (repair : List UInt8 → Chars) (quotePath : Bool) (parts : List Section) :
    (parse repair (render quotePath parts)).map (fun parsed => (parsed.oldPath, parsed.status, parsed.body)) =
        parts.map (fun part => (part.oldPath, part.status, part.contents.body repair)) ∧
      ((parse repair (render quotePath parts)).map Parsed.facts = parts.map Section.facts ↔
        ∀ part ∈ parts, part.Readable quotePath) := by
  have hparse : parse repair (render quotePath parts) = parts.map fun part =>
      { path := part.nameRead repair quotePath, oldPath := part.oldPath, status := part.status,
        body := part.contents.body repair } := by
    rw [parse_eq, rawLines_render, (sections_render parts).1]
    exact List.map_congr_left fun part _ => readSection_eq part
  rw [hparse, List.map_map, List.map_map]
  refine ⟨rfl, List.map_inj_left.trans ?_⟩
  have hname : ∀ part : Section, part.nameRead repair quotePath = part.name.text ↔ part.Readable quotePath :=
    nameRead_iff
  refine forall₂_congr fun part _ => Iff.trans ?_ (hname part)
  exact ⟨fun h => congrArg Prod.fst h, fun h => congrArg (·, part.oldPath, part.status) h⟩

def spaced : GitName := ⟨"z b/w".toList, by simp, by simp⟩

def quoted : GitName := ⟨"x \"y".toList, by simp, by simp⟩

def modeAndLine : List Section := [
  { name := spaced, origin := .modified, contents := .nothing, after := [],
    before := [⟨.oldMode, "100644".toList, by simp⟩, ⟨.newMode, "100755".toList, by simp⟩] },
  { name := quoted, origin := .modified, before := [], after := [⟨.index, "ce01362..94954ab 100644".toList, by simp⟩],
    contents := .text [⟨1, none, 1, some 2, [], by simp, [⟨.context, "hello".toList, by simp⟩,
      ⟨.added, "world".toList, by simp⟩]⟩] }]

theorem names_misread : (parse (fun _ => []) (render false modeAndLine)).map Parsed.facts =
      [("w".toList, none, .modified), ("\"b/x \\\"y\"".toList, none, .modified)] ∧
    modeAndLine.map Section.facts = [("z b/w".toList, none, .modified), ("x \"y".toList, none, .modified)] := by
  decide +kernel

end Sheprd.Review
