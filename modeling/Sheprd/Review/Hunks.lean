import Sheprd.Review.Diff

namespace Sheprd.Review

variable {repair : List UInt8 → Chars}

def isFile (raw : Chars) : Bool := fileMark.isPrefixOf raw

def sections : List Chars → List (Chars × List Chars)
  | [] => []
  | raw :: rest =>
      match strip fileMark raw with
      | some header => (header, rest.takeWhile fun raw => !isFile raw) :: sections rest
      | none => sections rest

def readLines (repair : List UInt8 → Chars) (file : Open) (raws : List Chars) : Open :=
  raws.foldl (Open.line repair) file

def readSection (repair : List UInt8 → Chars) (part : Chars × List Chars) : Parsed :=
  (readLines repair { path := headerName repair part.1 } part.2).close

lemma strip_eq_none {front text : Chars} (h : strip front text = none) : front.isPrefixOf text = false := by
  rw [strip] at h
  split at h
  · exact absurd h (by simp)
  · rename_i hfront
    exact Bool.eq_false_iff.mpr hfront

lemma strip_eq_some {front text rest : Chars} (h : strip front text = some rest) : text = front ++ rest := by
  rw [strip] at h
  split at h
  · rename_i hfront
    obtain ⟨back, rfl⟩ := List.isPrefixOf_iff_prefix.mp hfront
    rw [← Option.some.inj h, List.drop_left]
  · exact absurd h (by simp)

lemma strip_append (front rest : Chars) : strip front (front ++ rest) = some rest := by
  have hfront : front.isPrefixOf (front ++ rest) = true := List.isPrefixOf_iff_prefix.mpr ⟨rest, rfl⟩
  rw [strip, if_pos hfront, List.drop_left]

lemma isFile_append (rest : Chars) : isFile (fileMark ++ rest) = true :=
  List.isPrefixOf_iff_prefix.mpr ⟨rest, rfl⟩

def finished (state : List Parsed × Option Open) : List Parsed := state.1 ++ (state.2.map Open.close).toList

lemma foldl_parseLine (raws : List Chars) (files : List Parsed) :
    (∀ file, finished (raws.foldl (parseLine repair) (files, some file)) =
      files ++ (readLines repair file (raws.takeWhile fun raw => !isFile raw)).close ::
        (sections raws).map (readSection repair)) ∧
    finished (raws.foldl (parseLine repair) (files, none)) = files ++ (sections raws).map (readSection repair) := by
  induction raws generalizing files with
  | nil => exact ⟨fun file => rfl, rfl⟩
  | cons raw raws ih =>
    cases hraw : strip fileMark raw with
    | some header =>
      have hfile : isFile raw = true := strip_eq_some hraw ▸ isFile_append header
      have hsections : sections (raw :: raws) =
          (header, raws.takeWhile fun raw => !isFile raw) :: sections raws := by rw [sections, hraw]
      refine ⟨fun file => ?_, ?_⟩
      · rw [List.foldl_cons, parseLine, hraw, hsections, List.takeWhile_cons_of_neg (by simp [hfile])]
        refine ((ih _).1 _).trans ?_
        simp [readSection, readLines]
      · rw [List.foldl_cons, parseLine, hraw, hsections]
        refine ((ih _).1 _).trans ?_
        simp [readSection]
    | none =>
      have hfile : isFile raw = false := strip_eq_none hraw
      have hsections : sections (raw :: raws) = sections raws := by rw [sections, hraw]
      refine ⟨fun file => ?_, ?_⟩
      · rw [List.foldl_cons, parseLine, hraw, hsections, List.takeWhile_cons_of_pos (by simp [hfile])]
        exact (ih files).1 _
      · rw [List.foldl_cons, parseLine, hraw, hsections]
        exact (ih files).2

lemma parse_eq (repair : List UInt8 → Chars) (text : Chars) :
    parse repair text = (sections (rawLines text)).map (readSection repair) :=
  ((foldl_parseLine (rawLines text) []).2).trans (List.nil_append _)

structure Hunk where
  header : Chars
  body : List Chars

def isHunk (raw : Chars) : Bool := hunkMark.isPrefixOf raw

def hunks : List Chars → List Hunk
  | [] => []
  | raw :: rest =>
      if isHunk raw then { header := raw, body := rest.takeWhile fun raw => !isHunk raw } :: hunks rest
      else hunks rest

def onOld : Chars → Bool
  | ' ' :: _ => true
  | '-' :: _ => true
  | _ => false

def onNew : Chars → Bool
  | ' ' :: _ => true
  | '+' :: _ => true
  | _ => false

def shownLine (kind : Kind) (old new : Option ℕ) (text : Chars) : Line := ⟨kind, old, new, pushClean text⟩

def numberAt (start : ℕ) (side : Chars → Bool) (seen : List Chars) : ℕ := saturatingAdd start (seen.countP side)

def numbered (old new : ℕ) (seen : List Chars) : List Chars → List Line
  | [] => []
  | raw :: rest =>
      ((content (numberAt old onOld seen) (numberAt new onNew seen) raw).map
        fun (kind, oldNumber, newNumber, text) => shownLine kind oldNumber newNumber text).toList ++
        numbered old new (seen ++ [raw]) rest

def Hunk.lines (hunk : Hunk) : List Line :=
  shownLine .hunk none none hunk.header ::
    match hunkStarts hunk.header with
    | some (old, new) => numbered old new [] hunk.body
    | none => []

def written : Option (ℕ × ℕ) → List Chars → List Line
  | _, [] => []
  | numbers, raw :: rest =>
      if isHunk raw then shownLine .hunk none none raw :: written (hunkStarts raw) rest
      else
        match numbers with
        | none => written none rest
        | some (old, new) =>
            match content old new raw with
            | none => written (some (old, new)) rest
            | some (kind, oldNumber, newNumber, text) =>
                shownLine kind oldNumber newNumber text :: written (some (advanced old new oldNumber newNumber)) rest

lemma written_cons (numbers : Option (ℕ × ℕ)) (raw : Chars) (rest : List Chars) :
    written numbers (raw :: rest) =
      if isHunk raw then shownLine .hunk none none raw :: written (hunkStarts raw) rest
      else
        match numbers with
        | none => written none rest
        | some (old, new) =>
            match content old new raw with
            | none => written (some (old, new)) rest
            | some (kind, oldNumber, newNumber, text) =>
                shownLine kind oldNumber newNumber text ::
                  written (some (advanced old new oldNumber newNumber)) rest := by
  cases numbers <;> rfl

def Full (lines : Lines) : Prop := maxFileLines ≤ lines.lines.length ∨ u32Max / 2 ≤ lines.size

section Push

variable {lines : Lines} {kind : Kind} {old new : Option ℕ} {text : Chars}

lemma push_full (h : Full lines) : lines.push kind old new text = (false, { lines with truncated := true }) :=
  dif_pos h

lemma push_room (h : ¬ Full lines) : (lines.push kind old new text).1 = true ∧
    (lines.push kind old new text).2.lines = lines.lines ++ [shownLine kind old new text] := by
  have hpush : ¬ (maxFileLines ≤ lines.lines.length ∨ u32Max / 2 ≤ lines.size) := h
  rw [Lines.push, dif_neg hpush]
  exact ⟨rfl, rfl⟩

end Push

lemma header_lines (file : Open) (raw : Chars) :
    (file.header repair raw).lines = file.lines ∧ (file.header repair raw).hunk = file.hunk := by
  unfold Open.header
  split
  · split <;> exact ⟨rfl, rfl⟩
  · split
    · exact ⟨rfl, rfl⟩
    · split
      · exact ⟨rfl, rfl⟩
      · split
        · exact ⟨rfl, rfl⟩
        · split <;> exact ⟨rfl, rfl⟩

lemma readLines_full (raws : List Chars) {file : Open} (h : Full file.lines) :
    (readLines repair file raws).lines.lines = file.lines.lines := by
  induction raws generalizing file with
  | nil => rfl
  | cons raw raws ih =>
    have hline : (file.line repair raw).lines.lines = file.lines.lines ∧ Full (file.line repair raw).lines := by
      unfold Open.line
      split
      · rw [push_full h]
        exact ⟨rfl, h⟩
      · split
        · rw [(header_lines file raw).1]
          exact ⟨rfl, h⟩
        · split
          · exact ⟨rfl, h⟩
          · rw [push_full h]
            exact ⟨rfl, h⟩
    exact (ih hline.2).trans hline.1

lemma readLines_written (raws : List Chars) (file : Open) :
    (readLines repair file raws).lines.lines <+: file.lines.lines ++ written file.hunk raws := by
  induction raws generalizing file with
  | nil => exact List.prefix_append _ _
  | cons raw raws ih =>
    by_cases hfull : Full file.lines
    · rw [readLines_full _ hfull]
      exact List.prefix_append _ _
    · have hrest := ih (file.line repair raw)
      change (readLines repair (file.line repair raw) raws).lines.lines <+: _
      rw [written_cons]
      by_cases hhunk : hunkMark.isPrefixOf raw = true
      · have hline : file.line repair raw =
            { file with hunk := hunkStarts raw, lines := (file.lines.push .hunk none none raw).2 } := by
          rw [Open.line, if_pos hhunk]
        rw [if_pos (show isHunk raw = true from hhunk)]
        rw [hline] at hrest ⊢
        rw [(push_room hfull).2, List.append_assoc, List.singleton_append] at hrest
        exact hrest
      · rw [if_neg (show ¬ isHunk raw = true from hhunk)]
        cases hnumbers : file.hunk with
        | none =>
          have hline : file.line repair raw = file.header repair raw := by
            unfold Open.line
            rw [if_neg hhunk, hnumbers]
          rw [hline] at hrest ⊢
          rwa [(header_lines file raw).1, (header_lines file raw).2, hnumbers] at hrest
        | some numbers =>
          obtain ⟨old, new⟩ := numbers
          cases hcontent : content old new raw with
          | none =>
            have hline : file.line repair raw = file := by
              unfold Open.line
              rw [if_neg hhunk, hnumbers]
              simp only [hcontent]
            rw [hline] at hrest ⊢
            rw [hnumbers] at hrest
            simpa only [hcontent] using hrest
          | some shown =>
            obtain ⟨kind, oldNumber, newNumber, text⟩ := shown
            have hline : file.line repair raw = { file with
                lines := (file.lines.push kind oldNumber newNumber text).2
                hunk := some (advanced old new oldNumber newNumber) } := by
              unfold Open.line
              rw [if_neg hhunk, hnumbers]
              simp only [hcontent, (push_room hfull).1, if_true]
            rw [hline] at hrest ⊢
            rw [(push_room hfull).2, List.append_assoc, List.singleton_append] at hrest
            simpa only [hcontent] using hrest

lemma saturatingAdd_succ (start n : ℕ) : saturatingAdd (saturatingAdd start n) 1 = saturatingAdd start (n + 1) := by
  simp only [saturatingAdd]
  omega

lemma advanced_numberAt {old new : ℕ} {seen : List Chars} {raw text : Chars} {kind : Kind}
    {oldNumber newNumber : Option ℕ}
    (h : content (numberAt old onOld seen) (numberAt new onNew seen) raw = some (kind, oldNumber, newNumber, text)) :
    advanced (numberAt old onOld seen) (numberAt new onNew seen) oldNumber newNumber =
      (numberAt old onOld (seen ++ [raw]), numberAt new onNew (seen ++ [raw])) := by
  unfold content at h
  split at h
  · cases h
    simp [advanced, numberAt, saturatingAdd_succ, onOld, onNew]
  · cases h
    simp [advanced, numberAt, saturatingAdd_succ, onOld, onNew]
  · cases h
    simp [advanced, numberAt, saturatingAdd_succ, onOld, onNew]
  · cases h
    simp [advanced, numberAt, onOld, onNew]
  · cases h

lemma numberAt_skipped {old new start : ℕ} {seen : List Chars} {raw : Chars} (h : content old new raw = none) :
    numberAt start onOld (seen ++ [raw]) = numberAt start onOld seen ∧
      numberAt start onNew (seen ++ [raw]) = numberAt start onNew seen := by
  have hsides : onOld raw = false ∧ onNew raw = false := by
    unfold content at h
    split at h
    iterate 4 cases h
    rename_i hspace hplus hminus hslash
    cases raw with
    | nil => exact ⟨rfl, rfl⟩
    | cons c text =>
      have hc : c ≠ ' ' ∧ c ≠ '+' ∧ c ≠ '-' := by
        refine ⟨?_, ?_, ?_⟩
        · rintro rfl
          exact hspace _ rfl
        · rintro rfl
          exact hplus _ rfl
        · rintro rfl
          exact hminus _ rfl
      constructor
      · unfold onOld
        split
        · rename_i heq
          exact absurd (List.cons.inj heq).1 hc.1
        · rename_i heq
          exact absurd (List.cons.inj heq).1 hc.2.2
        · rfl
      · unfold onNew
        split
        · rename_i heq
          exact absurd (List.cons.inj heq).1 hc.1
        · rename_i heq
          exact absurd (List.cons.inj heq).1 hc.2.1
        · rfl
  simp [numberAt, hsides.1, hsides.2]

lemma parseU32_le {text : Chars} {n : ℕ} (h : parseU32 text = some n) : n ≤ u32Max := by
  rw [parseU32, Option.filter_eq_some_iff, decide_eq_true_eq] at h
  exact Nat.le_sub_one_of_lt h.2

lemma hunkStart_le {part : Option Chars} {sign : Char} {n : ℕ} (h : hunkStart part sign = some n) : n ≤ u32Max := by
  obtain ⟨text, -, h⟩ := Option.bind_eq_some_iff.mp h
  obtain ⟨digits, -, h⟩ := Option.bind_eq_some_iff.mp h
  obtain ⟨first, -, h⟩ := Option.bind_eq_some_iff.mp h
  exact parseU32_le h

lemma hunkStarts_le {header : Chars} {old new : ℕ} (h : hunkStarts header = some (old, new)) :
    old ≤ u32Max ∧ new ≤ u32Max := by
  obtain ⟨rest, -, h⟩ := Option.bind_eq_some_iff.mp h
  obtain ⟨old', hold, h⟩ := Option.bind_eq_some_iff.mp h
  obtain ⟨new', hnew, h⟩ := Option.bind_eq_some_iff.mp h
  obtain ⟨rfl, rfl⟩ := Prod.mk.inj (Option.some.inj h)
  exact ⟨hunkStart_le hold, hunkStart_le hnew⟩

lemma written_hunks (raws : List Chars) :
    (∀ old new seen, written (some (numberAt old onOld seen, numberAt new onNew seen)) raws =
      numbered old new seen (raws.takeWhile fun raw => !isHunk raw) ++ (hunks raws).flatMap Hunk.lines) ∧
    written none raws = (hunks raws).flatMap Hunk.lines := by
  induction raws with
  | nil => exact ⟨fun _ _ _ => rfl, rfl⟩
  | cons raw raws ih =>
    by_cases hhunk : isHunk raw = true
    · have hlines : shownLine .hunk none none raw :: written (hunkStarts raw) raws =
          (hunks (raw :: raws)).flatMap Hunk.lines := by
        rw [hunks, if_pos hhunk, List.flatMap_cons, Hunk.lines]
        dsimp only
        rw [List.cons_append]
        congr 1
        cases hstarts : hunkStarts raw with
        | none => exact ih.2
        | some numbers =>
          obtain ⟨old, new⟩ := numbers
          obtain ⟨hold, hnew⟩ := hunkStarts_le hstarts
          have hzero : numberAt old onOld [] = old ∧ numberAt new onNew [] = new := by
            simp [numberAt, saturatingAdd, hold, hnew]
          have hrest := ih.1 old new []
          rw [hzero.1, hzero.2] at hrest
          exact hrest
      refine ⟨fun old new seen => ?_, ?_⟩
      · rw [written_cons, if_pos hhunk, List.takeWhile_cons_of_neg (by simp [hhunk]), numbered, List.nil_append, hlines]
      · rw [written_cons, if_pos hhunk, hlines]
    · have hskip : hunks (raw :: raws) = hunks raws := by rw [hunks, if_neg hhunk]
      refine ⟨fun old new seen => ?_, ?_⟩
      · rw [written_cons, if_neg hhunk, List.takeWhile_cons_of_pos (by simp [hhunk]), hskip, numbered]
        dsimp only
        cases hcontent : content (numberAt old onOld seen) (numberAt new onNew seen) raw with
        | none =>
          have hrest := ih.1 old new (seen ++ [raw])
          rw [(numberAt_skipped hcontent).1, (numberAt_skipped hcontent).2] at hrest
          exact hrest
        | some shown =>
          obtain ⟨kind, oldNumber, newNumber, text⟩ := shown
          have hrest := ih.1 old new (seen ++ [raw])
          rw [← advanced_numberAt hcontent] at hrest
          exact congrArg _ hrest
      · rw [written_cons, if_neg hhunk, hskip]
        exact ih.2

end Sheprd.Review
