import Sheprd.Review.ContextKept

namespace Sheprd.Review

open Lib

variable {repair : List UInt8 → Chars}

lemma readFrom_eq (start stop number : ℕ) (content : List Chars) :
    readFrom start stop number content = (content.take (stop - 1 - number)).drop (start - 1 - number) := by
  induction content generalizing number with
  | nil => simp [readFrom]
  | cons line rest ih =>
    rw [readFrom]
    split
    · rename_i hstop
      have htake : stop - 1 - number = stop - 1 - (number + 1) + 1 := by omega
      rw [htake, List.take_succ_cons, ih]
      split
      · rename_i hstart
        have hhere : start - 1 - number = 0 := by omega
        have hnext : start - 1 - (number + 1) = 0 := by omega
        rw [hhere, hnext, List.drop_zero, List.drop_zero, List.singleton_append]
      · rename_i hstart
        have hdrop : start - 1 - number = start - 1 - (number + 1) + 1 := by omega
        rw [hdrop, List.drop_succ_cons, List.nil_append]
    · rename_i hstop
      have htake : stop - 1 - number = 0 := by omega
      rw [htake, List.take_zero, List.drop_nil]

def shownAbove (lines : List Line) (index : ℕ) : ℕ := ((lines.take index).filterMap Line.new).max?.getD 0

section Gap

variable {lines : Lines} {index : ℕ} {gap : Gap} {line : Line} {old new : ℕ}

lemma gap_line (hline : lines.lines[index]? = some line) (hkind : line.kind = .hunk)
    (hstarts : hunkStarts line.text.toList = some (old, new)) : lines.gap index =
      if old = 0 ∨ new = 0 then none
      else if saturatingAdd (shownAbove lines.lines index) 1 < new then
        some { header := index, start := saturatingAdd (shownAbove lines.lines index) 1, stop := new, shift := old - new }
      else none := by
  simp only [Lines.gap, hline, Option.filter_some, hkind, decide_true, if_true, Option.bind_eq_bind, Option.bind_some,
    hstarts]
  rfl

lemma gap_eq_some (h : lines.gap index = some gap) : ∃ line old new, lines.lines[index]? = some line ∧
    line.kind = .hunk ∧ hunkStarts line.text.toList = some (old, new) ∧ old ≠ 0 ∧ new ≠ 0 ∧
      saturatingAdd (shownAbove lines.lines index) 1 < new ∧
      gap = { header := index, start := saturatingAdd (shownAbove lines.lines index) 1, stop := new, shift := old - new } := by
  obtain ⟨line, hline, hrest⟩ := Option.bind_eq_some_iff.mp (id h)
  obtain ⟨hfound, hkind⟩ := Option.filter_eq_some_iff.mp hline
  obtain ⟨⟨old, new⟩, hstarts, -⟩ := Option.bind_eq_some_iff.mp hrest
  rw [gap_line hfound (of_decide_eq_true hkind) hstarts] at h
  split at h
  · exact absurd h (by simp)
  · rename_i hzero
    obtain ⟨hold, hnew⟩ := not_or.mp hzero
    split at h
    · rename_i hstart
      exact ⟨line, old, new, hfound, of_decide_eq_true hkind, hstarts, hold, hnew, hstart, (Option.some.inj h).symm⟩
    · exact absurd h (by simp)

end Gap

structure Past (lines : List Line) (gap : Gap) : Prop where
  positive : 1 ≤ gap.next + gap.shift
  old : (cursor (0, 0) (lines.take gap.header)).1 ≤ gap.next + gap.shift
  new : (cursor (0, 0) (lines.take gap.header)).2 ≤ gap.next

section Sizes

variable {lines : Lines} {index : ℕ} {gap : Gap}

structure Sized (lines : Lines) (gap : Gap) (line : Line) (header : Header) : Prop where
  found : lines.lines[gap.header]? = some line
  kind : line.kind = .hunk
  named : line.text.toList = header.text
  stop : gap.stop = header.new.toNat
  shift : gap.shift = (header.old.toNat : ℤ) - header.new.toNat
  start : gap.start = saturatingAdd (shownAbove lines.lines gap.header) 1
  open' : gap.start < gap.stop
  split : lines.lines = lines.lines.take gap.header ++ line :: lines.lines.drop (gap.header + 1)
  above : Numbered 0 0 (lines.lines.take gap.header)
  below : Numbered header.old.toNat header.new.toNat (lines.lines.drop (gap.header + 1))

lemma sized_gap (hnumbered : Numbered 0 0 lines.lines) (h : lines.gap index = some gap) :
    index = gap.header ∧ ∃ line header, Sized lines gap line header := by
  obtain ⟨line, old, new, hline, hkind, hstarts, hold, hnew, hstart, rfl⟩ := gap_eq_some h
  refine ⟨rfl, line, ?_⟩
  obtain ⟨hlt, hget⟩ := List.getElem?_eq_some_iff.mp hline
  have hsplit : lines.lines = lines.lines.take index ++ line :: lines.lines.drop (index + 1) := by
    rw [← hget, ← List.drop_eq_getElem_cons hlt, List.take_append_drop]
  rw [hsplit] at hnumbered
  obtain ⟨habove, hbelow⟩ := hnumbered.split
  cases hbelow with
  | hunk header _ hnamed _ _ hafter =>
    rw [hnamed, header.starts, Option.some.injEq, Prod.mk.injEq] at hstarts
    obtain ⟨rfl, rfl⟩ := hstarts
    exact ⟨header, hline, hkind, hnamed, rfl, rfl, rfl, hstart, hsplit, habove, hafter⟩
  | line hkind' _ _ _ => exact absurd hkind hkind'

variable {line : Line} {header : Header} (h : Sized lines gap line header)

include h

lemma Sized.next_bounds : 1 ≤ gap.start ∧ gap.start ≤ gap.next ∧ gap.next < gap.stop ∧ gap.stop - gap.next ≤ expandLines := by
  have hstart : 1 ≤ gap.start := by
    rw [h.start, saturatingAdd]
    simp [u32Max]
  have hopen := h.open'
  rw [Gap.next]
  simp only [expandLines]
  omega

lemma Sized.old_next (hpast : Past lines.lines gap) :
    gap.old gap.next = header.old.toNat - (gap.stop - gap.next) ∧ gap.stop - gap.next < header.old.toNat := by
  have hbounds := h.next_bounds
  have hpositive := hpast.positive
  have hlt := header.old.toNat_lt
  rw [h.shift, ← h.stop] at hpositive
  have hrange : 0 ≤ (gap.next : ℤ) + gap.shift ∧ (gap.next : ℤ) + gap.shift ≤ u32Max := by
    rw [h.shift, ← h.stop]
    simp only [u32Max]
    omega
  refine ⟨?_, by omega⟩
  simp only [Gap.old]
  rw [if_pos hrange, h.shift, ← h.stop]
  omega

end Sizes

lemma contexts_numbered (added : List Chars) (first oldFirst index : ℕ) (hold : oldFirst + index + added.length ≤ u32Max)
    (hnew : first + index + added.length ≤ u32Max) :
    Numbered (oldFirst + index) (first + index) ((added.zipIdx index).map (contextLine first oldFirst)) ∧
      cursor (oldFirst + index, first + index) ((added.zipIdx index).map (contextLine first oldFirst)) =
        (oldFirst + index + added.length, first + index + added.length) := by
  induction added generalizing index with
  | nil => exact ⟨.nil, rfl⟩
  | cons text added ih =>
    rw [List.length_cons] at hold hnew
    have hkind : (contextLine first oldFirst (text, index)).kind ≠ .hunk := by simp [contextLine, shownLine]
    have holdHere : saturatingAdd oldFirst index = oldFirst + index := Nat.min_eq_left (by omega)
    have hnewHere : saturatingAdd first index = first + index := Nat.min_eq_left (by omega)
    obtain ⟨hrest, hcursor⟩ := ih (index + 1) (by omega) (by omega)
    rw [List.zipIdx_cons, List.map_cons, cursor_line hkind]
    refine ⟨.line hkind (Or.inr (congrArg some holdHere)) (Or.inr (congrArg some hnewHere)) hrest, ?_⟩
    refine hcursor.trans ?_
    rw [List.length_cons]
    exact Prod.ext (by simp only; omega) (by simp only; omega)

section Expanded

variable {lines : Lines} {index : ℕ} {gap : Gap} {line : Line} {header : Header} {added : List Chars}

lemma grown_line (h : Sized lines gap line header) (hcount : added.length = gap.stop - gap.next) :
    ∃ tail, (pushClean (shownHeader lines.lines gap.header added.length)).toList =
      { header.grown (gap.stop - gap.next) with tail }.text := by
  have hbounds := h.next_bounds
  have hmin : min added.length u32Max = gap.stop - gap.next := by
    rw [hcount]
    simp only [expandLines, u32Max] at hbounds ⊢
    omega
  rw [shownHeader, headerText, h.found, hmin, Option.map_some, Option.getD_some, h.named, header.grownHeader_text,
    Option.getD_some]
  exact (header.grown (gap.stop - gap.next)).clean

lemma grown_names (h : Sized lines gap line header) (hpast : Past lines.lines gap)
    (hcount : added.length = gap.stop - gap.next) :
    hunkStarts (pushClean (shownHeader lines.lines gap.header added.length)).toList = some (gap.old gap.next, gap.next) := by
  obtain ⟨hstart, hnext, hstop, -⟩ := h.next_bounds
  obtain ⟨tail, htail⟩ := grown_line h hcount
  have hgrown := header.grown_starts (gap.stop - gap.next)
  have hstopEq := h.stop
  have hnew : header.new.toNat - (gap.stop - gap.next) = gap.next := by omega
  rw [hnew, ← (h.old_next hpast).1] at hgrown
  rw [htail, Header.starts]
  exact congrArg some (Prod.ext hgrown.1 hgrown.2)

lemma target_numbered (h : Sized lines gap line header) (hpast : Past lines.lines gap)
    (hcount : added.length = gap.stop - gap.next) :
    Numbered 0 0 (target lines.lines gap.header gap.next (gap.old gap.next) added) := by
  obtain ⟨holdNext, hroom⟩ := h.old_next hpast
  obtain ⟨hstart, hnext, hstop, -⟩ := h.next_bounds
  obtain ⟨tail, htail⟩ := grown_line h hcount
  have hstarts := header.grown_starts (gap.stop - gap.next)
  have hnewNext : header.new.toNat - (gap.stop - gap.next) = gap.next := by
    have hsame := h.stop
    omega
  rw [hnewNext] at hstarts
  have holdLt := header.old.toNat_lt
  have hnewLt := header.new.toNat_lt
  have hstopEq := h.stop
  have hcontexts := contexts_numbered added gap.next (gap.old gap.next) 0
    (by rw [holdNext, hcount]; simp only [u32Max]; omega) (by rw [hcount]; simp only [u32Max]; omega)
  rw [Nat.add_zero, Nat.add_zero] at hcontexts
  obtain ⟨habove, hcursor⟩ := h.above.again
  refine habove.append ?_
  rw [hcursor]
  refine .hunk { header.grown (gap.stop - gap.next) with tail } rfl htail ⟨rfl, rfl⟩ ⟨?_, ?_⟩ ?_
  · have hold := hpast.old
    rw [h.shift, ← h.stop] at hold
    change _ ≤ (header.grown (gap.stop - gap.next)).old.toNat
    rw [hstarts.1]
    omega
  · change _ ≤ (header.grown (gap.stop - gap.next)).new.toNat
    rw [hstarts.2]
    exact hpast.new
  · change Numbered (header.grown (gap.stop - gap.next)).old.toNat (header.grown (gap.stop - gap.next)).new.toNat _
    rw [hstarts.1, hstarts.2, ← holdNext]
    refine hcontexts.1.append ?_
    rw [hcontexts.2, hcount]
    have hback : gap.old gap.next + (gap.stop - gap.next) = header.old.toNat ∧
        gap.next + (gap.stop - gap.next) = header.new.toNat := by omega
    rw [hback.1, hback.2]
    exact h.below.again.1

structure Expanded (before : Lines) (gap : Gap) (content added : List Chars) (after : Lines) : Prop where
  numbered : Numbered 0 0 after.lines
  header : ∀ line, after.lines[gap.header]? = some line →
    line.kind = .hunk ∧ hunkStarts line.text.toList = some (gap.old gap.next, gap.next)
  inserted : ∀ i < gap.stop - gap.next, ∀ line, after.lines[gap.header + 1 + i]? = some line →
    line.kind = .context ∧ line.new = some (gap.next + i) ∧
      ∃ text, content[gap.next + i - 1]? = some text ∧ line.text = pushClean text
  kept : Fits (target before.lines gap.header gap.next (gap.old gap.next) added) →
    after.lines = (before.lines.take gap.header).map again ++
      (after.lines.drop gap.header).take (gap.stop - gap.next + 1) ++ (before.lines.drop (gap.header + 1)).map again
  shrunk : gap.header < after.lines.length →
    after.gap gap.header = if gap.start < gap.next then some { gap with stop := gap.next } else none

lemma shownAbove_again (lines : List Line) (index : ℕ) :
    shownAbove ((lines.take index).map again) index = shownAbove lines index := by
  have hnews : ((lines.take index).map again).filterMap Line.new = (lines.take index).filterMap Line.new := by
    rw [List.filterMap_map]
    rfl
  rw [shownAbove, List.take_of_length_le (by simp), hnews, shownAbove]

lemma withContext_lines (lines : Lines) (index first oldFirst : ℕ) (added : List Chars) :
    (lines.withContext index first oldFirst added).lines <+: target lines.lines index first oldFirst added :=
  (withContext_written lines index first oldFirst added).prefix'

lemma Sized.length_above (h : Sized lines gap line header) : ((lines.lines.take gap.header).map again).length = gap.header := by
  have hlt := (List.getElem?_eq_some_iff.mp h.found).1
  rw [List.length_map, List.length_take, Nat.min_eq_left hlt.le]

lemma prefix_getElem? {front whole : List Line} (h : front <+: whole) {i : ℕ} {line : Line} (hline : front[i]? = some line) :
    whole[i]? = some line := by
  obtain ⟨back, rfl⟩ := h
  rw [List.getElem?_append_left (List.getElem?_eq_some_iff.mp hline).1]
  exact hline

lemma target_header (h : Sized lines gap line header) (oldFirst : ℕ) :
    (target lines.lines gap.header gap.next oldFirst added)[gap.header]? =
      some (shownLine .hunk none none (shownHeader lines.lines gap.header added.length)) := by
  rw [target, List.getElem?_append_right h.length_above.le, h.length_above, Nat.sub_self]
  rfl

lemma target_context (h : Sized lines gap line header) (oldFirst : ℕ) {i : ℕ} (hi : i < added.length) :
    (target lines.lines gap.header gap.next oldFirst added)[gap.header + 1 + i]? =
      (added.zipIdx.map (contextLine gap.next oldFirst))[i]? := by
  have hlt : i < (added.zipIdx.map (contextLine gap.next oldFirst)).length := by
    rw [List.length_map, List.length_zipIdx]
    exact hi
  have hoffset : gap.header + 1 + i - gap.header = i + 1 := by omega
  have habove := h.length_above
  rw [target, List.getElem?_append_right (by omega), habove, hoffset, List.getElem?_cons_succ, List.getElem?_append_left hlt]

lemma shownAbove_kept (h : Sized lines gap line header) {after : List Line} (oldFirst : ℕ)
    (hafter : after <+: target lines.lines gap.header gap.next oldFirst added) (hlt : gap.header < after.length) :
    shownAbove after gap.header = shownAbove lines.lines gap.header := by
  have habove := h.length_above
  have htake : after.take gap.header = (lines.lines.take gap.header).map again := by
    obtain ⟨back, hback⟩ := hafter
    have hsame := congrArg (List.take gap.header) hback
    rwa [List.take_append_of_le_length hlt.le, target, List.take_left' habove] at hsame
  have hagain := shownAbove_again lines.lines gap.header
  rw [shownAbove, htake]
  rwa [shownAbove, List.take_of_length_le habove.le] at hagain

lemma expanded {content : List Chars} (h : Sized lines gap line header) (hpast : Past lines.lines gap)
    (hadded : added = readFrom gap.next gap.stop 0 content) (hfull : gap.stop ≤ content.length + 1) :
    Expanded lines gap content added (lines.withContext gap.header gap.next (gap.old gap.next) added) := by
  obtain ⟨hstart, hnext, hstop, hmost⟩ := h.next_bounds
  obtain ⟨holdNext, hroom⟩ := h.old_next hpast
  have hread : added = (content.take (gap.stop - 1)).drop (gap.next - 1) := by rw [hadded, readFrom_eq]; simp
  have hcount : added.length = gap.stop - gap.next := by
    rw [hread, List.length_drop, List.length_take]
    omega
  have hlines := withContext_lines lines gap.header gap.next (gap.old gap.next) added
  have hheader : (target lines.lines gap.header gap.next (gap.old gap.next) added)[gap.header]? = _ := target_header h _
  have hstarts := grown_names h hpast hcount
  refine ⟨(target_numbered h hpast hcount).initial hlines, ?_, ?_, ?_, ?_⟩
  · intro found hfound
    obtain rfl := Option.some.inj (hheader.symm.trans (prefix_getElem? hlines hfound))
    exact ⟨rfl, hstarts⟩
  · intro i hi found hfound
    have htarget := prefix_getElem? hlines hfound
    rw [target_context h _ (hcount ▸ hi), List.getElem?_map, List.getElem?_zipIdx, Option.map_map,
      Option.map_eq_some_iff] at htarget
    obtain ⟨text, htext, rfl⟩ := htarget
    have hnewLt := header.new.toNat_lt
    have hstopEq := h.stop
    have hnumber : saturatingAdd gap.next (0 + i) = gap.next + i := by
      simp only [saturatingAdd, u32Max]
      omega
    refine ⟨rfl, congrArg some hnumber, text, ?_, rfl⟩
    rw [hread, List.getElem?_drop, List.getElem?_take] at htext
    split at htext
    · have hindex : gap.next + i - 1 = gap.next - 1 + i := by omega
      rw [hindex]
      exact htext
    · exact absurd htext (by simp)
  · intro hfits
    have hall : (lines.withContext gap.header gap.next (gap.old gap.next) added).lines = _ :=
      (withContext_written lines gap.header gap.next (gap.old gap.next) added).all hfits
    rw [hall, target]
    rw [List.drop_left' h.length_above, List.take_succ_cons, List.take_left' (by
      rw [List.length_map, List.length_zipIdx, hcount]), List.append_assoc, List.cons_append]
  · intro hlt
    obtain ⟨found, hfound⟩ : ∃ found, (lines.withContext gap.header gap.next (gap.old gap.next) added).lines[gap.header]? =
        some found := ⟨_, List.getElem?_eq_getElem hlt⟩
    obtain rfl := Option.some.inj (hheader.symm.trans (prefix_getElem? hlines hfound))
    have hzero : ¬ (gap.old gap.next = 0 ∨ gap.next = 0) := by omega
    rw [gap_line hfound rfl hstarts, if_neg hzero, shownAbove_kept h _ hlines hlt, ← h.start]
    have hshift : (gap.old gap.next : ℤ) - gap.next = gap.shift := by
      have hstopEq := h.stop
      rw [h.shift, holdNext]
      omega
    rw [hshift]

end Expanded

def StepSound (repair : List UInt8 → Chars) (lines : Lines) (step : Expansion) : Prop :=
  match lines.gap step.header, step.disk with
  | some gap, some bytes =>
      if gap.next ≤ (fileLines repair bytes).length then
        Expanded lines gap (fileLines repair bytes) (readFrom gap.next gap.stop 0 (fileLines repair bytes))
          (expand repair lines step)
      else expand repair lines step = lines
  | _, _ => expand repair lines step = lines

def Meets (repair : List UInt8 → Chars) (lines : Lines) (step : Expansion) : Prop :=
  ∀ gap ∈ lines.gap step.header, ∀ bytes ∈ step.disk, gap.next ≤ (fileLines repair bytes).length →
    gap.stop ≤ (fileLines repair bytes).length + 1 ∧ Past lines.lines gap

def RunSound (repair : List UInt8 → Chars) : Lines → List Expansion → Prop
  | lines, [] => Numbered 0 0 lines.lines
  | lines, step :: rest =>
      Numbered 0 0 lines.lines ∧
        (Meets repair lines step → StepSound repair lines step ∧ RunSound repair (expand repair lines step) rest)

def run (repair : List UInt8 → Chars) (lines : Lines) (steps : List Expansion) : Lines :=
  steps.foldl (expand repair) lines

def Completes (repair : List UInt8 → Chars) (index : ℕ) : Lines → List Expansion → Prop
  | _, [] => True
  | lines, step :: rest =>
      (step.header = index ∧ ∀ gap ∈ lines.gap index, Past lines.lines gap ∧
        ∃ bytes ∈ step.disk, gap.stop ≤ (fileLines repair bytes).length + 1) ∧
      Completes repair index (expand repair lines step) rest

def gapLength (lines : Lines) (index : ℕ) : ℕ := ((lines.gap index).map Gap.len).getD 0

section Run

variable {lines : Lines} {step : Expansion} {gap : Gap} {bytes : List UInt8} {index : ℕ}

lemma expand_gapless (h : lines.gap step.header = none) : expand repair lines step = lines := by
  rw [expand, h]

lemma expand_unread (h : step.disk = none) : expand repair lines step = lines := by
  rw [expand, h]
  cases lines.gap step.header <;> rfl

lemma expand_read (hgap : lines.gap step.header = some gap) (hdisk : step.disk = some bytes) :
    expand repair lines step =
      if readFrom gap.next gap.stop 0 (fileLines repair bytes) = [] then lines
      else lines.withContext step.header gap.next (gap.old gap.next)
        (readFrom gap.next gap.stop 0 (fileLines repair bytes)) := by
  have hread : readLinesOf repair step.disk gap.next gap.stop =
      some (readFrom gap.next gap.stop 0 (fileLines repair bytes)) := by rw [hdisk]; rfl
  rw [expand, hgap]
  simp only [hread]
  cases readFrom gap.next gap.stop 0 (fileLines repair bytes) with
  | nil => rfl
  | cons text texts => rfl

lemma readFrom_nonempty {content : List Chars} {start stop : ℕ} (hstart : 1 ≤ start) (hstop : start < stop) :
    readFrom start stop 0 content ≠ [] ↔ start ≤ content.length := by
  rw [readFrom_eq, ne_eq, ← List.length_eq_zero_iff, List.length_drop, List.length_take]
  omega

lemma step_sound (hnumbered : Numbered 0 0 lines.lines) (h : Meets repair lines step) : StepSound repair lines step := by
  cases hgap : lines.gap step.header with
  | none =>
    rw [StepSound, hgap]
    exact expand_gapless hgap
  | some gap =>
    cases hdisk : step.disk with
    | none =>
      rw [StepSound, hgap, hdisk]
      exact expand_unread hdisk
    | some bytes =>
      obtain ⟨hheader, line, header, hsized⟩ := sized_gap hnumbered hgap
      obtain ⟨hstart, hnext, hstop, -⟩ := hsized.next_bounds
      have hread : readFrom gap.next gap.stop 0 (fileLines repair bytes) ≠ [] ↔
          gap.next ≤ (fileLines repair bytes).length := readFrom_nonempty (hstart.trans hnext) hstop
      have hexpand : expand repair lines step = _ := expand_read hgap hdisk
      by_cases hlong : gap.next ≤ (fileLines repair bytes).length
      · obtain ⟨hfull, hpast⟩ := h gap hgap bytes hdisk hlong
        rw [if_neg (hread.mpr hlong), hheader] at hexpand
        rw [StepSound, hgap, hdisk, hexpand]
        simp only
        rw [if_pos hlong]
        exact expanded hsized hpast rfl hfull
      · rw [if_pos (not_not.mp (mt hread.mp hlong))] at hexpand
        rw [StepSound, hgap, hdisk, hexpand]
        simp only
        rw [if_neg hlong]
        trivial

lemma StepSound.numbered (h : StepSound repair lines step) (hnumbered : Numbered 0 0 lines.lines) :
    Numbered 0 0 (expand repair lines step).lines := by
  rw [StepSound] at h
  split at h
  · split at h
    · exact h.numbered
    · rw [h]
      exact hnumbered
  · rw [h]
    exact hnumbered

lemma run_sound (steps : List Expansion) (hnumbered : Numbered 0 0 lines.lines) : RunSound repair lines steps := by
  induction steps generalizing lines with
  | nil => exact hnumbered
  | cons step rest ih =>
    refine ⟨hnumbered, fun hmeets => ?_⟩
    have hsound := step_sound hnumbered hmeets
    exact ⟨hsound, ih (hsound.numbered hnumbered)⟩

lemma Expanded.gapLength {content added : List Chars} {after : Lines} (h : Expanded lines gap content added after)
    (hstart : gap.start ≤ gap.next) (hnext : gap.next < gap.stop) : gapLength after gap.header < gap.len := by
  rw [Review.gapLength]
  by_cases hlt : gap.header < after.lines.length
  · rw [h.shrunk hlt]
    split
    · simp only [Option.map_some, Option.getD_some, Gap.len]
      omega
    · simp only [Option.map_none, Option.getD_none, Gap.len]
      omega
  · have hnone : after.gap gap.header = none := by
      have hline : after.lines[gap.header]? = none := List.getElem?_eq_none (not_lt.mp hlt)
      simp [Lines.gap, hline]
    rw [hnone]
    simp only [Option.map_none, Option.getD_none, Gap.len]
    omega

lemma run_closes (steps : List Expansion) (hnumbered : Numbered 0 0 lines.lines) (h : Completes repair index lines steps)
    (hsteps : gapLength lines index ≤ steps.length) : (run repair lines steps).gap index = none := by
  induction steps generalizing lines with
  | nil =>
    cases hgap : lines.gap index with
    | none => exact hgap
    | some gap =>
      obtain ⟨line, old, new, -, -, -, -, -, hstart, rfl⟩ := gap_eq_some hgap
      rw [gapLength, hgap] at hsteps
      simp only [Option.map_some, Option.getD_some, Gap.len, List.length_nil] at hsteps
      omega
  | cons step rest ih =>
    obtain ⟨⟨rfl, hcomplete⟩, hrest⟩ := h
    rw [List.length_cons] at hsteps
    have hmeets : Meets repair lines step := by
      intro gap hgap bytes hbytes _
      obtain ⟨hpast, bytes', hbytes', hfull⟩ := hcomplete gap hgap
      obtain rfl := Option.some.inj (hbytes.symm.trans hbytes')
      exact ⟨hfull, hpast⟩
    have hsound := step_sound hnumbered hmeets
    refine ih (hsound.numbered hnumbered) hrest ?_
    cases hgap : lines.gap step.header with
    | none =>
      rw [expand_gapless hgap, gapLength, hgap]
      exact Nat.zero_le _
    | some gap =>
      obtain ⟨hheader, line, header, hsized⟩ := sized_gap hnumbered hgap
      obtain ⟨hstart, hnext, hstop, -⟩ := hsized.next_bounds
      obtain ⟨-, bytes, hbytes, hfull⟩ := hcomplete gap hgap
      have hdisk : step.disk = some bytes := hbytes
      rw [StepSound, hgap, hdisk] at hsound
      simp only at hsound
      rw [if_pos (by omega)] at hsound
      have hless := hsound.gapLength hnext hstop
      rw [gapLength, hgap] at hsteps
      change gap.len ≤ rest.length + 1 at hsteps
      rw [hheader]
      omega

end Run

structure NumberedLines where
  lines : Lines
  numbered : Numbered 0 0 lines.lines

theorem expansions_numbered (repair : List UInt8 → Chars) (start : NumberedLines) (steps : List Expansion) :
    RunSound repair start.lines steps ∧
      ∀ index, Completes repair index start.lines steps ∧ gapLength start.lines index ≤ steps.length →
        (run repair start.lines steps).gap index = none :=
  ⟨run_sound steps start.numbered, fun _ h => run_closes steps start.numbered h.1 h.2⟩

def tenth : NumberedLines where
  lines := {
    lines := [⟨.hunk, none, none, "@@ -10,1 +10,2 @@"⟩, ⟨.context, some 10, some 10, "ten"⟩,
      ⟨.added, none, some 11, "eleven"⟩]
    hunks := [0]
    bounded := by decide }
  numbered := by
    refine .hunk ⟨10, some 1, 10, some 2, []⟩ rfl (by decide) ⟨rfl, rfl⟩ (by decide) ?_
    refine .line (by decide) (Or.inr rfl) (Or.inr rfl) ?_
    exact .line (by decide) (Or.inl rfl) (Or.inr rfl) .nil

def cutShort : List Expansion := [⟨0, some [97, 10, 98, 10]⟩]

theorem header_misnamed :
    (run (fun _ => []) tenth.lines cutShort).lines.map (fun line => (line.old, line.new, line.text)) =
        [(none, none, "@@ -8,3 +8,4 @@"), (some 1, some 1, "a"), (some 2, some 2, "b"), (some 10, some 10, "ten"),
          (none, some 11, "eleven")] ∧
      ((run (fun _ => []) tenth.lines cutShort).lines.head?.bind fun line => hunkStarts line.text.toList) = some (8, 8) := by
  decide +kernel

end Sheprd.Review
