import Sheprd.Review.Context
import Sheprd.Review.NamesRead

namespace Sheprd.Review

open Lib

structure Header where
  old : UInt32
  oldLength : Option UInt32
  new : UInt32
  newLength : Option UInt32
  tail : Chars

namespace Header

def ranges (header : Header) : Chars :=
  '-' :: rangeText header.old (header.oldLength.map UInt32.toNat) ++
    ' ' :: '+' :: rangeText header.new (header.newLength.map UInt32.toNat)

def text (header : Header) : Chars := hunkMark ++ (header.ranges ++ ' ' :: '@' :: '@' :: header.tail)

variable (header : Header)

lemma starts : hunkStarts header.text = some (header.old.toNat, header.new.toNat) := by
  have hstarts := hunkStarts_printed ⟨header.old, header.oldLength.map UInt32.toNat, header.new,
    header.newLength.map UInt32.toNat, [], by simp, []⟩ ('@' :: '@' :: header.tail)
  have htext : header.text = hunkMark ++ ('-' :: rangeText header.old (header.oldLength.map UInt32.toNat) ++
      ' ' :: ('+' :: rangeText header.new (header.newLength.map UInt32.toNat) ++ ' ' :: '@' :: '@' :: header.tail)) := by
    simp [text, ranges]
  rw [htext]
  exact hstarts

section Kept

lemma rangeText_chars (start : UInt32) (length : Option UInt32) :
    ∀ c ∈ rangeText start (length.map UInt32.toNat), c.isDigit ∨ c = ',' := by
  intro c hc
  obtain hstart | hlength := List.mem_append.mp hc
  · exact Or.inl (Text.isDigit_of_repr hstart)
  · cases length with
    | none => exact absurd hlength (by simp)
    | some length =>
      obtain rfl | hlength := List.mem_cons.mp hlength
      · exact Or.inr rfl
      · exact Or.inl (Text.isDigit_of_repr hlength)

lemma ranges_chars : ∀ c ∈ header.ranges, c.isDigit ∨ c = ',' ∨ c = '-' ∨ c = ' ' ∨ c = '+' := by
  intro c hc
  obtain hold | hnew := List.mem_append.mp hc
  · obtain rfl | hold := List.mem_cons.mp hold
    · exact Or.inr (Or.inr (Or.inl rfl))
    · exact (rangeText_chars _ _ c hold).imp_right Or.inl
  · obtain rfl | hnew := List.mem_cons.mp hnew
    · exact Or.inr (Or.inr (Or.inr (Or.inl rfl)))
    · obtain rfl | hnew := List.mem_cons.mp hnew
      · exact Or.inr (Or.inr (Or.inr (Or.inr rfl)))
      · exact (rangeText_chars _ _ c hnew).imp_right Or.inl

lemma repr_length (n : UInt32) : n.toNat.repr.toList.length ≤ 10 := by
  have hle : n.toNat.repr.length ≤ 10 := (Nat.length_repr_le_iff (by omega)).mpr (by have := n.toNat_lt; omega)
  rwa [← String.length_toList] at hle

lemma rangeText_length (start : UInt32) (length : Option UInt32) :
    (rangeText start (length.map UInt32.toNat)).length ≤ 21 := by
  have hstart := repr_length start
  cases length with
  | none =>
    change (start.toNat.repr.toList ++ []).length ≤ 21
    rw [List.append_nil]
    omega
  | some length =>
    have hlength := repr_length length
    change (start.toNat.repr.toList ++ ',' :: length.toNat.repr.toList).length ≤ 21
    rw [List.length_append, List.length_cons]
    omega

lemma isDigit_safe {c : Char} (h : c.isDigit) : c ≠ '\t' ∧ unsafeChar c = false := by
  have hbounds : 48 ≤ c.toNat ∧ c.toNat ≤ 57 := by
    simp only [Char.isDigit, Bool.and_eq_true, decide_eq_true_eq, ge_iff_le, UInt32.le_iff_toNat_le] at h
    exact h
  refine ⟨?_, ?_⟩
  · rintro rfl
    exact absurd hbounds (by simp)
  · simp only [unsafeChar, Text.isControl, Bool.or_eq_false_iff, Bool.and_eq_false_iff, decide_eq_false_iff_not]
    omega

lemma ranges_safe : ∀ c ∈ header.ranges, c ≠ '\t' ∧ unsafeChar c = false := by
  intro c hc
  obtain hdigit | rfl | rfl | rfl | rfl := header.ranges_chars c hc
  · exact isDigit_safe hdigit
  all_goals decide

lemma cleanFrom_safe {front : Chars} (h : ∀ c ∈ front, c ≠ '\t' ∧ unsafeChar c = false) (rest : Chars) {kept : ℕ}
    (hkept : kept + front.length ≤ maxLineChars) :
    cleanFrom kept (front ++ rest) = front ++ cleanFrom (kept + front.length) rest := by
  induction front generalizing kept with
  | nil => rfl
  | cons c front ih =>
    obtain ⟨⟨htab, hsafe⟩, hfront⟩ := List.forall_mem_cons.mp h
    rw [List.length_cons] at hkept
    have hroom : ¬ maxLineChars ≤ kept := by omega
    rw [List.cons_append, cleanFrom, if_neg hroom, if_neg htab, hsafe, if_neg (by simp), ih hfront (by omega),
      List.length_cons, Nat.add_right_comm, Nat.add_assoc, List.cons_append]

lemma safe_of_all {text : Chars} (h : text.all (fun c => decide (c ≠ '\t' ∧ unsafeChar c = false)) = true) :
    ∀ c ∈ text, c ≠ '\t' ∧ unsafeChar c = false :=
  fun c hc => of_decide_eq_true (List.all_eq_true.mp h c hc)

lemma clean : ∃ tail, (pushClean header.text).toList = { header with tail }.text := by
  have hfront : ∀ c ∈ hunkMark ++ (header.ranges ++ [' ', '@', '@']), c ≠ '\t' ∧ unsafeChar c = false := by
    intro c hc
    rw [List.mem_append, List.mem_append] at hc
    obtain hmark | hranges | hend := hc
    · exact safe_of_all (by decide) c hmark
    · exact header.ranges_safe c hranges
    · exact safe_of_all (by decide) c hend
  have hlength : (hunkMark ++ (header.ranges ++ [' ', '@', '@'])).length ≤ maxLineChars := by
    have hold := rangeText_length header.old header.oldLength
    have hnew := rangeText_length header.new header.newLength
    simp only [ranges, hunkMark, maxLineChars, List.length_append, List.length_cons, List.length_nil]
    omega
  have hjoin : ∀ tail, (⟨header.old, header.oldLength, header.new, header.newLength, tail⟩ : Header).text =
      hunkMark ++ (header.ranges ++ [' ', '@', '@']) ++ tail := by
    intro tail
    simp [text, ranges]
  obtain ⟨rest, hrest⟩ := cutReturn_append (show '@' ≠ '\r' by simp) (hunkMark ++ (header.ranges ++ [' ', '@'])) header.tail
  have hcut : cutReturn header.text = hunkMark ++ (header.ranges ++ [' ', '@', '@']) ++ rest := by
    have htext : header.text = (hunkMark ++ (header.ranges ++ [' ', '@'])) ++ '@' :: header.tail := by simp [text]
    rw [htext, hrest]
    simp
  refine ⟨cleanFrom (0 + (hunkMark ++ (header.ranges ++ [' ', '@', '@'])).length) rest, ?_⟩
  rw [pushClean, String.toList_ofList]
  change cleanFrom 0 (cutReturn header.text) = _
  rw [hcut, cleanFrom_safe hfront rest (by omega), hjoin]

end Kept

section Grown

lemma splitOnceText_append {front : Chars} (h : '@' ∉ front) (tail : Chars) :
    splitOnceText [' ', '@', '@'] (front ++ ' ' :: '@' :: '@' :: tail) = some (front, tail) := by
  induction front with
  | nil => rfl
  | cons c front ih =>
    obtain ⟨-, hfront⟩ := not_or.mp (mt List.mem_cons.mpr h)
    have hskip : ¬ [' ', '@', '@'].isPrefixOf (c :: (front ++ ' ' :: '@' :: '@' :: tail)) = true := by
      rw [List.isPrefixOf_iff_prefix, List.cons_prefix_cons]
      rintro ⟨-, hrest⟩
      cases front with
      | nil => exact absurd (List.cons_prefix_cons.mp hrest).1 (by simp)
      | cons d front => exact hfront ((List.cons_prefix_cons.mp hrest).1 ▸ List.mem_cons_self)
    rw [List.cons_append, splitOnceText, if_neg hskip, ih hfront]
    rfl

lemma parseU32_repr (n : UInt32) : parseU32 n.toNat.repr.toList = some n.toNat := by
  rw [parseU32, Text.decimal_repr, Option.filter_some, if_pos (decide_eq_true n.toNat_lt)]

lemma comma_repr (n : ℕ) : ',' ∉ n.repr.toList := fun h => absurd (Text.isDigit_of_repr h) (by decide)

lemma grownRange_text (sign : Char) (start : UInt32) (length : Option UInt32) :
    grownRange (sign :: rangeText start (length.map UInt32.toNat)) sign =
      some (start.toNat, (length.map UInt32.toNat).getD 1) := by
  have hsign : Text.stripPrefix [sign] (sign :: rangeText start (length.map UInt32.toNat)) =
      some (rangeText start (length.map UInt32.toNat)) := if_pos List.mem_cons_self
  have hone : parseU32 ['1'] = some 1 := by decide
  simp only [grownRange, hsign, Option.bind_eq_bind, Option.bind_some]
  cases length with
  | none =>
    have hsplit : Text.splitOnce ',' start.toNat.repr.toList = none := Text.splitOnce_eq_none (comma_repr _)
    have htext : rangeText start none = start.toNat.repr.toList := List.append_nil _
    simp only [Option.map_none, hsplit, Option.getD_none, htext, parseU32_repr, hone, Option.bind_some]
    rfl
  | some length =>
    have hsplit : Text.splitOnce ',' (rangeText start (some length.toNat)) =
        some (start.toNat.repr.toList, length.toNat.repr.toList) := Text.splitOnce_append (comma_repr _) _
    simp only [Option.map_some, hsplit, Option.getD_some, parseU32_repr, Option.bind_some]
    rfl

def grown (added : ℕ) : Header where
  old := UInt32.ofNat (header.old.toNat - added)
  oldLength := some (UInt32.ofNat (saturatingAdd ((header.oldLength.map UInt32.toNat).getD 1) added))
  new := UInt32.ofNat (header.new.toNat - added)
  newLength := some (UInt32.ofNat (saturatingAdd ((header.newLength.map UInt32.toNat).getD 1) added))
  tail := header.tail

lemma toNat_sub (n : UInt32) (added : ℕ) : (UInt32.ofNat (n.toNat - added)).toNat = n.toNat - added := by
  have hlt := n.toNat_lt
  rw [UInt32.toNat_ofNat', Nat.mod_eq_of_lt (by omega)]

lemma toNat_saturating (a b : ℕ) : (UInt32.ofNat (saturatingAdd a b)).toNat = saturatingAdd a b := by
  rw [UInt32.toNat_ofNat', Nat.mod_eq_of_lt]
  simp only [saturatingAdd, u32Max]
  omega

lemma grown_starts (added : ℕ) : (header.grown added).old.toNat = header.old.toNat - added ∧
    (header.grown added).new.toNat = header.new.toNat - added := ⟨toNat_sub _ _, toNat_sub _ _⟩

lemma grownHeader_text (added : ℕ) : grownHeader header.text added = some (header.grown added).text := by
  have hat : '@' ∉ header.ranges := by
    intro h
    obtain hdigit | hcomma | hminus | hspace | hplus := header.ranges_chars '@' h
    · exact absurd hdigit (by decide)
    · exact absurd hcomma (by simp)
    · exact absurd hminus (by simp)
    · exact absurd hspace (by simp)
    · exact absurd hplus (by simp)
  have hparts : Text.splitOn [' '] header.ranges = ['-' :: rangeText header.old (header.oldLength.map UInt32.toNat),
      '+' :: rangeText header.new (header.newLength.map UInt32.toNat)] := by
    rw [ranges, Text.splitOn_append (List.mem_singleton_self ' ') (signed_spaceless _ (by simp) _ _),
      Text.splitOn_whole (signed_spaceless _ (by simp) _ _)]
  have hstrip : strip hunkMark header.text = some (header.ranges ++ ' ' :: '@' :: '@' :: header.tail) :=
    strip_append _ _
  simp only [grownHeader, hstrip, Option.bind_eq_bind, Option.bind_some, splitOnceText_append hat, Option.getD_some,
    hparts, List.getElem?_cons_zero, List.getElem?_cons_succ, grownRange_text]
  refine congrArg some ?_
  have hgrown : (header.grown added).text = hunkMark ++ (('-' :: ((header.old.toNat - added).repr.toList ++ ',' ::
      (saturatingAdd ((header.oldLength.map UInt32.toNat).getD 1) added).repr.toList) ++ ' ' :: '+' ::
      ((header.new.toNat - added).repr.toList ++ ',' ::
      (saturatingAdd ((header.newLength.map UInt32.toNat).getD 1) added).repr.toList)) ++
      ' ' :: '@' :: '@' :: header.tail) := by
    simp only [text, ranges, grown, rangeText, Option.map_some, toNat_sub, toNat_saturating]
  rw [hgrown]
  simp

end Grown

end Header

end Sheprd.Review

namespace Sheprd.Review

open Lib

variable {repair : List UInt8 → Chars}

def past (number : Option ℕ) (next : ℕ) : ℕ := if number.isSome then next + 1 else next

inductive Numbered : ℕ → ℕ → List Line → Prop
  | nil {old new : ℕ} : Numbered old new []
  | hunk {old new : ℕ} {line : Line} {rest : List Line} (header : Header) (kind : line.kind = .hunk)
      (named : line.text.toList = header.text) (bare : line.old = none ∧ line.new = none)
      (starts : old ≤ header.old.toNat ∧ new ≤ header.new.toNat)
      (after : Numbered header.old.toNat header.new.toNat rest) : Numbered old new (line :: rest)
  | line {old new : ℕ} {line : Line} {rest : List Line} (kind : line.kind ≠ .hunk)
      (onOld : line.old = none ∨ line.old = some old) (onNew : line.new = none ∨ line.new = some new)
      (after : Numbered (past line.old old) (past line.new new) rest) : Numbered old new (line :: rest)

def cursor (numbers : ℕ × ℕ) (lines : List Line) : ℕ × ℕ :=
  lines.foldl (fun (old, new) line =>
    if line.kind = .hunk then (hunkStarts line.text.toList).getD (old, new)
    else (past line.old old, past line.new new)) numbers

section Numbered

variable {old new : ℕ} {line : Line} {front back lines : List Line}

lemma cursor_hunk {header : Header} (hkind : line.kind = .hunk) (hnamed : line.text.toList = header.text)
    (numbers : ℕ × ℕ) (rest : List Line) :
    cursor numbers (line :: rest) = cursor (header.old.toNat, header.new.toNat) rest := by
  rw [cursor, List.foldl_cons]
  simp only [hkind, hnamed, header.starts]
  rfl

lemma cursor_line (hkind : line.kind ≠ .hunk) (rest : List Line) :
    cursor (old, new) (line :: rest) = cursor (past line.old old, past line.new new) rest := by
  rw [cursor, List.foldl_cons]
  simp only [if_neg hkind]
  rfl

lemma Numbered.append (h : Numbered old new front) (h' : Numbered (cursor (old, new) front).1 (cursor (old, new) front).2 back) :
    Numbered old new (front ++ back) := by
  induction h with
  | nil => exact h'
  | hunk header hkind hnamed hbare hstarts _ ih =>
    rw [cursor_hunk hkind hnamed] at h'
    exact .hunk header hkind hnamed hbare hstarts (ih h')
  | line hkind hold hnew _ ih =>
    rw [cursor_line hkind] at h'
    exact .line hkind hold hnew (ih h')

lemma Numbered.split (h : Numbered old new (front ++ back)) : Numbered old new front ∧
    Numbered (cursor (old, new) front).1 (cursor (old, new) front).2 back := by
  induction front generalizing old new with
  | nil => exact ⟨.nil, h⟩
  | cons line front ih =>
    cases h with
    | hunk header hkind hnamed hbare hstarts hafter =>
      rw [cursor_hunk hkind hnamed]
      exact ⟨.hunk header hkind hnamed hbare hstarts (ih hafter).1, (ih hafter).2⟩
    | line hkind hold hnew hafter =>
      rw [cursor_line hkind]
      exact ⟨.line hkind hold hnew (ih hafter).1, (ih hafter).2⟩

lemma Numbered.initial (h : Numbered old new lines) (hprefix' : front <+: lines) : Numbered old new front := by
  obtain ⟨back, rfl⟩ := hprefix'
  exact h.split.1

def again (line : Line) : Line := { line with text := pushClean line.text.toList }

lemma Numbered.again (h : Numbered old new lines) : Numbered old new (lines.map again) ∧
    cursor (old, new) (lines.map Review.again) = cursor (old, new) lines := by
  induction h with
  | nil => exact ⟨.nil, rfl⟩
  | @hunk _ _ line _ header hkind hnamed hbare hstarts _ ih =>
    obtain ⟨tail, htail⟩ := header.clean
    have htext : (Review.again line).text.toList = { header with tail }.text := by
      rw [← htail, ← hnamed]
      rfl
    have hagain : (Review.again line).kind = .hunk := hkind
    rw [List.map_cons, cursor_hunk hkind hnamed, cursor_hunk hagain htext]
    exact ⟨.hunk _ hkind htext hbare hstarts ih.1, ih.2⟩
  | @line _ _ line _ hkind hold hnew _ ih =>
    have hagain : (Review.again line).kind ≠ .hunk := hkind
    rw [List.map_cons, cursor_line hkind, cursor_line hagain]
    exact ⟨.line hkind hold hnew ih.1, ih.2⟩

end Numbered

section Written

variable {lines : Lines} {wanted : List Line}

def bytesOf (lines : List Line) : ℕ := (lines.map fun line => line.text.utf8ByteSize).sum

def Fits (lines : List Line) : Prop := lines.length ≤ maxFileLines ∧ bytesOf lines < u32Max / 2

def Written (lines : Lines) (wanted : List Line) : Prop :=
  lines.lines = wanted ∨ Full lines ∧ lines.lines <+: wanted

lemma Written.push (h : Written lines wanted) (kind : Kind) (old new : Option ℕ) (text : Chars) :
    Written (lines.push kind old new text).2 (wanted ++ [shownLine kind old new text]) := by
  by_cases hfull : Full lines
  · rw [push_full hfull]
    refine Or.inr ⟨hfull, ?_⟩
    obtain heq | ⟨-, hprefix'⟩ := h
    · exact heq ▸ List.prefix_append _ _
    · exact hprefix'.trans (List.prefix_append _ _)
  · have heq := h.resolve_right fun hboth => hfull hboth.1
    exact Or.inl (by rw [(push_room hfull).2, heq])

lemma Written.copies (h : Written lines wanted) (more : List Line) :
    Written (more.foldl Lines.copy lines) (wanted ++ more.map again) := by
  induction more generalizing lines wanted with
  | nil => simpa using h
  | cons line more ih =>
    have hnext := ih (h.push line.kind line.old line.new line.text.toList)
    rw [List.append_assoc] at hnext
    exact hnext

def contextLine (first oldFirst : ℕ) (entry : Chars × ℕ) : Line :=
  shownLine .context (some (saturatingAdd oldFirst entry.2)) (some (saturatingAdd first entry.2)) entry.1

lemma Written.contexts (h : Written lines wanted) (first oldFirst : ℕ) (entries : List (Chars × ℕ)) :
    Written (entries.foldl (Lines.pushContext first oldFirst) lines)
      (wanted ++ entries.map (contextLine first oldFirst)) := by
  induction entries generalizing lines wanted with
  | nil => simpa using h
  | cons entry entries ih =>
    have hnext := ih (h.push .context (some (saturatingAdd oldFirst entry.2)) (some (saturatingAdd first entry.2)) entry.1)
    rw [List.append_assoc] at hnext
    exact hnext

lemma bytesOf_prefix {front wanted : List Line} (h : front <+: wanted) : bytesOf front ≤ bytesOf wanted := by
  obtain ⟨back, rfl⟩ := h
  rw [bytesOf, bytesOf, List.map_append, List.sum_append]
  exact Nat.le_add_right _ _

lemma Written.prefix' (h : Written lines wanted) : lines.lines <+: wanted :=
  h.elim (fun heq => heq ▸ List.prefix_refl _) And.right

lemma Written.all (h : Written lines wanted) (hfits : Fits wanted) : lines.lines = wanted := by
  obtain heq | ⟨hfull, hprefix'⟩ := h
  · exact heq
  · refine hprefix'.eq_of_length_le ?_
    obtain hcount | hsize := hfull
    · exact hfits.1.trans hcount
    · have hbytes : lines.size ≤ bytesOf wanted := bytesOf_prefix hprefix'
      have hless := hfits.2
      omega

end Written

section Target

def target (lines : List Line) (header first oldFirst : ℕ) (added : List Chars) : List Line :=
  let text := (lines[header]?.map fun line => line.text.toList).getD []
  (lines.take header).map again ++
    shownLine .hunk none none ((grownHeader text (min added.length u32Max)).getD text) ::
      (added.zipIdx.map (contextLine first oldFirst) ++ (lines.drop (header + 1)).map again)

def headerText (lines : List Line) (header : ℕ) : Chars := (lines[header]?.map fun line => line.text.toList).getD []

def shownHeader (lines : List Line) (header count : ℕ) : Chars :=
  (grownHeader (headerText lines header) (min count u32Max)).getD (headerText lines header)

lemma withContext_written (lines : Lines) (header first oldFirst : ℕ) (added : List Chars) :
    Written (lines.withContext header first oldFirst added) (target lines.lines header first oldFirst added) := by
  have hnone : Written {} [] := Or.inl rfl
  have hbefore := hnone.copies (lines.lines.take header)
  have hheader := hbefore.push .hunk none none (shownHeader lines.lines header added.length)
  have hafter := (hheader.contexts first oldFirst added.zipIdx).copies (lines.lines.drop (header + 1))
  rw [List.nil_append, List.append_assoc, List.append_assoc, List.singleton_append] at hafter
  exact hafter

end Target

end Sheprd.Review
