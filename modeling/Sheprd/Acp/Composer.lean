import Mathlib.Data.List.DropRight
import Sheprd.Lib.Offsets

namespace Sheprd.Acp.Composing

open Sheprd.Lib Offsets

def size (text : List Char) : ℕ := measure Char.utf8Size text

def cutAt (text : List Char) (offset : ℕ) : Option (List Char × List Char) :=
  cut Char.utf8Size text offset

def drain (text : List Char) (start stop : ℕ) : Option (List Char) :=
  (slice Char.utf8Size text start stop).map fun (front, _, back) => front ++ back

def rfind (p : Char → Bool) : List Char → Option ℕ
  | [] => none
  | ch :: text =>
      match rfind p text with
      | some index => some (ch.utf8Size + index)
      | none => if p ch then some 0 else none

def isBreak (ch : Char) : Bool := ch = ' ' || ch = '\n'

structure Composer where
  cursor : ℕ
  text : List Char

namespace Composer

def default : Composer := ⟨0, []⟩

def insert (c : Composer) (text : List Char) : Option Composer :=
  (cutAt c.text c.cursor).map fun (before, after) => ⟨c.cursor + size text, before ++ text ++ after⟩

def previous (c : Composer) : Option ℕ :=
  (cutAt c.text c.cursor).map fun (before, _) => size before.dropLast

def next (c : Composer) : Option ℕ :=
  (cutAt c.text c.cursor).map fun (_, after) =>
    after.head?.elim c.cursor fun ch => c.cursor + ch.utf8Size

def backspace (c : Composer) : Option Composer := do
  let start ← c.previous
  let text ← drain c.text start c.cursor
  return ⟨start, text⟩

def delete (c : Composer) : Option Composer := do
  let stop ← c.next
  let text ← drain c.text c.cursor stop
  return { c with text := text }

def deleteWord (c : Composer) : Option Composer := do
  let (before, _) ← cutAt c.text c.cursor
  let trimmed := before.rdropWhile (· = ' ')
  let start := (rfind isBreak trimmed).elim 0 (· + 1)
  let text ← drain c.text start c.cursor
  return ⟨start, text⟩

def set (text : List Char) : Composer := ⟨size text, text⟩

def take (c : Composer) : List Char × Composer := (c.text, default)

end Composer

inductive Key where
  | insert (text : List Char)
  | backspace
  | delete
  | deleteWord
  | left
  | right
  | home
  | toEnd
  | clearBefore
  | clearAfter
  | set (text : List Char)
  | take

def Composer.press (c : Composer) : Key → Option Composer
  | .insert text => c.insert text
  | .backspace => c.backspace
  | .delete => c.delete
  | .deleteWord => c.deleteWord
  | .left => c.previous.map fun cursor => { c with cursor := cursor }
  | .right => c.next.map fun cursor => { c with cursor := cursor }
  | .home => some { c with cursor := 0 }
  | .toEnd => some { c with cursor := size c.text }
  | .clearBefore => (drain c.text 0 c.cursor).map fun text => ⟨0, text⟩
  | .clearAfter => (cutAt c.text c.cursor).map fun (before, _) => { c with text := before }
  | .set text => some (.set text)
  | .take => some c.take.2

def Composer.type (c : Composer) (keys : List Key) : Option Composer := keys.foldlM press c

structure Halves where
  before : List Char
  after : List Char

namespace Halves

def composer (h : Halves) : Composer := ⟨size h.before, h.before ++ h.after⟩

def press (h : Halves) : Key → Halves
  | .insert text => ⟨h.before ++ text, h.after⟩
  | .backspace => ⟨h.before.dropLast, h.after⟩
  | .delete => ⟨h.before, h.after.tail⟩
  | .deleteWord => ⟨(h.before.rdropWhile (· = ' ')).rdropWhile (!isBreak ·), h.after⟩
  | .left => ⟨h.before.dropLast, h.before.getLast?.toList ++ h.after⟩
  | .right => ⟨h.before ++ h.after.head?.toList, h.after.tail⟩
  | .home => ⟨[], h.before ++ h.after⟩
  | .toEnd => ⟨h.before ++ h.after, []⟩
  | .clearBefore => ⟨[], h.after⟩
  | .clearAfter => ⟨h.before, []⟩
  | .set text => ⟨text, []⟩
  | .take => ⟨[], []⟩

def type (h : Halves) (keys : List Key) : Halves := keys.foldl press h

end Halves

lemma size_append (front back : List Char) : size (front ++ back) = size front + size back :=
  measure_append

lemma cutAt_append (front back : List Char) : cutAt (front ++ back) (size front) = some (front, back) :=
  cut_append Char.utf8Size_pos front back

lemma drain_append (front middle back : List Char) :
    drain (front ++ middle ++ back) (size front) (size (front ++ middle)) = some (front ++ back) :=
  congrArg (Option.map _) (slice_append Char.utf8Size_pos front middle back)

lemma isBreak_size {ch : Char} (h : isBreak ch = true) : ch.utf8Size = 1 := by
  obtain rfl | rfl : ch = ' ' ∨ ch = '\n' := by simpa [isBreak] using h
  · rfl
  · rfl

lemma rfind_concat (p : Char → Bool) (text : List Char) (ch : Char) :
    rfind p (text ++ [ch]) = if p ch then some (size text) else rfind p text := by
  induction text with
  | nil => rfl
  | cons first text ih =>
    rw [List.cons_append, rfind, ih]
    by_cases h : p ch
    · rw [if_pos h, if_pos h]
      exact congrArg some (measure_cons first).symm
    · rw [if_neg h, if_neg h, rfind]

lemma rfind_size (text : List Char) :
    (rfind isBreak text).elim 0 (· + 1) = size (text.rdropWhile (!isBreak ·)) := by
  induction text using List.reverseRecOn with
  | nil => rfl
  | append_singleton text ch ih =>
    rw [rfind_concat, List.rdropWhile_concat]
    by_cases h : isBreak ch = true
    · have one : size [ch] = 1 := by simp [size, isBreak_size h]
      simp [h, size_append, one]
    · simp [h, ih]

lemma deleteWord_halves (h : Halves) :
    h.composer.deleteWord = some (h.press .deleteWord).composer := by
  obtain ⟨rest, split⟩ : (h.before.rdropWhile (· = ' ')).rdropWhile (!isBreak ·) <+: h.before :=
    (List.rdropWhile_prefix _ _).trans (List.rdropWhile_prefix _ _)
  have start := rfind_size (h.before.rdropWhile (· = ' '))
  have left := drain_append ((h.before.rdropWhile (· = ' ')).rdropWhile (!isBreak ·)) rest h.after
  rw [split] at left
  unfold Composer.deleteWord Halves.composer
  simp only [cutAt_append, Option.bind_eq_bind, Option.bind_some, start, left]
  rfl

lemma dropLast_split (text : List Char) : text.dropLast ++ text.getLast?.toList = text := by
  obtain rfl | ⟨front, ch, rfl⟩ := List.eq_nil_or_concat text
  · rfl
  · simp

lemma tail_split (text : List Char) : text.head?.toList ++ text.tail = text := by
  cases text <;> rfl

lemma previous_halves (h : Halves) : h.composer.previous = some (size h.before.dropLast) := by
  unfold Composer.previous Halves.composer
  simp only [cutAt_append, Option.map_some]

lemma next_halves (h : Halves) : h.composer.next = some (size (h.before ++ h.after.head?.toList)) := by
  unfold Composer.next Halves.composer
  simp only [cutAt_append, Option.map_some, size_append]
  cases h.after with
  | nil => rfl
  | cons ch rest => simp [size]

lemma backspace_halves (h : Halves) : h.composer.backspace = some (h.press .backspace).composer := by
  have left := drain_append h.before.dropLast h.before.getLast?.toList h.after
  rw [dropLast_split] at left
  unfold Composer.backspace
  rw [previous_halves]
  simp only [Option.bind_eq_bind, Option.bind_some]
  unfold Halves.composer
  simp only [left, Option.bind_some]
  rfl

lemma delete_halves (h : Halves) : h.composer.delete = some (h.press .delete).composer := by
  have left := drain_append h.before h.after.head?.toList h.after.tail
  rw [List.append_assoc, tail_split] at left
  unfold Composer.delete
  rw [next_halves]
  simp only [Option.bind_eq_bind, Option.bind_some]
  unfold Halves.composer
  simp only [left, Option.bind_some]
  rfl

lemma press_halves (h : Halves) (key : Key) : h.composer.press key = some (h.press key).composer := by
  cases key with
  | insert text =>
    change (cutAt _ _).map _ = _
    unfold Halves.composer
    simp only [cutAt_append, Option.map_some]
    simp [Halves.press, size_append]
  | backspace => exact backspace_halves h
  | delete => exact delete_halves h
  | deleteWord => exact deleteWord_halves h
  | left =>
    have same := dropLast_split h.before
    change h.composer.previous.map _ = _
    rw [previous_halves, Option.map_some]
    simp only [Halves.press, Halves.composer, ← List.append_assoc, same]
  | right =>
    have same := tail_split h.after
    change h.composer.next.map _ = _
    rw [next_halves, Option.map_some]
    simp only [Halves.press, Halves.composer, List.append_assoc, same]
  | home => rfl
  | toEnd => simp [Composer.press, Halves.composer, Halves.press]
  | clearBefore =>
    have left := drain_append [] h.before h.after
    change (drain (h.before ++ h.after) 0 (size h.before)).map _ = _
    rw [show drain (h.before ++ h.after) 0 (size h.before) = some h.after from left]
    rfl
  | clearAfter =>
    change (cutAt (h.before ++ h.after) (size h.before)).map _ = _
    rw [cutAt_append]
    simp [Halves.press, Halves.composer]
  | set text => simp [Composer.press, Composer.set, Halves.composer, Halves.press]
  | take => rfl

lemma type_halves (h : Halves) (keys : List Key) :
    h.composer.type keys = some (h.type keys).composer := by
  induction keys generalizing h with
  | nil => rfl
  | cons key keys ih =>
    change (h.composer.press key).bind (·.type keys) = _
    rw [press_halves, Option.bind_some]
    exact ih (h.press key)

structure Laid where
  above : List (List Char)
  row : List Char
  column : ℕ
  cursor : ℕ × ℕ

section Layout

variable (widthOf : Char → ℕ) (width : ℕ)

namespace Laid

def start : Laid := ⟨[], [], 0, (0, 0)⟩

def rows (s : Laid) : List (List Char) := s.above ++ [s.row]

def newRow (s : Laid) : Laid := { s with above := s.above ++ [s.row], row := [], column := 0 }

def here (s : Laid) : Laid := { s with cursor := (s.above.length, s.column) }

def place (s : Laid) (ch : Char) : Laid :=
  if ch = '\n' then s.newRow
  else
    let s := if s.column + widthOf ch > width then s.newRow else s
    { s with row := s.row ++ [ch], column := s.column + widthOf ch }

def lay (cursor : ℕ) : ℕ → Laid → List Char → Laid
  | _, s, [] => s
  | index, s, ch :: text =>
      lay cursor (index + ch.utf8Size) ((if index = cursor then s.here else s).place widthOf width ch) text

end Laid

def Composer.layout (c : Composer) : List (List Char) × (ℕ × ℕ) :=
  let width := max width 1
  let s := Laid.start.lay widthOf width c.cursor 0 c.text
  if c.cursor ≥ size c.text then
    let s := (if s.column ≥ width then s.newRow else s).here
    (s.rows, s.cursor)
  else (s.rows, s.cursor)

namespace Laid

structure Holds (s : Laid) (text : List Char) : Prop where
  text : s.rows.flatten = text.filter (· ≠ '\n')
  column : s.column = measure widthOf s.row
  fits : ∀ row ∈ s.rows, measure widthOf row ≤ width

def Shows (rows : List (List Char)) (cursor : ℕ × ℕ) (before : List Char) : Prop :=
  ∃ above front rest below, rows = above ++ (front ++ rest) :: below ∧
    cursor = (above.length, measure widthOf front) ∧
      above.flatten ++ front = before.filter (· ≠ '\n')

variable {widthOf width} {s : Laid} {text before : List Char} {cursor : ℕ × ℕ}

lemma Holds.newRow (h : s.Holds widthOf width text) : s.newRow.Holds widthOf width text where
  text := by simpa [rows, Laid.newRow] using h.text
  column := rfl
  fits row held := by
    obtain old | new := List.mem_append.mp held
    · exact h.fits row old
    · rw [List.mem_singleton.mp new]
      exact Nat.zero_le _

lemma Holds.ended (h : s.Holds widthOf width text) :
    (if s.column ≥ width then s.newRow else s).Holds widthOf width text := by
  split_ifs with full
  · exact h.newRow
  · exact h

lemma Holds.push (h : s.Holds widthOf width text) {ch : Char} (plain : ch ≠ '\n')
    (room : s.column + widthOf ch ≤ width) :
    Holds widthOf width { s with row := s.row ++ [ch], column := s.column + widthOf ch }
      (text ++ [ch]) where
  text := by
    have old := h.text
    simp only [rows, List.flatten_append, List.flatten_singleton] at old ⊢
    rw [← List.append_assoc, old, List.filter_append]
    simp [plain]
  column := by simp [h.column]
  fits row held := by
    obtain old | new := List.mem_append.mp held
    · exact h.fits row (List.mem_append_left _ old)
    · rw [List.mem_singleton.mp new]
      simpa [h.column] using room

lemma Holds.place (h : s.Holds widthOf width text) {ch : Char} (narrow : widthOf ch ≤ width) :
    (s.place widthOf width ch).Holds widthOf width (text ++ [ch]) := by
  unfold Laid.place
  split_ifs with ends wide
  · have kept := h.newRow
    exact ⟨by rw [kept.text, ends]; simp, kept.column, kept.fits⟩
  · exact h.newRow.push ends (by simpa [Laid.newRow] using narrow)
  · exact h.push ends (not_lt.mp wide)

lemma place_rows (s : Laid) (ch : Char) :
    ∃ more below, (s.place widthOf width ch).rows = s.above ++ (s.row ++ more) :: below := by
  unfold Laid.place
  split_ifs with ends wide
  · exact ⟨[], [[]], by simp [rows, newRow]⟩
  · exact ⟨[], [[ch]], by simp [rows, newRow]⟩
  · exact ⟨[ch], [], by simp [rows]⟩

lemma Shows.place (h : Shows widthOf s.rows cursor before) (ch : Char) :
    Shows widthOf (s.place widthOf width ch).rows cursor before := by
  obtain ⟨above, front, rest, below, same, place, held⟩ := h
  obtain ⟨more, later, grown⟩ : ∃ more later,
      (s.place widthOf width ch).rows = s.above ++ (s.row ++ more) :: later := s.place_rows ch
  rw [grown]
  obtain rfl | ⟨middle, last, rfl⟩ := List.eq_nil_or_concat below
  · obtain ⟨rfl, row⟩ := List.append_inj' same rfl
    exact ⟨s.above, front, rest ++ more, later, by simp [List.singleton_inj.mp row], place, held⟩
  · rw [List.concat_eq_append, ← List.cons_append, ← List.append_assoc] at same
    obtain ⟨first, row⟩ := List.append_inj' same rfl
    exact ⟨above, front, rest, middle ++ (s.row ++ more) :: later, by simp [first], place, held⟩

lemma Holds.here (h : s.Holds widthOf width before) : Shows widthOf s.rows s.here.cursor before := by
  refine ⟨s.above, s.row, [], [], by simp [rows], by rw [← h.column]; rfl, ?_⟩
  rw [← h.text, rows, List.flatten_append, List.flatten_singleton]

lemma place_cursor (s : Laid) (ch : Char) : (s.place widthOf width ch).cursor = s.cursor := by
  unfold Laid.place
  split_ifs <;> rfl

lemma lay_passes {s : Laid} {seen : List Char} (at' index : ℕ) (text : List Char)
    (narrow : ∀ ch ∈ text, widthOf ch ≤ width) (apart : at' < index ∨ index + size text ≤ at')
    (h : s.Holds widthOf width seen) :
    (s.lay widthOf width at' index text).Holds widthOf width (seen ++ text) ∧
      (s.lay widthOf width at' index text).cursor = s.cursor ∧
        ∀ cursor before, Shows widthOf s.rows cursor before →
          Shows widthOf (s.lay widthOf width at' index text).rows cursor before := by
  induction text generalizing index s seen with
  | nil => exact ⟨by simpa [lay] using h, rfl, fun _ _ shown => shown⟩
  | cons ch text ih =>
    have wide := Char.utf8Size_pos ch
    have total : size (ch :: text) = ch.utf8Size + size text := measure_cons ch
    obtain ⟨first, others⟩ := List.forall_mem_cons.mp narrow
    have elsewhere : index ≠ at' := by omega
    obtain ⟨holds, cursor, shows⟩ := ih (index + ch.utf8Size) others (by omega) (h.place first)
    rw [lay, if_neg elsewhere]
    refine ⟨by simpa using holds, cursor.trans (place_cursor s ch), fun cursor before shown => ?_⟩
    exact shows cursor before (shown.place ch)

lemma lay_append (at' index : ℕ) (s : Laid) (front back : List Char) :
    s.lay widthOf width at' index (front ++ back) =
      (s.lay widthOf width at' index front).lay widthOf width at' (index + size front) back := by
  induction front generalizing index s with
  | nil => rfl
  | cons ch front ih =>
    have total : size (ch :: front) = ch.utf8Size + size front := measure_cons ch
    rw [List.cons_append, lay, ih, lay, total, Nat.add_assoc]

lemma Holds.start : start.Holds widthOf width [] where
  text := rfl
  column := rfl
  fits row held := by
    rw [List.mem_singleton.mp held]
    exact Nat.zero_le _

end Laid

lemma layout_halves (h : Halves) (narrow : ∀ ch ∈ h.composer.text, widthOf ch ≤ max width 1) :
    (h.composer.layout widthOf width).1.flatten = h.composer.text.filter (· ≠ '\n') ∧
      (∀ row ∈ (h.composer.layout widthOf width).1, measure widthOf row ≤ max width 1) ∧
        Laid.Shows widthOf (h.composer.layout widthOf width).1 (h.composer.layout widthOf width).2
          h.before := by
  obtain ⟨before, after⟩ := h
  obtain ⟨first, -, -⟩ := Laid.lay_passes (size before) 0 before
    (fun ch held => narrow ch (List.mem_append_left after held))
    (.inr (Nat.zero_add _).le) Laid.Holds.start
  unfold Composer.layout Halves.composer
  simp only [Laid.lay_append]
  cases after with
  | nil =>
    rw [if_pos (by simp)]
    simp only [List.append_nil, Laid.lay]
    have last : ∀ s : Laid, s.Holds widthOf (max width 1) before →
        s.here.rows.flatten = before.filter (· ≠ '\n') ∧
          (∀ row ∈ s.here.rows, measure widthOf row ≤ max width 1) ∧
            Laid.Shows widthOf s.here.rows s.here.cursor before :=
      fun s h => ⟨h.text, h.fits, h.here⟩
    exact last _ first.ended
  | cons ch rest =>
    have wide := Char.utf8Size_pos ch
    obtain ⟨here, later⟩ := List.forall_mem_cons.mp fun ch held =>
      narrow ch (List.mem_append_right before held)
    have beyond : ¬ size before ≥ size (before ++ ch :: rest) := by
      rw [size_append, show size (ch :: rest) = ch.utf8Size + size rest from measure_cons ch]
      omega
    have seen : (Laid.start.lay widthOf (max width 1) (size before) 0 before).here.Holds widthOf
        (max width 1) ([] ++ before) := ⟨first.text, first.column, first.fits⟩
    obtain ⟨holds, cursor, shows⟩ := Laid.lay_passes (size before)
      (0 + size before + ch.utf8Size) rest later (.inl (by omega)) (seen.place here)
    rw [if_neg beyond, Laid.lay, if_pos (Nat.zero_add _)]
    refine ⟨by simpa using holds.text, holds.fits, ?_⟩
    rw [cursor, Laid.place_cursor]
    exact shows _ before (seen.here.place ch)

theorem typed_shown (keys : List Key)
    (narrow : ∀ ch ∈ ((⟨[], []⟩ : Halves).type keys).composer.text, widthOf ch ≤ max width 1) :
    ∃ c, Composer.default.type keys = some c ∧ c = ((⟨[], []⟩ : Halves).type keys).composer ∧
      (c.layout widthOf width).1.flatten = c.text.filter (· ≠ '\n') ∧
        (∀ row ∈ (c.layout widthOf width).1, measure widthOf row ≤ max width 1) ∧
          Laid.Shows widthOf (c.layout widthOf width).1 (c.layout widthOf width).2
            ((⟨[], []⟩ : Halves).type keys).before :=
  ⟨_, type_halves ⟨[], []⟩ keys, rfl, layout_halves widthOf width _ narrow⟩

end Layout

theorem typed_shown_wrapped :
    ∃ c, Composer.default.type [.insert "où est".toList, .deleteWord, .left, .insert ['é']] = some c ∧
      c.text = "oùé ".toList ∧ c.cursor = 5 ∧
        Laid.Shows (fun _ => 1) (c.layout (fun _ => 1) 2).1 (c.layout (fun _ => 1) 2).2 "oùé".toList := by
  obtain ⟨c, typed, rfl, -, -, shown⟩ := typed_shown (fun _ => 1) 2
    [.insert "où est".toList, .deleteWord, .left, .insert ['é']] (fun _ _ => le_max_right 2 1)
  exact ⟨_, typed, by decide, by decide, shown⟩

end Sheprd.Acp.Composing
