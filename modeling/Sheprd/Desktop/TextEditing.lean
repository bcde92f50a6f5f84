import Sheprd.Lib.Offsets
import Sheprd.Lib.Run

namespace Sheprd.Desktop.TextEditing

open Sheprd.Lib Offsets

inductive Newlines where
  | strip
  | keep

def normalizeKeep : List Char → List Char
  | [] => []
  | '\r' :: '\n' :: text => '\n' :: normalizeKeep text
  | '\r' :: text => '\n' :: normalizeKeep text
  | ch :: text => ch :: normalizeKeep text

def normalize (text : List Char) : Newlines → List Char
  | .strip => text.filter fun ch => ch ≠ '\r' ∧ ch ≠ '\n'
  | .keep => normalizeKeep text

def lenUtf16 (ch : Char) : ℕ := if ch.toNat ≤ 0xffff then 1 else 2

def size (text : List Char) : ℕ := measure Char.utf8Size text

def units (text : List Char) : ℕ := measure lenUtf16 text

def fromUtf16After (offset : ℕ) : ℕ → ℕ → List Char → ℕ
  | _, byte, [] => byte
  | units, byte, ch :: text =>
    if units ≥ offset then byte
    else fromUtf16After offset (units + lenUtf16 ch) (byte + ch.utf8Size) text

def fromUtf16 (text : List Char) (offset : ℕ) : ℕ := fromUtf16After offset 0 0 text

def toUtf16 (text : List Char) (offset : ℕ) : Option ℕ :=
  (cut Char.utf8Size text offset).map fun (front, _) => units front

def byteRange (text : List Char) (range : ℕ × ℕ) : ℕ × ℕ :=
  (fromUtf16 text (min range.1 range.2), fromUtf16 text (max range.1 range.2))

structure Editing where
  text : List Char
  anchor : ℕ
  cursor : ℕ
  marked : Option (ℕ × ℕ)

def blank : Editing := ⟨[], 0, 0, none⟩

structure Segmentation where
  indices : List Char → List ℕ
  boundary : ∀ text, ∀ i ∈ indices text, Boundary Char.utf8Size text i

def Segmentation.boundaryFrom (segmentation : Segmentation) (text : List Char) (offset : ℕ) : ℕ :=
  ((segmentation.indices text ++ [size text]).find? (offset ≤ ·)).getD (size text)

namespace Editing

def selection (editing : Editing) : ℕ × ℕ :=
  (min editing.anchor editing.cursor, max editing.anchor editing.cursor)

def selectTo (editing : Editing) (offset : ℕ) (extend : Bool) : Editing :=
  { editing with
    cursor := offset
    anchor := if extend then editing.anchor else offset }

def addressed (editing : Editing) (range : Option (ℕ × ℕ)) : ℕ × ℕ :=
  ((range.map (byteRange editing.text)).or editing.marked).getD editing.selection

def upto (text : List Char) (newlines : Newlines) (offset : ℕ) : Option ℕ :=
  (cut Char.utf8Size text (fromUtf16 text offset)).map fun (front, _) =>
    size (normalize front newlines)

def replace (segmentation : Segmentation) (editing : Editing) (range : Option (ℕ × ℕ))
    (text : List Char) (composing : Bool) (selection : Option (ℕ × ℕ)) (newlines : Newlines) :
    Option (Editing × Bool) := do
  let range := editing.addressed range
  let inserted := normalize text newlines
  let (front, middle, back) ← slice Char.utf8Size editing.text range.1 range.2
  let changed := decide (middle ≠ inserted)
  let replaced := front ++ inserted ++ back
  let marked := if composing ∧ inserted ≠ [] then some (range.1, range.1 + size inserted) else none
  let cursor := range.1 + size inserted
  let cursor := if composing then cursor else segmentation.boundaryFrom replaced cursor
  match composing, selection with
  | true, some selection =>
    let anchor ← upto text newlines selection.1
    let cursor ← upto text newlines selection.2
    return (⟨replaced, range.1 + anchor, range.1 + cursor, marked⟩, changed)
  | _, _ => return (⟨replaced, cursor, cursor, marked⟩, changed)

end Editing

inductive Act where
  | replace (range : Option (ℕ × ℕ)) (text : List Char) (composing : Bool)
    (selection : Option (ℕ × ℕ)) (newlines : Newlines)
  | selectTo (offset : ℕ) (extend : Bool)

inductive Step (segmentation : Segmentation) (editing : Editing) : Act → Editing → Prop where
  | replace {range : Option (ℕ × ℕ)} {text : List Char} {composing : Bool}
      {selection : Option (ℕ × ℕ)} {newlines : Newlines} {editing' : Editing} {changed : Bool} :
      editing.replace segmentation range text composing selection newlines =
        some (editing', changed) →
      Step segmentation editing (.replace range text composing selection newlines) editing'
  | selectTo {offset : ℕ} (extend : Bool) : Boundary Char.utf8Size editing.text offset →
      Step segmentation editing (.selectTo offset extend) (editing.selectTo offset extend)

lemma utf8_pos (ch : Char) : 0 < ch.utf8Size := Char.utf8Size_pos ch

lemma lenUtf16_pos (ch : Char) : 0 < lenUtf16 ch := by
  rw [lenUtf16]
  split <;> omega

lemma fromUtf16After_append {offset units' byte : ℕ} (front back : List Char)
    (h : ∀ front' ch back', front = front' ++ ch :: back' → units' + units front' < offset) :
    fromUtf16After offset units' byte (front ++ back) =
      fromUtf16After offset (units' + units front) (byte + size front) back := by
  induction front generalizing units' byte with
  | nil => rfl
  | cons ch front ih =>
    have hfirst : units' < offset := by simpa [units] using h [] ch front rfl
    rw [List.cons_append, fromUtf16After, if_neg (by omega), ih]
    · simp only [units, size, measure_cons, Nat.add_assoc]
    · intro front' ch' back' hsplit
      have hrest := h (ch :: front') ch' back' (by rw [hsplit]; rfl)
      simp only [units, measure_cons] at hrest ⊢
      omega

lemma units_lt {front front' back' : List Char} {ch : Char} (h : front = front' ++ ch :: back') :
    units front' < units front := by
  have hpos := lenUtf16_pos ch
  rw [h]
  simp only [units, measure_append, measure_cons]
  omega

lemma units_le_of_concat {front front' back' : List Char} {ch ch' : Char}
    (h : front ++ [ch] = front' ++ ch' :: back') : units front' ≤ units front := by
  induction back' using List.reverseRecOn with
  | nil =>
    obtain ⟨rfl, -⟩ := List.append_inj' h rfl
    exact le_rfl
  | append_singleton back' last =>
    rw [← List.cons_append, ← List.append_assoc] at h
    exact (units_lt (List.append_inj' h rfl).1).le

lemma fromUtf16_reached {front back : List Char} {offset : ℕ} (hreached : offset ≤ units front)
    (hbefore : ∀ front' ch back', front = front' ++ ch :: back' → units front' < offset) :
    fromUtf16 (front ++ back) offset = size front := by
  rw [fromUtf16, fromUtf16After_append front back fun front' ch back' h => by
    simpa using hbefore front' ch back' h]
  cases back with
  | nil => simp [fromUtf16After]
  | cons ch back => rw [fromUtf16After, if_pos (by omega), Nat.zero_add]

lemma fromUtf16_beyond {text : List Char} {offset : ℕ} (h : units text < offset) :
    fromUtf16 text offset = size text := by
  have hwhole : fromUtf16After offset 0 0 (text ++ []) =
      fromUtf16After offset (0 + units text) (0 + size text) [] := by
    refine fromUtf16After_append text [] fun front' ch back' hsplit => ?_
    have := units_lt hsplit
    omega
  rw [List.append_nil] at hwhole
  rw [fromUtf16, hwhole, fromUtf16After, Nat.zero_add]

lemma shortest_front (text : List Char) (offset : ℕ) : ∃ front back, text = front ++ back ∧
    (offset ≤ units front ∨ back = []) ∧
    ∀ front' ch back', front = front' ++ ch :: back' → units front' < offset := by
  induction text generalizing offset with
  | nil => exact ⟨[], [], rfl, .inr rfl, by simp⟩
  | cons ch text ih =>
    rcases Nat.eq_zero_or_pos offset with rfl | hpos
    · exact ⟨[], ch :: text, rfl, .inl (Nat.zero_le _), by simp⟩
    · obtain ⟨front, back, rfl, hreached, hbefore⟩ := ih (offset - lenUtf16 ch)
      refine ⟨ch :: front, back, rfl, ?_, ?_⟩
      · refine hreached.imp_left fun hle => ?_
        simp only [units, measure_cons] at hle ⊢
        omega
      · intro front' ch' back' hsplit
        rcases List.cons_eq_append_iff.mp hsplit with ⟨rfl, -⟩ | ⟨front'', rfl, hsplit⟩
        · exact hpos
        · have hlt := hbefore front'' ch' back' (List.cons.inj hsplit).2
          simp only [units, measure_cons] at hlt ⊢
          omega

lemma fromUtf16_front (text : List Char) (offset : ℕ) : ∃ front back, text = front ++ back ∧
    fromUtf16 text offset = size front ∧ (offset ≤ units front ∨ back = []) ∧
    ∀ front' ch back', front = front' ++ ch :: back' → units front' < offset := by
  obtain ⟨front, back, rfl, hreached, hbefore⟩ := shortest_front text offset
  refine ⟨front, back, rfl, ?_, hreached, hbefore⟩
  rcases Nat.lt_or_ge (units front) offset with hlt | hle
  · obtain rfl : back = [] := hreached.resolve_left (by omega)
    rw [List.append_nil]
    exact fromUtf16_beyond hlt
  · exact fromUtf16_reached hle hbefore

lemma fromUtf16_boundary (text : List Char) (offset : ℕ) :
    Boundary Char.utf8Size text (fromUtf16 text offset) := by
  obtain ⟨front, back, htext, hsize, -⟩ := fromUtf16_front text offset
  exact ⟨front, back, htext, hsize.symm⟩

lemma fromUtf16_mono (text : List Char) {offset offset' : ℕ} (h : offset ≤ offset') :
    fromUtf16 text offset ≤ fromUtf16 text offset' := by
  obtain ⟨front, back, rfl, hsize, -, hbefore⟩ := fromUtf16_front text offset
  obtain ⟨front', back', hsame, hsize', hreached, -⟩ := fromUtf16_front (front ++ back) offset'
  rw [hsize, hsize']
  rcases List.append_eq_append_iff.mp hsame with ⟨middle, rfl, -⟩ | ⟨middle, rfl, hback⟩
  · simp only [size, measure_append]
    omega
  · cases middle with
    | nil => simp
    | cons ch middle =>
      have hlt := hbefore front' ch middle rfl
      rcases hreached with hle | rfl
      · omega
      · simp at hback

lemma byteRange_boundary (text : List Char) (range : ℕ × ℕ) :
    Boundary Char.utf8Size text (byteRange text range).1 ∧
      Boundary Char.utf8Size text (byteRange text range).2 ∧
      (byteRange text range).1 ≤ (byteRange text range).2 :=
  ⟨fromUtf16_boundary _ _, fromUtf16_boundary _ _, fromUtf16_mono _ (min_le_max)⟩

lemma normalizeKeep_prefix (front back : List Char) :
    normalizeKeep front <+: normalizeKeep (front ++ back) := by
  fun_induction normalizeKeep front with
  | case1 => exact List.nil_prefix
  | case2 text ih => simpa [normalizeKeep] using ih
  | case3 text hnext ih =>
    cases text with
    | nil =>
      have hnil : normalizeKeep [] = [] := rfl
      rw [hnil]
      cases back with
      | nil => exact List.prefix_refl _
      | cons ch back =>
        by_cases hch : ch = '\n'
        · subst hch
          simp [normalizeKeep]
        · simp [normalizeKeep, hch]
    | cons ch text =>
      have hch : ch ≠ '\n' := fun hch => hnext text (by rw [hch])
      simp only [List.cons_append] at ih ⊢
      have hkeep (rest : List Char) :
          normalizeKeep ('\r' :: ch :: rest) = '\n' :: normalizeKeep (ch :: rest) := by
        simp [normalizeKeep, hch]
      rw [hkeep]
      exact List.cons_prefix_cons.mpr ⟨rfl, ih⟩
  | case4 ch text hpair hreturn ih =>
    have hkeep (rest : List Char) : normalizeKeep (ch :: rest) = ch :: normalizeKeep rest := by
      rw [normalizeKeep.eq_4]
      · intro rest' hch
        exact absurd hch hreturn
      · exact hreturn
    rw [List.cons_append, hkeep]
    exact List.cons_prefix_cons.mpr ⟨rfl, ih⟩

lemma normalize_prefix (front back : List Char) (newlines : Newlines) :
    normalize front newlines <+: normalize (front ++ back) newlines := by
  cases newlines with
  | strip =>
    simp only [normalize, List.filter_append]
    exact List.prefix_append _ _
  | keep => exact normalizeKeep_prefix front back

structure Kept (editing : Editing) : Prop where
  anchor : Boundary Char.utf8Size editing.text editing.anchor
  cursor : Boundary Char.utf8Size editing.text editing.cursor
  marked : ∀ range, editing.marked = some range →
    Boundary Char.utf8Size editing.text range.1 ∧
      Boundary Char.utf8Size editing.text range.2 ∧ range.1 ≤ range.2

lemma boundary_zero (text : List Char) : Boundary Char.utf8Size text 0 := ⟨[], text, rfl, rfl⟩

lemma blank_kept : Kept blank := ⟨boundary_zero _, boundary_zero _, by simp [blank]⟩

lemma selection_boundary {editing : Editing} (h : Kept editing) :
    Boundary Char.utf8Size editing.text editing.selection.1 ∧
      Boundary Char.utf8Size editing.text editing.selection.2 ∧
      editing.selection.1 ≤ editing.selection.2 := by
  have hanchor := h.anchor
  have hcursor := h.cursor
  simp only [Editing.selection]
  rcases le_total editing.anchor editing.cursor with hle | hle
  · rw [min_eq_left hle, max_eq_right hle]
    exact ⟨hanchor, hcursor, hle⟩
  · rw [min_eq_right hle, max_eq_left hle]
    exact ⟨hcursor, hanchor, hle⟩

lemma addressed_boundary {editing : Editing} (h : Kept editing) (range : Option (ℕ × ℕ)) :
    Boundary Char.utf8Size editing.text (editing.addressed range).1 ∧
      Boundary Char.utf8Size editing.text (editing.addressed range).2 ∧
      (editing.addressed range).1 ≤ (editing.addressed range).2 := by
  cases range with
  | some range => exact byteRange_boundary editing.text range
  | none =>
    cases hmarked : editing.marked with
    | some range =>
      simpa only [Editing.addressed, hmarked, Option.map_none, Option.none_or,
        Option.getD_some] using h.marked range hmarked
    | none =>
      simpa only [Editing.addressed, hmarked, Option.map_none, Option.none_or,
        Option.getD_none] using selection_boundary h

lemma boundaryFrom_boundary (segmentation : Segmentation) (text : List Char) (offset : ℕ) :
    Boundary Char.utf8Size text (segmentation.boundaryFrom text offset) := by
  have hsize : Boundary Char.utf8Size text (size text) := ⟨text, [], by simp, rfl⟩
  rw [Segmentation.boundaryFrom]
  cases hfind : (segmentation.indices text ++ [size text]).find? (offset ≤ ·) with
  | none => exact hsize
  | some i =>
    rcases List.mem_append.mp (List.mem_of_find?_eq_some hfind) with hi | hi
    · exact segmentation.boundary text i hi
    · rwa [List.mem_singleton.mp hi]

def Maps (front text : List Char) (newlines : Newlines) (offset position : ℕ) : Prop :=
  ∃ before after, text = before ++ after ∧ size before = fromUtf16 text offset ∧
    normalize before newlines <+: normalize text newlines ∧
    position = size (front ++ normalize before newlines)

lemma upto_maps (front text : List Char) (newlines : Newlines) (offset : ℕ) :
    ∃ length, Editing.upto text newlines offset = some length ∧
      Maps front text newlines offset (size front + length) := by
  obtain ⟨before, after, rfl, hsize, -⟩ := fromUtf16_front text offset
  refine ⟨size (normalize before newlines), ?_, before, after, rfl, hsize.symm,
    normalize_prefix before after newlines, ?_⟩
  · rw [Editing.upto, hsize, size, cut_append utf8_pos]
    rfl
  · simp [size]

lemma maps_boundary {front text back : List Char} {newlines : Newlines} {offset position : ℕ}
    (h : Maps front text newlines offset position) :
    Boundary Char.utf8Size (front ++ normalize text newlines ++ back) position := by
  obtain ⟨before, after, -, -, ⟨rest, hrest⟩, rfl⟩ := h
  exact ⟨front ++ normalize before newlines, rest ++ back, by simp [← hrest], rfl⟩

structure Replaced (editing : Editing) (range : Option (ℕ × ℕ)) (text : List Char)
    (composing : Bool) (selection : Option (ℕ × ℕ)) (newlines : Newlines) (editing' : Editing)
    (changed : Bool) (front middle back : List Char) : Prop where
  old : editing.text = front ++ middle ++ back
  addressed : (size front, size (front ++ middle)) = editing.addressed range
  new : editing'.text = front ++ normalize text newlines ++ back
  differs : changed = true ↔ middle ≠ normalize text newlines
  maps : composing = true → ∀ start stop, selection = some (start, stop) →
    Maps front text newlines start editing'.anchor ∧ Maps front text newlines stop editing'.cursor

lemma replace_spec (segmentation : Segmentation) {editing : Editing} (h : Kept editing)
    (range : Option (ℕ × ℕ)) (text : List Char) (composing : Bool) (selection : Option (ℕ × ℕ))
    (newlines : Newlines) : ∃ editing' changed front middle back,
      editing.replace segmentation range text composing selection newlines =
        some (editing', changed) ∧
      Replaced editing range text composing selection newlines editing' changed front middle back ∧
      Kept editing' := by
  obtain ⟨hstart, hstop, hle⟩ := addressed_boundary h range
  obtain ⟨front, middle, back, hslice⟩ := slice_isSome utf8_pos hstart hstop hle
  obtain ⟨hold, hfront, hmiddle⟩ := of_slice hslice
  have haddressed : (size front, size (front ++ middle)) = editing.addressed range :=
    Prod.ext hfront hmiddle
  have hinserted : Boundary Char.utf8Size (front ++ normalize text newlines ++ back)
      (size front + size (normalize text newlines)) :=
    ⟨front ++ normalize text newlines, back, rfl, by simp [size]⟩
  have hmarked : ∀ range, (if composing ∧ normalize text newlines ≠ [] then
      some (size front, size front + size (normalize text newlines)) else none) = some range →
      Boundary Char.utf8Size (front ++ normalize text newlines ++ back) range.1 ∧
        Boundary Char.utf8Size (front ++ normalize text newlines ++ back) range.2 ∧
        range.1 ≤ range.2 := by
    intro range hrange
    split at hrange
    · cases hrange
      exact ⟨⟨front, normalize text newlines ++ back, by simp, rfl⟩, hinserted, Nat.le_add_right _ _⟩
    · cases hrange
  have hcursor : Boundary Char.utf8Size (front ++ normalize text newlines ++ back)
      (if composing then size front + size (normalize text newlines)
      else segmentation.boundaryFrom (front ++ normalize text newlines ++ back)
        (size front + size (normalize text newlines))) := by
    split
    · exact hinserted
    · exact boundaryFrom_boundary _ _ _
  have hrange : (editing.addressed range).1 = size front := hfront.symm
  rw [hrange] at hslice
  simp only [Editing.replace, hrange, hslice, Option.bind_eq_bind, Option.bind_some]
  generalize (if composing = true ∧ normalize text newlines ≠ [] then
    some (size front, size front + size (normalize text newlines)) else none) = marked at hmarked ⊢
  generalize (if composing = true then size front + size (normalize text newlines)
    else segmentation.boundaryFrom (front ++ normalize text newlines ++ back)
      (size front + size (normalize text newlines))) = caret at hcursor ⊢
  split
  · rename_i selection
    obtain ⟨anchor, hanchor, hstartMaps⟩ := upto_maps front text newlines selection.1
    obtain ⟨cursor, hstopCursor, hstopMaps⟩ := upto_maps front text newlines selection.2
    rw [hanchor, hstopCursor]
    refine ⟨_, _, front, middle, back, rfl, ⟨hold, haddressed, rfl, decide_eq_true_iff, ?_⟩,
      maps_boundary hstartMaps, maps_boundary hstopMaps, hmarked⟩
    rintro - _ _ hselection
    cases hselection
    exact ⟨hstartMaps, hstopMaps⟩
  · rename_i hnone
    refine ⟨_, _, front, middle, back, rfl, ⟨hold, haddressed, rfl, decide_eq_true_iff, ?_⟩,
      hcursor, hcursor, hmarked⟩
    intro hcomposing start stop hselection
    exact absurd hselection (hnone (start, stop) hcomposing)

lemma selectTo_kept {editing : Editing} (h : Kept editing) {offset : ℕ} (extend : Bool)
    (hoffset : Boundary Char.utf8Size editing.text offset) :
    Kept (editing.selectTo offset extend) := by
  refine ⟨?_, hoffset, h.marked⟩
  cases extend with
  | true => exact h.anchor
  | false => exact hoffset

lemma step_kept {segmentation : Segmentation} {editing editing' : Editing} {act : Act}
    (h : Kept editing) (hstep : Step segmentation editing act editing') : Kept editing' := by
  cases hstep with
  | @replace range text composing selection newlines _ changed hreplace =>
    obtain ⟨_, _, _, _, _, hspec, -, hkept⟩ :=
      replace_spec segmentation h range text composing selection newlines
    obtain ⟨rfl, -⟩ := Prod.mk.inj (Option.some.inj (hreplace.symm.trans hspec))
    exact hkept
  | selectTo extend hoffset => exact selectTo_kept h extend hoffset

def letters : Segmentation where
  indices text := (List.range text.length).map fun i => size (text.take i)
  boundary := by
    intro text i hi
    obtain ⟨k, -, rfl⟩ := List.mem_map.mp hi
    exact ⟨text.take k, text.drop k, (List.take_append_drop k text).symm, rfl⟩

end Sheprd.Desktop.TextEditing
