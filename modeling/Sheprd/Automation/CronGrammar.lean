import Mathlib
import Sheprd.Automation.CronExpression
import Sheprd.Lib.Fold

namespace Sheprd.Automation

open Sheprd.Lib

inductive Span where
  | all
  | one (value : ℕ)
  | range (first last : ℕ)

structure Item where
  span : Span
  step : Option ℕ

def decimalOf (digits : Chars) : ℕ := digits.foldl (fun n c => n * 10 + (c.toNat - '0'.toNat)) 0

def Numeral (plus : Bool) (text : Chars) (n : ℕ) : Prop :=
  ∃ digits, digits ≠ [] ∧ (∀ c ∈ digits, c.isDigit = true) ∧ n = decimalOf digits ∧
    (text = digits ∨ plus = true ∧ text = '+' :: digits)

namespace CronField

variable (field : CronField) (plus : Bool)

def Says (text : Chars) (n : ℕ) : Prop :=
  Numeral plus text n ∨
    ∃ index, field.names[index]? = some (text.map Char.toLower) ∧ n = index + field.min

inductive SpanText : Span → Chars → Prop
  | all : SpanText .all ['*']
  | one {text : Chars} {n : ℕ} (value : field.Says plus text n) : SpanText (.one n) text
  | range {front back : Chars} {first last : ℕ} (begins : field.Says plus front first)
      (ends : field.Says plus back last) : SpanText (.range first last) (front ++ '-' :: back)

inductive ItemText : Item → Chars → Prop
  | plain {span : Span} {text : Chars} (spells : field.SpanText plus span text) :
      ItemText ⟨span, none⟩ text
  | step {span : Span} {range text : Chars} {n : ℕ} (spells : field.SpanText plus span range)
      (number : Numeral plus text n) : ItemText ⟨span, some n⟩ (range ++ '/' :: text)

end CronField

namespace Span

def Fits (field : CronField) : Span → Prop
  | all => True
  | one n => field.min ≤ n ∧ n ≤ field.max
  | range first last => field.min ≤ first ∧ first ≤ last ∧ last ≤ field.max

def first (field : CronField) : Span → ℕ
  | all => field.min
  | one n => n
  | range first _ => first

def last (field : CronField) : Span → ℕ
  | all => field.max
  | one _ => field.max
  | range _ last => last

end Span

namespace Item

def Fits (field : CronField) (item : Item) : Prop :=
  item.span.Fits field ∧ ∀ step ∈ item.step, 1 ≤ step

def Reads (field : CronField) (item : Item) (v : ℕ) : Prop :=
  match item with
  | ⟨.one n, none⟩ => v = n
  | ⟨span, step⟩ => ∃ k, v = span.first field + k * step.getD 1 ∧ v ≤ span.last field

def Taken (field : CronField) (item : Item) (v : ℕ) : Prop :=
  match item with
  | ⟨.one n, some 1⟩ => v = n
  | item => item.Reads field v

end Item

namespace CronField

variable (field : CronField) (plus : Bool)

def ListText (items : List Item) (text : Chars) : Prop :=
  ∃ texts, texts ≠ [] ∧ text = [','].intercalate texts ∧
    List.Forall₂ (fun item text => field.ItemText plus item text ∧ item.Fits field) items texts

def Denotes (items : List Item) (v : ℕ) : Prop := ∃ item ∈ items, item.Reads field v

structure Named : Prop where
  letters : ∀ name ∈ field.names, name ≠ [] ∧ ∀ c ∈ name, c.isLower = true
  distinct : field.names.Nodup
  bounded : field.max < 64
  named : field.names.length + field.min ≤ 64

end CronField

lemma named_minute : CronField.minute.Named := ⟨nofun, .nil, by decide, by decide⟩
lemma named_hour : CronField.hour.Named := ⟨nofun, .nil, by decide, by decide⟩
lemma named_day : CronField.day.Named := ⟨nofun, .nil, by decide, by decide⟩

lemma named_month : CronField.month.Named :=
  ⟨by simp [CronField.month, monthNames, Char.isLower], by simp [CronField.month, monthNames],
    by decide, by decide⟩

lemma named_weekday : CronField.weekday.Named :=
  ⟨by simp [CronField.weekday, weekdayNames, Char.isLower],
    by simp [CronField.weekday, weekdayNames], by decide, by decide⟩

def isMark (c : Char) : Bool := c = ',' || c = '/' || c = '-' || c = '*'

section Values

variable {field : CronField} {plus : Bool} {text : Chars} {n : ℕ}

lemma unsigned_cases (text : Chars) : text = '+' :: unsigned text ∨ unsigned text = text := by
  rw [unsigned.eq_def]
  split
  · exact Or.inl rfl
  · exact Or.inr rfl

lemma Numeral.chars (h : Numeral plus text n) :
    text ≠ [] ∧ ∀ c ∈ text, c = '+' ∨ c.isDigit = true := by
  obtain ⟨digits, hne, hall, -, rfl | ⟨-, rfl⟩⟩ := h
  · exact ⟨hne, fun c hm => Or.inr (hall c hm)⟩
  · refine ⟨List.cons_ne_nil _ _, fun c hm => ?_⟩
    exact (List.mem_cons.mp hm).imp id fun hm => hall c hm

lemma numeral_eq_some : numeral text = some n ↔ Numeral true text n := by
  rw [numeral, Option.ite_none_left_eq_some, not_or, not_not, List.all_eq_true, Option.some.injEq]
  constructor
  · rintro ⟨⟨hne, hall⟩, rfl⟩
    exact ⟨unsigned text, hne, hall, rfl, (unsigned_cases text).symm.imp Eq.symm fun h => ⟨rfl, h⟩⟩
  · rintro ⟨digits, hne, hall, rfl, rfl | ⟨-, rfl⟩⟩
    · have hsame : unsigned text = text := by
        rcases unsigned_cases text with heq | heq
        · rw [heq] at hall
          exact absurd (hall '+' List.mem_cons_self) (by decide)
        · exact heq
      rw [hsame]
      exact ⟨⟨hne, hall⟩, rfl⟩
    · exact ⟨⟨hne, hall⟩, rfl⟩

lemma Numeral.read (h : Numeral plus text n) : numeral text = some n := by
  obtain ⟨digits, hne, hall, hn, htext⟩ := h
  exact numeral_eq_some.mpr ⟨digits, hne, hall, hn, htext.imp_right fun ⟨_, h⟩ => ⟨rfl, h⟩⟩

lemma Numeral.unsigned (h : Numeral true text n) (hplus : '+' ∉ text) : Numeral false text n := by
  obtain ⟨digits, hne, hall, hn, rfl | ⟨-, rfl⟩⟩ := h
  · exact ⟨text, hne, hall, hn, Or.inl rfl⟩
  · exact absurd List.mem_cons_self hplus

lemma Numeral.no_plus (h : Numeral false text n) : '+' ∉ text := by
  obtain ⟨digits, -, hall, -, rfl | ⟨⟨⟩, -⟩⟩ := h
  exact fun hm => absurd (hall '+' hm) (by decide)

lemma mark_cases {c : Char} (h : isMark c = true) : c = ',' ∨ c = '/' ∨ c = '-' ∨ c = '*' := by
  simpa [isMark, or_assoc] using h

lemma not_mark_of_number {c : Char} (h : c = '+' ∨ c.isDigit = true) : isMark c = false := by
  refine Bool.eq_false_iff.mpr fun hmark => ?_
  rcases mark_cases hmark with rfl | rfl | rfl | rfl <;> exact absurd h (by decide)

lemma not_mark_of_letter {c : Char} (h : c.toLower.isLower = true) : isMark c = false := by
  refine Bool.eq_false_iff.mpr fun hmark => ?_
  rcases mark_cases hmark with rfl | rfl | rfl | rfl <;> exact absurd h (by decide)

lemma not_number_of_letter {c : Char} (h : c.toLower.isLower = true) :
    ¬(c = '+' ∨ c.isDigit = true) := by
  rintro (rfl | hdigit)
  · exact absurd h (by decide)
  · simp only [Char.isDigit, Bool.and_eq_true, decide_eq_true_eq] at hdigit
    have hsame : c.toLower = c :=
      dif_neg fun hupper => absurd (UInt32.le_trans hupper.1 hdigit.2) (by decide)
    rw [hsame] at h
    simp only [Char.isLower, Bool.and_eq_true, decide_eq_true_eq] at h
    exact absurd (UInt32.le_trans h.1 hdigit.2) (by decide)

lemma parseU8_eq_some : parseU8 text = some n ↔ numeral text = some n ∧ n < 256 := by
  rw [parseU8, Option.filter_eq_some_iff, decide_eq_true_eq]

namespace CronField

lemma Named.letters_of_name (hn : field.Named) {index : ℕ}
    (h : field.names[index]? = some (text.map Char.toLower)) :
    text ≠ [] ∧ ∀ c ∈ text, c.toLower.isLower = true := by
  obtain ⟨hne, hletters⟩ := hn.letters _ (List.mem_of_getElem? h)
  refine ⟨fun hnil => hne (by rw [hnil]; rfl), fun c hm => ?_⟩
  exact hletters _ (List.mem_map_of_mem hm)

lemma Says.chars (hn : field.Named) (h : field.Says plus text n) :
    text ≠ [] ∧ ∀ c ∈ text, isMark c = false := by
  rcases h with h | ⟨index, h, -⟩
  · obtain ⟨hne, hchars⟩ := h.chars
    exact ⟨hne, fun c hm => not_mark_of_number (hchars c hm)⟩
  · obtain ⟨hne, hletters⟩ := hn.letters_of_name h
    exact ⟨hne, fun c hm => not_mark_of_letter (hletters c hm)⟩

lemma Named.findIdx (hn : field.Named) {index : ℕ}
    (h : field.names[index]? = some (text.map Char.toLower)) :
    (field.names.findIdx? fun name => decide (name = text.map Char.toLower)) = some index := by
  obtain ⟨hlt, hget⟩ := List.getElem?_eq_some_iff.mp h
  refine List.findIdx?_eq_some_iff_getElem.mpr ⟨hlt, decide_eq_true hget, fun j hj => ?_⟩
  rw [decide_eq_true_eq, ← hget]
  exact fun heq => (Nat.ne_of_lt hj) ((hn.distinct.getElem_inj_iff).mp heq)

lemma value_eq (hn : field.Named) (h : field.Says plus text n) (hsmall : n < 256) :
    field.value text = .ok n := by
  rcases h with h | ⟨index, h, rfl⟩
  · rw [value, parseU8_eq_some.mpr ⟨h.read, hsmall⟩]
  · have hnone : parseU8 text = none := by
      cases heq : parseU8 text with
      | none => rfl
      | some number =>
        obtain ⟨hne, hletters⟩ := hn.letters_of_name h
        obtain ⟨c, hm⟩ := List.exists_mem_of_ne_nil text hne
        obtain ⟨-, hchars⟩ := (numeral_eq_some.mp (parseU8_eq_some.mp heq).1).chars
        exact absurd (hchars c hm) (not_number_of_letter (hletters c hm))
    rw [value, hnone, hn.findIdx h]

lemma says_of_value (h : field.value text = .ok n) : field.Says true text n := by
  rw [value] at h
  split at h
  · rename_i number hnumber
    rw [← Except.ok.inj h]
    exact Or.inl (numeral_eq_some.mp (parseU8_eq_some.mp hnumber).1)
  · split at h
    · rename_i index hindex
      obtain ⟨hlt, hname, -⟩ := List.findIdx?_eq_some_iff_getElem.mp hindex
      refine Or.inr ⟨index, ?_, (Except.ok.inj h).symm⟩
      rw [List.getElem?_eq_getElem hlt, of_decide_eq_true hname]
    · cases h

def lastOf (field : CronField) (step : ℕ) : Span → ℕ
  | .all => field.max
  | .one n => if 1 < step then field.max else n
  | .range _ last => last

variable {span : Span} {range : Chars} {step : ℕ}

lemma SpanText.chars (hn : field.Named) (h : field.SpanText plus span range) :
    ∀ c ∈ range, c ≠ ',' ∧ c ≠ '/' := by
  have hmark : ∀ c : Char, isMark c = false → c ≠ ',' ∧ c ≠ '/' := by
    intro c hc
    constructor <;> rintro rfl <;> exact absurd hc (by decide)
  cases h with
  | all => exact fun c hm => List.mem_singleton.mp hm ▸ (by decide)
  | one value => exact fun c hm => hmark c ((value.chars hn).2 c hm)
  | range begins ends =>
    intro c hm
    rcases List.mem_append.mp hm with hm | hm
    · exact hmark c ((begins.chars hn).2 c hm)
    · rcases List.mem_cons.mp hm with rfl | hm
      · decide
      · exact hmark c ((ends.chars hn).2 c hm)

lemma ends_eq (hn : field.Named) (h : field.SpanText plus span range) (hfits : span.Fits field)
    (step : ℕ) : field.ends range step = .ok (span.first field, field.lastOf step span) := by
  have hmax := hn.bounded
  have hdash : ∀ {text : Chars} {n : ℕ}, field.Says plus text n → '-' ∉ text ∧ text ≠ ['*'] := by
    intro text n hvalue
    constructor
    · exact fun hm => absurd ((hvalue.chars hn).2 _ hm) (by decide)
    · rintro rfl
      exact absurd ((hvalue.chars hn).2 _ (List.mem_singleton_self _)) (by decide)
  cases h with
  | all => rw [ends, if_pos rfl]; rfl
  | one value =>
    obtain ⟨hnone, hstar⟩ := hdash value
    have hvalue := value_eq hn value (by have := hfits.2; omega)
    rw [ends, if_neg hstar, Text.splitOnce_eq_none hnone]
    simp only [hvalue]
    rfl
  | range begins ends =>
    obtain ⟨hnone, -⟩ := hdash begins
    have hstar : ∀ front back : Chars, front ≠ [] → front ++ '-' :: back ≠ ['*'] := by
      intro front back hne heq
      cases front with
      | nil => exact hne rfl
      | cons c front => simp at heq
    obtain ⟨-, hle, hlast⟩ := hfits
    have hfirst := value_eq hn begins (by omega)
    have hsecond := value_eq hn ends (by omega)
    rw [CronField.ends, if_neg (hstar _ _ (begins.chars hn).1), Text.splitOnce_append hnone]
    simp only [hfirst, hsecond]
    rfl

lemma spanText_of_ends {first last : ℕ} (h : field.ends range step = .ok (first, last)) :
    ∃ span, field.SpanText true span range ∧ first = span.first field ∧ last = field.lastOf step span := by
  rw [ends] at h
  split at h
  · rename_i hstar
    obtain ⟨rfl, rfl⟩ := Prod.mk.inj (Except.ok.inj h)
    exact ⟨.all, hstar ▸ .all, rfl, rfl⟩
  · split at h
    · rename_i front back hsplit
      cases hfront : field.value front with
      | error error =>
        rw [hfront] at h
        cases h
      | ok first' =>
        cases hback : field.value back with
        | error error =>
          rw [hfront, hback] at h
          cases h
        | ok last' =>
          rw [hfront, hback] at h
          obtain ⟨rfl, rfl⟩ := Prod.mk.inj (Except.ok.inj h)
          refine ⟨.range first' last', ?_, rfl, rfl⟩
          rw [Text.splitOnce_eq_some hsplit]
          exact .range (says_of_value hfront) (says_of_value hback)
    · cases hfront : field.value range with
      | error error =>
        rw [hfront] at h
        cases h
      | ok first' =>
        rw [hfront] at h
        obtain ⟨rfl, rfl⟩ := Prod.mk.inj (Except.ok.inj h)
        exact ⟨.one first', .one (says_of_value hfront), rfl, rfl⟩

lemma splitStep_plain (h : '/' ∉ range) : splitStep range = .ok (range, 1) := by
  rw [splitStep, Text.splitOnce_eq_none h]

lemma splitStep_step (h : '/' ∉ range) (hnumber : Numeral plus text step) (hpos : 1 ≤ step) :
    splitStep (range ++ '/' :: text) =
      if step < 256 then .ok (range, step) else .error .stepNumber := by
  rw [splitStep, Text.splitOnce_append h]
  by_cases hsmall : step < 256
  · obtain ⟨k, rfl⟩ := Nat.exists_eq_add_of_le' hpos
    simp only [parseU8_eq_some.mpr ⟨hnumber.read, hsmall⟩, if_pos hsmall]
  · have hnone : parseU8 text = none := by
      cases heq : parseU8 text with
      | none => rfl
      | some number =>
        obtain ⟨hnumber', hlt⟩ := parseU8_eq_some.mp heq
        exact absurd (Option.some.inj (hnumber.read.symm.trans hnumber') ▸ hlt) hsmall
    simp only [hnone, if_neg hsmall]

lemma of_splitStep (h : splitStep text = .ok (range, step)) : (text = range ∧ step = 1) ∨
    ∃ number, text = range ++ '/' :: number ∧ Numeral true number step ∧ 1 ≤ step ∧ step < 256 := by
  rw [splitStep] at h
  split at h
  · rename_i range' number hsplit
    split at h
    · cases h
    · cases h
    · rename_i step' hpos hnumber
      obtain ⟨rfl, rfl⟩ := Prod.mk.inj (Except.ok.inj h)
      obtain ⟨hnumber, hsmall⟩ := parseU8_eq_some.mp hnumber
      exact Or.inr ⟨number, Text.splitOnce_eq_some hsplit, numeral_eq_some.mp hnumber,
        Nat.pos_of_ne_zero fun hzero => hpos hzero, hsmall⟩
  · obtain ⟨rfl, rfl⟩ := Prod.mk.inj (Except.ok.inj h)
    exact Or.inl ⟨rfl, rfl⟩

end CronField

def Item.Small (item : Item) : Prop := ∀ step ∈ item.step, step < 256

namespace Item

lemma taken_iff {item : Item} (hpos : ∀ step ∈ item.step, 1 ≤ step) (v : ℕ) :
    item.Taken field v ↔ ∃ k, v = item.span.first field + k * item.step.getD 1 ∧
      v ≤ field.lastOf (item.step.getD 1) item.span := by
  have hone : ∀ n, v = n ↔ ∃ k, v = n + k * 1 ∧ v ≤ n := by
    intro n
    constructor
    · rintro rfl
      exact ⟨0, by simp, le_rfl⟩
    · rintro ⟨k, hv, hle⟩
      omega
  obtain ⟨span, step⟩ := item
  cases span with
  | all => cases step <;> exact Iff.rfl
  | range first last => cases step <;> exact Iff.rfl
  | one n =>
    cases step with
    | none => exact hone n
    | some step =>
      by_cases hstep : step = 1
      · subst hstep
        exact hone n
      · have hlarge : 1 < step := lt_of_le_of_ne (hpos step rfl) (Ne.symm hstep)
        have htaken : Item.Taken field ⟨.one n, some step⟩ v ↔
            ∃ k, v = n + k * step ∧ v ≤ field.max := by
          rw [Item.Taken.eq_def]
          split
          · rename_i heq
            exact absurd (Option.some.inj (Item.mk.inj heq).2) hstep
          · exact Iff.rfl
        rw [htaken, CronField.lastOf, Option.getD_some, if_pos hlarge]
        rfl

lemma Taken.reads {item : Item} {v : ℕ} (hfits : item.Fits field) (h : item.Taken field v) :
    item.Reads field v := by
  rw [Item.Taken.eq_def] at h
  split at h
  · exact ⟨0, by simpa [Span.first] using h, h.trans_le hfits.1.2⟩
  · exact h

end Item

namespace CronField

variable {item : Item}

lemma mem_bits {first last step v : ℕ} (hpos : 1 ≤ step) (hle : first ≤ last) :
    v ∈ List.range' first ((last - first) / step + 1) step ↔
      ∃ k, v = first + k * step ∧ v ≤ last := by
  rw [List.mem_range']
  constructor
  · rintro ⟨k, hk, rfl⟩
    have hmul := (Nat.le_div_iff_mul_le hpos).mp (Nat.le_of_lt_succ hk)
    exact ⟨k, by rw [Nat.mul_comm], by rw [Nat.mul_comm]; omega⟩
  · rintro ⟨k, rfl, hlast⟩
    refine ⟨k, Nat.lt_succ_of_le ((Nat.le_div_iff_mul_le hpos).mpr (by omega)), by rw [Nat.mul_comm]⟩

lemma fits_bounds {span : Span} (hbounds : field.min ≤ field.max) (h : span.Fits field) (step : ℕ) :
    field.min ≤ span.first field ∧ span.first field ≤ field.lastOf step span ∧
      field.lastOf step span ≤ field.max := by
  cases span with
  | all => exact ⟨le_rfl, hbounds, le_rfl⟩
  | range first last => exact h
  | one n =>
    refine ⟨h.1, ?_⟩
    rw [lastOf]
    split
    · exact ⟨h.2, le_rfl⟩
    · exact ⟨le_rfl, h.2⟩

lemma part_eq (hn : field.Named) (hbounds : field.min ≤ field.max) (h : field.ItemText plus item text)
    (hfits : item.Fits field) :
    (¬item.Small ∧ ∃ error, field.part text = .error error) ∨
      item.Small ∧ ∃ bits, field.part text = .ok bits ∧ ∀ v, v ∈ bits ↔ item.Taken field v := by
  have hpart : ∀ {range text : Chars} {span : Span} {step : ℕ}, field.SpanText plus span range →
      span.Fits field → 1 ≤ step → splitStep text = .ok (range, step) →
        ∃ bits, field.part text = .ok bits ∧ ∀ v, v ∈ bits ↔
          ∃ k, v = span.first field + k * step ∧ v ≤ field.lastOf step span := by
    intro range text span step hspan hfits hpos hsplit
    obtain ⟨hfirst, hle, hlast⟩ := fits_bounds hbounds hfits step
    refine ⟨_, ?_, fun v => mem_bits hpos hle⟩
    have hends := ends_eq hn hspan hfits step
    simp only [part, hsplit, hends, bind, Except.bind]
    exact if_neg (by omega)
  cases h with
  | plain spells =>
    have hslash : '/' ∉ text := fun hm => (spells.chars hn _ hm).2 rfl
    obtain ⟨bits, hbits, hmem⟩ := hpart spells hfits.1 le_rfl (splitStep_plain hslash)
    exact Or.inr ⟨by rintro _ ⟨⟩, bits, hbits, fun v => (hmem v).trans (Item.taken_iff hfits.2 v).symm⟩
  | @step span range number n spells hnumber =>
    have hslash : '/' ∉ range := fun hm => (spells.chars hn _ hm).2 rfl
    have hpos := hfits.2 n rfl
    have hsplit := splitStep_step hslash hnumber hpos
    by_cases hsmall : n < 256
    · rw [if_pos hsmall] at hsplit
      obtain ⟨bits, hbits, hmem⟩ := hpart spells hfits.1 hpos hsplit
      refine Or.inr ⟨fun step hstep => Option.some.inj hstep ▸ hsmall, bits, hbits, fun v => ?_⟩
      exact (hmem v).trans (Item.taken_iff hfits.2 v).symm
    · rw [if_neg hsmall] at hsplit
      refine Or.inl ⟨fun h => hsmall (h n rfl), .stepNumber, ?_⟩
      rw [part, hsplit]
      rfl

lemma itemText_of_part {bits : List ℕ} (h : field.part text = .ok bits) :
    ∃ item, field.ItemText true item text ∧ item.Fits field ∧ item.Small := by
  rw [part] at h
  cases hsplit : splitStep text with
  | error error =>
    rw [hsplit] at h
    cases h
  | ok found =>
    obtain ⟨range, step⟩ := found
    rw [hsplit] at h
    cases hends : field.ends range step with
    | error error =>
      simp only [bind, Except.bind, hends] at h
      cases h
    | ok both =>
      obtain ⟨first, last⟩ := both
      simp only [bind, Except.bind, hends] at h
      obtain ⟨hout, -⟩ : ¬(first < field.min ∨ field.max < last ∨ last < first) ∧ True := by
        refine ⟨fun hout => ?_, trivial⟩
        rw [if_pos hout] at h
        cases h
      obtain ⟨span, hspan, rfl, rfl⟩ := spanText_of_ends hends
      have hfits : span.Fits field := by
        cases span with
        | all => trivial
        | range first last =>
          simp only [Span.first, lastOf] at hout
          exact ⟨by omega, by omega, by omega⟩
        | one n =>
          simp only [Span.first, lastOf] at hout
          refine ⟨by omega, ?_⟩
          split at hout <;> omega
      rcases of_splitStep hsplit with ⟨rfl, rfl⟩ | ⟨number, rfl, hnumber, hpos, hsmall⟩
      · exact ⟨⟨span, none⟩, .plain hspan, ⟨hfits, nofun⟩, nofun⟩
      · refine ⟨⟨span, some step⟩, .step hspan hnumber, ⟨hfits, ?_⟩, ?_⟩
        · exact fun other hother => Option.some.inj hother ▸ hpos
        · exact fun other hother => Option.some.inj hother ▸ hsmall

lemma ItemText.no_comma (hn : field.Named) (h : field.ItemText plus item text) : ',' ∉ text := by
  cases h with
  | plain spells => exact fun hm => (spells.chars hn _ hm).1 rfl
  | step spells number =>
    intro hm
    rcases List.mem_append.mp hm with hm | hm
    · exact (spells.chars hn _ hm).1 rfl
    · rcases List.mem_cons.mp hm with hcomma | hm
      · cases hcomma
      · exact absurd (not_mark_of_number (number.chars.2 _ hm)) (by decide)

lemma foldl_bits (bits : List ℕ) (set v : ℕ) :
    (bits.foldl (fun set bit => set ||| 1 <<< bit) set).testBit v = true ↔
      set.testBit v = true ∨ v ∈ bits := by
  induction bits generalizing set with
  | nil => simp
  | cons bit bits ih =>
    rw [List.foldl_cons, ih, Nat.testBit_or, Bool.or_eq_true, Nat.one_shiftLeft, Nat.testBit_two_pow,
      decide_eq_true_eq, List.mem_cons, eq_comm (a := v), or_assoc]

variable {items : List Item} {texts : List Chars}

def add (field : CronField) (set : ℕ) (text : Chars) : Except CronError ℕ := do
  let bits ← field.part text
  return bits.foldl (fun set bit => set ||| 1 <<< bit) set

lemma add_eq_ok {set set' : ℕ} : field.add set text = .ok set' ↔
    ∃ bits, field.part text = .ok bits ∧
      bits.foldl (fun set bit => set ||| 1 <<< bit) set = set' := by
  rw [add]
  cases field.part text with
  | error error => exact ⟨nofun, nofun⟩
  | ok bits =>
    constructor
    · exact fun h => ⟨bits, rfl, Except.ok.inj h⟩
    · rintro ⟨_, hbits, hset⟩
      obtain rfl := Except.ok.inj hbits
      exact congrArg Except.ok hset

lemma foldlM_parts (hn : field.Named) (hbounds : field.min ≤ field.max)
    (h : List.Forall₂ (fun item text => field.ItemText plus item text ∧ item.Fits field) items texts)
    (set : ℕ) :
    ((∃ item ∈ items, ¬item.Small) ∧ ∃ error, texts.foldlM field.add set = .error error) ∨
      (∀ item ∈ items, item.Small) ∧ ∃ set', texts.foldlM field.add set = .ok set' ∧
        ∀ v, set'.testBit v = true ↔
          set.testBit v = true ∨ ∃ item ∈ items, item.Taken field v := by
  induction h generalizing set with
  | nil => exact Or.inr ⟨nofun, set, rfl, fun v => by simp⟩
  | @cons item text items texts hitem _ ih =>
    rcases part_eq hn hbounds hitem.1 hitem.2 with ⟨hlarge, error, herror⟩ | ⟨hsmall, bits, hbits, hmem⟩
    · refine Or.inl ⟨⟨item, List.mem_cons_self, hlarge⟩, error, ?_⟩
      rw [List.foldlM_cons, add, herror]
      rfl
    · have hadd : field.add set text = .ok (bits.foldl (fun set bit => set ||| 1 <<< bit) set) :=
        add_eq_ok.mpr ⟨bits, hbits, rfl⟩
      have hcons : ∀ set', field.add set text = .ok set' →
          (text :: texts).foldlM field.add set = texts.foldlM field.add set' := by
        intro set' hset
        rw [List.foldlM_cons, hset]
        rfl
      rw [hcons _ hadd]
      rcases ih (bits.foldl (fun set bit => set ||| 1 <<< bit) set) with
        ⟨⟨other, hm, hlarge⟩, herror⟩ | ⟨hall, set', hset, hbit⟩
      · exact Or.inl ⟨⟨other, List.mem_cons_of_mem _ hm, hlarge⟩, herror⟩
      · refine Or.inr ⟨List.forall_mem_cons.mpr ⟨hsmall, hall⟩, set', hset, fun v => ?_⟩
        rw [hbit, foldl_bits, hmem, or_assoc]
        simp only [List.mem_cons, exists_eq_or_imp]

lemma set_eq (hn : field.Named) (hbounds : field.min ≤ field.max) (h : field.ListText plus items text) :
    ((∃ item ∈ items, ¬item.Small) ∧ ∃ error, field.set text = .error error) ∨
      (∀ item ∈ items, item.Small) ∧ ∃ set, field.set text = .ok set ∧
        ∀ v, set.testBit v = true ↔ ∃ item ∈ items, item.Taken field v := by
  obtain ⟨texts, hne, rfl, hall⟩ := h
  have hcomma : ∀ text ∈ texts, ',' ∉ text := by
    intro text hm
    obtain ⟨item, -, hitem⟩ := exists_of_forall₂ hall hm
    exact hitem.1.no_comma hn
  have hsplit : field.set ([','].intercalate texts) = texts.foldlM field.add 0 := by
    rw [set, List.splitOn_intercalate ',' hcomma hne]
    rfl
  rw [hsplit]
  refine (foldlM_parts hn hbounds hall 0).imp_right fun ⟨hsmall, set, hset, hbit⟩ => ?_
  exact ⟨hsmall, set, hset, fun v => (hbit v).trans (by simp)⟩

lemma listText_of_set {set : ℕ} (h : field.set text = .ok set) :
    ∃ items, field.ListText true items text := by
  have hparts : ∀ (texts : List Chars) (start set : ℕ), texts.foldlM field.add start = .ok set →
      ∃ items, List.Forall₂ (fun item text => field.ItemText true item text ∧ item.Fits field) items texts := by
    intro texts
    induction texts with
    | nil => exact fun _ _ _ => ⟨[], .nil⟩
    | cons text texts ih =>
      intro start set h
      rw [List.foldlM_cons] at h
      cases hadd : field.add start text with
      | error error =>
        rw [hadd] at h
        cases h
      | ok next =>
        rw [hadd] at h
        obtain ⟨bits, hbits, -⟩ := add_eq_ok.mp hadd
        obtain ⟨item, hitem, hfits, -⟩ := itemText_of_part hbits
        obtain ⟨items, hitems⟩ := ih next set h
        exact ⟨item :: items, .cons ⟨hitem, hfits⟩ hitems⟩
  obtain ⟨items, hitems⟩ := hparts _ 0 set h
  exact ⟨items, text.splitOn ',', List.splitOn_ne_nil _ _, (List.intercalate_splitOn ',').symm, hitems⟩

lemma ItemText.star (hn : field.Named) (h : field.ItemText plus item ['*']) : item = ⟨.all, none⟩ := by
  have hvalue : ∀ {text : Chars} {n : ℕ}, field.Says plus text n → '*' ∉ text := fun h hm =>
    absurd ((h.chars hn).2 _ hm) (by decide)
  generalize hstar : ['*'] = text at h
  cases h with
  | plain spells =>
    cases spells with
    | all => rfl
    | one value => exact absurd (hstar ▸ List.mem_singleton_self _) (hvalue value)
    | @range front back first last begins ends =>
      cases front with
      | nil => cases hstar
      | cons c front => simp at hstar
  | @step span range number n spells _ =>
    cases range with
    | nil => cases hstar
    | cons c range => simp at hstar

lemma ItemText.star_text (h : field.ItemText plus ⟨.all, none⟩ text) : text = ['*'] := by
  cases h with
  | plain spells =>
    cases spells
    rfl

lemma ListText.star (hn : field.Named) (h : field.ListText plus items text) :
    text = ['*'] ↔ items = [⟨.all, none⟩] := by
  obtain ⟨texts, hne, rfl, hall⟩ := h
  constructor
  · intro hstar
    have hcomma : ∀ text ∈ texts, ',' ∉ text := by
      intro text hm
      obtain ⟨item, -, hitem⟩ := exists_of_forall₂ hall hm
      exact hitem.1.no_comma hn
    have htexts : texts = [['*']] := by
      rw [← List.splitOn_intercalate ',' hcomma hne, hstar]
      decide
    subst htexts
    cases hall with
    | cons hitem hrest =>
      cases hrest
      rw [hitem.1.star hn]
  · rintro rfl
    cases hall with
    | cons hitem hrest =>
      cases hrest
      rw [hitem.1.star_text]
      rfl

lemma Says.unsigned (h : field.Says true text n) (hplus : '+' ∉ text) : field.Says false text n :=
  h.imp_left fun h => h.unsigned hplus

lemma SpanText.unsigned (h : field.SpanText true span text) (hplus : '+' ∉ text) :
    field.SpanText false span text := by
  cases h with
  | all => exact .all
  | one value => exact .one (value.unsigned hplus)
  | range begins ends =>
    simp only [List.mem_append, List.mem_cons, not_or] at hplus
    exact .range (begins.unsigned hplus.1) (ends.unsigned hplus.2.2)

lemma ItemText.unsigned (h : field.ItemText true item text) (hplus : '+' ∉ text) :
    field.ItemText false item text := by
  cases h with
  | plain spells => exact .plain (spells.unsigned hplus)
  | step spells number =>
    simp only [List.mem_append, List.mem_cons, not_or] at hplus
    exact .step (spells.unsigned hplus.1) (number.unsigned hplus.2.2)

lemma Says.no_plus (hn : field.Named) (h : field.Says false text n) : '+' ∉ text := by
  rcases h with h | ⟨index, h, -⟩
  · exact h.no_plus
  · exact fun hm => absurd ((hn.letters_of_name h).2 '+' hm) (by decide)

lemma SpanText.no_plus (hn : field.Named) (h : field.SpanText false span text) : '+' ∉ text := by
  cases h with
  | all => decide
  | one value => exact value.no_plus hn
  | range begins ends =>
    simp only [List.mem_append, List.mem_cons, not_or]
    exact ⟨begins.no_plus hn, by decide, ends.no_plus hn⟩

lemma ItemText.no_plus (hn : field.Named) (h : field.ItemText false item text) : '+' ∉ text := by
  cases h with
  | plain spells => exact spells.no_plus hn
  | step spells number =>
    simp only [List.mem_append, List.mem_cons, not_or]
    exact ⟨spells.no_plus hn, by decide, number.no_plus⟩

lemma mem_intercalate {c : Char} (hc : c ≠ ',') :
    c ∈ [','].intercalate texts ↔ ∃ text ∈ texts, c ∈ text := by
  induction texts with
  | nil => simp
  | cons text texts ih =>
    cases texts with
    | nil => simp
    | cons next texts =>
      rw [List.intercalate_cons_cons, List.mem_append, List.mem_append, List.mem_singleton, ih]
      simp [hc]

lemma ListText.unsigned (h : field.ListText true items text) (hplus : '+' ∉ text) :
    field.ListText false items text := by
  obtain ⟨texts, hne, rfl, hall⟩ := h
  rw [mem_intercalate (by decide)] at hplus
  refine ⟨texts, hne, rfl, ?_⟩
  clear hne
  induction hall with
  | nil => exact .nil
  | cons hitem hrest ih =>
    refine .cons ⟨hitem.1.unsigned fun hm => hplus ⟨_, List.mem_cons_self, hm⟩, hitem.2⟩ (ih ?_)
    exact fun ⟨text, hm, hplus'⟩ => hplus ⟨text, List.mem_cons_of_mem _ hm, hplus'⟩

lemma ListText.no_plus (hn : field.Named) (h : field.ListText false items text) : '+' ∉ text := by
  obtain ⟨texts, -, rfl, hall⟩ := h
  rw [mem_intercalate (by decide)]
  rintro ⟨text, hm, hplus⟩
  obtain ⟨item, -, hitem⟩ := exists_of_forall₂ hall hm
  exact hitem.1.no_plus hn hplus

end CronField

end Values

end Sheprd.Automation
