import Sheprd.Automation.CronGrammar
import Mathlib.Data.Nat.Bitwise

namespace Sheprd.Automation

open Sheprd.Lib

structure Line where
  minute : List Item
  hour : List Item
  day : List Item
  month : List Item
  weekday : List Item

def sunday (v : ℕ) : ℕ := if v = 7 then 0 else v

def Restricted (items : List Item) : Prop := items ≠ [⟨.all, none⟩]

namespace Line

def Text (line : Line) (plus : Bool) (text : Chars) : Prop :=
  ∃ minute hour day month weekday, splitWhitespace text = [minute, hour, day, month, weekday] ∧
    CronField.minute.ListText plus line.minute minute ∧ CronField.hour.ListText plus line.hour hour ∧
      CronField.day.ListText plus line.day day ∧ CronField.month.ListText plus line.month month ∧
        CronField.weekday.ListText plus line.weekday weekday

def OnWeekday (line : Line) (v : ℕ) : Prop :=
  ∃ w, CronField.weekday.Denotes line.weekday w ∧ v = sunday w

def OnDay (line : Line) (day weekday : ℕ) : Prop :=
  (Restricted line.day ∧ Restricted line.weekday ∧
      (CronField.day.Denotes line.day day ∨ line.OnWeekday weekday)) ∨
    (¬(Restricted line.day ∧ Restricted line.weekday) ∧
      CronField.day.Denotes line.day day ∧ line.OnWeekday weekday)

end Line

structure Denoted (line : Line) (e : Expression) : Prop where
  minutes : ∀ v, hasBit e.minutes v = true ↔ CronField.minute.Denotes line.minute v
  hours : ∀ v, hasBit e.hours v = true ↔ CronField.hour.Denotes line.hour v
  daysOfMonth : ∀ v, hasBit e.daysOfMonth v = true ↔ CronField.day.Denotes line.day v
  months : ∀ v, hasBit e.months v = true ↔ CronField.month.Denotes line.month v
  daysOfWeek : ∀ v, hasBit e.daysOfWeek v = true ↔ line.OnWeekday v
  fires : ∀ minute hour day month weekday, 1 ≤ day → day ≤ 31 → weekday < 7 →
    (e.matchesTime minute hour day month weekday = true ↔
      CronField.minute.Denotes line.minute minute ∧ CronField.hour.Denotes line.hour hour ∧
        CronField.month.Denotes line.month month ∧ line.OnDay day weekday)

def Faithful (text : Chars) : Prop :=
  ((∃ e, Cron.parse text = .ok e) ↔ ∃ line : Line, line.Text false text) ∧
    ∀ e (line : Line), Cron.parse text = .ok e → line.Text false text → Denoted line e

def CronField.Plain (field : CronField) (same : ℕ → ℕ) (items : List Item) : Prop :=
  (∀ item ∈ items, item.Small) ∧
    ∀ n, ⟨.one n, some 1⟩ ∈ items → ∀ v, n ≤ v → v ≤ field.max →
      ∃ item ∈ items, ∃ w, item.Taken field w ∧ same w = same v

def Line.Plain (line : Line) : Prop :=
  CronField.minute.Plain id line.minute ∧ CronField.hour.Plain id line.hour ∧
    CronField.day.Plain id line.day ∧ CronField.month.Plain id line.month ∧
      CronField.weekday.Plain sunday line.weekday

section Lines

variable {line : Line} {plus : Bool} {text : Chars} {e : Expression} {field : CronField} {items : List Item}

lemma reads_le {item : Item} {v : ℕ} (hfits : item.Fits field)
    (h : item.Reads field v) : field.min ≤ v ∧ v ≤ field.max := by
  obtain ⟨hspan, -⟩ := hfits
  rw [Item.Reads.eq_def] at h
  split at h
  · rw [h]
    exact hspan
  · rename_i span step _
    obtain ⟨k, rfl, hle⟩ := h
    have hfirst : field.min ≤ span.first field ∧ span.last field ≤ field.max := by
      cases span with
      | all => exact ⟨le_rfl, le_rfl⟩
      | one n => exact ⟨hspan.1, le_rfl⟩
      | range first last => exact ⟨hspan.1, hspan.2.2⟩
    exact ⟨hfirst.1.trans (Nat.le_add_right _ _), hle.trans hfirst.2⟩

lemma fits_of_listText (h : field.ListText plus items text) : ∀ item ∈ items, item.Fits field := by
  obtain ⟨texts, -, -, hall⟩ := h
  intro item hm
  obtain ⟨_, -, -, hfits⟩ := exists_of_forall₂ hall.flip hm
  exact hfits

lemma plain_iff {same : ℕ → ℕ} (h : field.ListText plus items text) :
    (∀ item ∈ items, item.Small) → (field.Plain same items ↔
      ∀ v, (∃ w, field.Denotes items w ∧ same w = same v) ↔
        ∃ w, (∃ item ∈ items, item.Taken field w) ∧ same w = same v) := by
  intro hsmall
  have hfits := fits_of_listText h
  constructor
  · rintro ⟨-, hcovered⟩ v
    constructor
    · rintro ⟨w, ⟨item, hm, hreads⟩, hsame⟩
      by_cases hone : ∃ n, item = ⟨.one n, some 1⟩
      · obtain ⟨n, rfl⟩ := hone
        obtain ⟨k, hw, hle⟩ := hreads
        obtain ⟨other, ho, u, htaken, hu⟩ :=
          hcovered n hm w (hw ▸ Nat.le_add_right _ _) hle
        exact ⟨u, ⟨other, ho, htaken⟩, hu.trans hsame⟩
      · refine ⟨w, ⟨item, hm, ?_⟩, hsame⟩
        rw [Item.Taken.eq_def]
        split
        · exact absurd ⟨_, rfl⟩ hone
        · exact hreads
    · rintro ⟨w, ⟨item, hm, htaken⟩, hsame⟩
      exact ⟨w, ⟨item, hm, htaken.reads (hfits item hm)⟩, hsame⟩
  · intro hall
    refine ⟨hsmall, fun n hm v hle hmax => ?_⟩
    have hreads : Item.Reads field ⟨.one n, some 1⟩ v :=
      ⟨v - n, by simp only [Span.first, Option.getD_some]; omega, hmax⟩
    obtain ⟨w, ⟨item, hi, htaken⟩, hsame⟩ := (hall v).mp ⟨v, ⟨_, hm, hreads⟩, rfl⟩
    exact ⟨item, hi, w, htaken, hsame⟩

def foldSunday (set : ℕ) : ℕ := if set &&& 1 <<< 7 ≠ 0 then set &&& (2 ^ 64 - 1 - 1 <<< 7) ||| 1 else set

lemma parse_eq_ok {minute hour day month weekday : Chars}
    (hwords : splitWhitespace text = [minute, hour, day, month, weekday]) :
    Cron.parse text = .ok e ↔ ∃ daysOfWeek minutes hours daysOfMonth months,
      CronField.weekday.set weekday = .ok daysOfWeek ∧ CronField.minute.set minute = .ok minutes ∧
        CronField.hour.set hour = .ok hours ∧ CronField.day.set day = .ok daysOfMonth ∧
          CronField.month.set month = .ok months ∧ e = {
            text := [' '].intercalate [minute, hour, day, month, weekday]
            minutes, hours, daysOfMonth, months
            daysOfWeek := foldSunday daysOfWeek
            anyDayOfMonth := decide (day = ['*'])
            anyDayOfWeek := decide (weekday = ['*']) } := by
  rw [Cron.parse, hwords]
  simp only [bind, Except.bind]
  constructor
  · intro h
    split at h
    · cases h
    · split at h
      · cases h
      · split at h
        · cases h
        · split at h
          · cases h
          · split at h
            · cases h
            · rename_i hweekday _ _ hminute _ _ hhour _ _ hday _ _ hmonth
              exact ⟨_, _, _, _, _, hweekday, hminute, hhour, hday, hmonth, (Except.ok.inj h).symm⟩
  · rintro ⟨_, _, _, _, _, hweekday, hminute, hhour, hday, hmonth, rfl⟩
    simp only [hweekday, hminute, hhour, hday, hmonth]
    rfl

lemma foldSunday_testBit (set : ℕ) {v : ℕ} (hsmall : ∀ w, set.testBit w = true → w ≤ 7) :
    hasBit (foldSunday set) v = true ↔ ∃ w, set.testBit w = true ∧ v = sunday w := by
  have hmask : ∀ w < 64, (2 ^ 64 - 1 - 1 <<< 7 : ℕ).testBit w = decide (w ≠ 7) := by decide
  have hseven : set &&& 1 <<< 7 ≠ 0 ↔ set.testBit 7 = true := by
    rw [Nat.one_shiftLeft, Nat.and_two_pow]
    cases set.testBit 7 <;> simp
  have hbit : hasBit (foldSunday set) v = true ↔ v < 64 ∧ (foldSunday set).testBit v = true := by
    simp [hasBit]
  rw [hbit, foldSunday]
  by_cases h7 : set.testBit 7 = true
  · rw [if_pos (hseven.mpr h7)]
    constructor
    · rintro ⟨hlt, hv⟩
      rw [Nat.testBit_or, Nat.testBit_and, hmask v hlt, Bool.or_eq_true, Bool.and_eq_true,
        decide_eq_true_eq] at hv
      rcases hv with ⟨hv, hne⟩ | hv
      · exact ⟨v, hv, (if_neg hne).symm⟩
      · exact ⟨7, h7, Nat.testBit_one_eq_true_iff_self_eq_zero.mp hv⟩
    · rintro ⟨w, hw, rfl⟩
      have hle := hsmall w hw
      by_cases hne : w = 7
      · rw [sunday, if_pos hne]
        exact ⟨by omega, by simp⟩
      · rw [sunday, if_neg hne, Nat.testBit_or, Nat.testBit_and, hmask w (by omega), hw]
        exact ⟨by omega, by simp [hne]⟩
  · rw [if_neg fun h => h7 (hseven.mp h)]
    constructor
    · rintro ⟨-, hv⟩
      have hne : v ≠ 7 := fun hne => h7 (hne ▸ hv)
      exact ⟨v, hv, (if_neg hne).symm⟩
    · rintro ⟨w, hw, rfl⟩
      have hle := hsmall w hw
      have hne : w ≠ 7 := fun hne => h7 (hne ▸ hw)
      rw [sunday, if_neg hne]
      exact ⟨by omega, hw⟩

structure TakenAs (line : Line) (e : Expression) : Prop where
  minutes : ∀ v, hasBit e.minutes v = true ↔ ∃ item ∈ line.minute, item.Taken CronField.minute v
  hours : ∀ v, hasBit e.hours v = true ↔ ∃ item ∈ line.hour, item.Taken CronField.hour v
  daysOfMonth : ∀ v, hasBit e.daysOfMonth v = true ↔ ∃ item ∈ line.day, item.Taken CronField.day v
  months : ∀ v, hasBit e.months v = true ↔ ∃ item ∈ line.month, item.Taken CronField.month v
  daysOfWeek : ∀ v, hasBit e.daysOfWeek v = true ↔
    ∃ w, (∃ item ∈ line.weekday, item.Taken CronField.weekday w) ∧ v = sunday w
  anyDay : e.anyDayOfMonth = true ↔ ¬Restricted line.day
  anyWeekday : e.anyDayOfWeek = true ↔ ¬Restricted line.weekday

def Line.Small (line : Line) : Prop :=
  (∀ item ∈ line.minute, item.Small) ∧ (∀ item ∈ line.hour, item.Small) ∧
    (∀ item ∈ line.day, item.Small) ∧ (∀ item ∈ line.month, item.Small) ∧
      ∀ item ∈ line.weekday, item.Small

lemma hasBit_iff {set : ℕ} (hn : field.Named) (h : field.ListText plus items text)
    (hset : ∀ v, set.testBit v = true ↔ ∃ item ∈ items, item.Taken field v) (v : ℕ) :
    hasBit set v = true ↔ ∃ item ∈ items, item.Taken field v := by
  rw [← hset]
  have hsmall : set.testBit v = true → v < 64 := by
    intro hv
    obtain ⟨item, hm, htaken⟩ := (hset v).mp hv
    have hfits := fits_of_listText h item hm
    exact (reads_le hfits (htaken.reads hfits)).2.trans_lt hn.bounded
  simpa [hasBit] using hsmall

lemma text_of_parse (h : Cron.parse text = .ok e) : ∃ line : Line, line.Text true text := by
  have hwords : ∃ minute hour day month weekday,
      splitWhitespace text = [minute, hour, day, month, weekday] := by
    rw [Cron.parse] at h
    split at h
    · rename_i minute hour day month weekday heq
      exact ⟨minute, hour, day, month, weekday, heq⟩
    · cases h
  obtain ⟨minute, hour, day, month, weekday, hwords⟩ := hwords
  obtain ⟨_, _, _, _, _, hweekday, hminute, hhour, hday, hmonth, -⟩ := (parse_eq_ok hwords).mp h
  obtain ⟨minutes, hminutes⟩ := CronField.listText_of_set hminute
  obtain ⟨hours, hhours⟩ := CronField.listText_of_set hhour
  obtain ⟨days, hdays⟩ := CronField.listText_of_set hday
  obtain ⟨months, hmonths⟩ := CronField.listText_of_set hmonth
  obtain ⟨weekdays, hweekdays⟩ := CronField.listText_of_set hweekday
  exact ⟨⟨minutes, hours, days, months, weekdays⟩, minute, hour, day, month, weekday, hwords,
    hminutes, hhours, hdays, hmonths, hweekdays⟩

lemma small_of_set {set : ℕ} (hn : field.Named) (hbounds : field.min ≤ field.max)
    (h : field.ListText plus items text) (hset : field.set text = .ok set) :
    ∀ item ∈ items, item.Small := by
  rcases CronField.set_eq hn hbounds h with ⟨-, error, herror⟩ | ⟨hsmall, -⟩
  · exact nomatch hset.symm.trans herror
  · exact hsmall

lemma set_of_small (hn : field.Named) (hbounds : field.min ≤ field.max)
    (h : field.ListText plus items text) (hsmall : ∀ item ∈ items, item.Small) :
    ∃ set, field.set text = .ok set ∧
      ∀ v, set.testBit v = true ↔ ∃ item ∈ items, item.Taken field v := by
  rcases CronField.set_eq hn hbounds h with ⟨⟨item, hm, hlarge⟩, -⟩ | ⟨-, hset⟩
  · exact absurd (hsmall item hm) hlarge
  · exact hset

lemma parse_line (h : line.Text plus text) :
    (¬line.Small ∧ ∃ error, Cron.parse text = .error error) ∨
      line.Small ∧ ∃ e, Cron.parse text = .ok e ∧ TakenAs line e := by
  obtain ⟨minute, hour, day, month, weekday, hwords, hminute, hhour, hday, hmonth, hweekday⟩ := h
  by_cases hsmall : line.Small
  · obtain ⟨smallMinute, smallHour, smallDay, smallMonth, smallWeekday⟩ := hsmall
    obtain ⟨minutes, hminutes, bitMinute⟩ :=
      set_of_small named_minute (by decide) hminute smallMinute
    obtain ⟨hours, hhours, bitHour⟩ := set_of_small named_hour (by decide) hhour smallHour
    obtain ⟨days, hdays, bitDay⟩ := set_of_small named_day (by decide) hday smallDay
    obtain ⟨months, hmonths, bitMonth⟩ := set_of_small named_month (by decide) hmonth smallMonth
    obtain ⟨weekdays, hweekdays, bitWeekday⟩ :=
      set_of_small named_weekday (by decide) hweekday smallWeekday
    refine Or.inr ⟨⟨smallMinute, smallHour, smallDay, smallMonth, smallWeekday⟩, _,
      (parse_eq_ok hwords).mpr ⟨_, _, _, _, _, hweekdays, hminutes, hhours, hdays, hmonths, rfl⟩, ?_⟩
    refine ⟨hasBit_iff named_minute hminute bitMinute, hasBit_iff named_hour hhour bitHour,
      hasBit_iff named_day hday bitDay, hasBit_iff named_month hmonth bitMonth, fun v => ?_, ?_, ?_⟩
    · have hle : ∀ w, weekdays.testBit w = true → w ≤ 7 := by
        intro w hw
        obtain ⟨item, hm, htaken⟩ := (bitWeekday w).mp hw
        have hfits := fits_of_listText hweekday item hm
        exact (reads_le hfits (htaken.reads hfits)).2
      rw [foldSunday_testBit weekdays hle]
      simp only [bitWeekday]
    · rw [decide_eq_true_eq, hday.star named_day, Restricted, not_not]
    · rw [decide_eq_true_eq, hweekday.star named_weekday, Restricted, not_not]
  · refine Or.inl ⟨hsmall, ?_⟩
    cases hparse : Cron.parse text with
    | error error => exact ⟨error, rfl⟩
    | ok e =>
      obtain ⟨_, _, _, _, _, hweekdays, hminutes, hhours, hdays, hmonths, -⟩ :=
        (parse_eq_ok hwords).mp hparse
      exact absurd ⟨small_of_set named_minute (by decide) hminute hminutes,
        small_of_set named_hour (by decide) hhour hhours, small_of_set named_day (by decide) hday hdays,
        small_of_set named_month (by decide) hmonth hmonths,
        small_of_set named_weekday (by decide) hweekday hweekdays⟩ hsmall

lemma star_reads {v : ℕ} (hmin : field.min ≤ v) (hmax : v ≤ field.max)
    (hstar : items = [⟨.all, none⟩]) : field.Denotes items v := by
  subst hstar
  exact ⟨_, List.mem_singleton_self _, v - field.min, by simp only [Span.first, Option.getD_none]; omega,
    hmax⟩

lemma matchesDay_iff {cron : Cron} {day month weekday : ℕ} :
    cron.matchesDay day month weekday = true ↔ hasBit cron.months month = true ∧
      ((cron.anyDayOfMonth = true ∧ cron.anyDayOfWeek = true) ∨
        (cron.anyDayOfMonth = true ∧ cron.anyDayOfWeek = false ∧ hasBit cron.daysOfWeek weekday = true) ∨
        (cron.anyDayOfMonth = false ∧ cron.anyDayOfWeek = true ∧ hasBit cron.daysOfMonth day = true) ∨
        (cron.anyDayOfMonth = false ∧ cron.anyDayOfWeek = false ∧
          (hasBit cron.daysOfMonth day = true ∨ hasBit cron.daysOfWeek weekday = true))) := by
  cases hd : cron.anyDayOfMonth <;> cases hw : cron.anyDayOfWeek <;> simp [Cron.matchesDay, hd, hw]

lemma day_rule {P Q D W : Prop} (hD : ¬P → D) (hW : ¬Q → W) :
    ((¬P ∧ ¬Q) ∨ (¬P ∧ ¬¬Q ∧ W) ∨ (¬¬P ∧ ¬Q ∧ D) ∨ (¬¬P ∧ ¬¬Q ∧ (D ∨ W))) ↔
      (P ∧ Q ∧ (D ∨ W)) ∨ (¬(P ∧ Q) ∧ D ∧ W) := by
  by_cases hP : P
  · by_cases hQ : Q
    · simp [hP, hQ]
    · simp [hP, hQ, hW hQ]
  · by_cases hQ : Q
    · simp [hP, hQ, hD hP]
    · simp [hP, hQ, hD hP, hW hQ]

lemma denoted_of_sets (h : TakenAs line e)
    (hminutes : ∀ v, hasBit e.minutes v = true ↔ CronField.minute.Denotes line.minute v)
    (hhours : ∀ v, hasBit e.hours v = true ↔ CronField.hour.Denotes line.hour v)
    (hdays : ∀ v, hasBit e.daysOfMonth v = true ↔ CronField.day.Denotes line.day v)
    (hmonths : ∀ v, hasBit e.months v = true ↔ CronField.month.Denotes line.month v)
    (hweekdays : ∀ v, hasBit e.daysOfWeek v = true ↔ line.OnWeekday v) : Denoted line e := by
  refine ⟨hminutes, hhours, hdays, hmonths, hweekdays, ?_⟩
  intro minute hour day month weekday hfirst hlast hweek
  have hday : ¬Restricted line.day → CronField.day.Denotes line.day day := fun hstar =>
    star_reads hfirst hlast (not_not.mp hstar)
  have hweekday : ¬Restricted line.weekday → line.OnWeekday weekday := by
    intro hstar
    refine ⟨weekday, star_reads (Nat.zero_le _) (by simp only [CronField.weekday]; omega)
      (not_not.mp hstar), ?_⟩
    rw [sunday, if_neg (by omega)]
  have hanyDay := h.anyDay
  have hanyWeekday := h.anyWeekday
  have hmatch : e.matchesTime minute hour day month weekday = true ↔
      hasBit e.minutes minute = true ∧ hasBit e.hours hour = true ∧
        e.matchesDay day month weekday = true := by
    simp [Cron.matchesTime, Cron.matchesMinute, Cron.matchesHour, and_assoc]
  rw [hmatch, matchesDay_iff, hminutes, hhours, hmonths, hdays, hweekdays, Line.OnDay,
    ← Bool.not_eq_true, ← Bool.not_eq_true, hanyDay, hanyWeekday, day_rule hday hweekday]

lemma plain_id_iff (h : field.ListText plus items text) (hsmall : ∀ item ∈ items, item.Small) :
    field.Plain id items ↔ ∀ v, field.Denotes items v ↔ ∃ item ∈ items, item.Taken field v := by
  rw [plain_iff h hsmall]
  simp only [id_eq, exists_eq_right]

lemma Line.Plain.small (h : line.Plain) : line.Small :=
  ⟨h.1.1, h.2.1.1, h.2.2.1.1, h.2.2.2.1.1, h.2.2.2.2.1⟩

lemma taken_of_parse (h : line.Text plus text) (he : Cron.parse text = .ok e) :
    line.Small ∧ TakenAs line e := by
  rcases parse_line h with ⟨-, error, herror⟩ | ⟨hsmall, e', he', htaken⟩
  · exact nomatch he.symm.trans herror
  · exact ⟨hsmall, Except.ok.inj (he.symm.trans he') ▸ htaken⟩

lemma plain_of_denoted (h : line.Text plus text) (he : Cron.parse text = .ok e)
    (hd : Denoted line e) : line.Plain := by
  obtain ⟨hsmall, htaken⟩ := taken_of_parse h he
  obtain ⟨_, _, _, _, _, -, hminute, hhour, hday, hmonth, hweekday⟩ := h
  obtain ⟨smallMinute, smallHour, smallDay, smallMonth, smallWeekday⟩ := hsmall
  refine ⟨(plain_id_iff hminute smallMinute).mpr fun v => (hd.minutes v).symm.trans (htaken.minutes v),
    (plain_id_iff hhour smallHour).mpr fun v => (hd.hours v).symm.trans (htaken.hours v),
    (plain_id_iff hday smallDay).mpr fun v => (hd.daysOfMonth v).symm.trans (htaken.daysOfMonth v),
    (plain_id_iff hmonth smallMonth).mpr fun v => (hd.months v).symm.trans (htaken.months v),
    (plain_iff hweekday smallWeekday).mpr fun v => ?_⟩
  have hsame := (hd.daysOfWeek (sunday v)).symm.trans (htaken.daysOfWeek (sunday v))
  simpa only [Line.OnWeekday, eq_comm] using hsame

lemma denoted_of_plain (h : line.Text plus text) (he : Cron.parse text = .ok e)
    (hplain : line.Plain) : Denoted line e := by
  obtain ⟨hsmall, htaken⟩ := taken_of_parse h he
  obtain ⟨plainMinute, plainHour, plainDay, plainMonth, plainWeekday⟩ := hplain
  obtain ⟨_, _, _, _, _, -, hminute, hhour, hday, hmonth, hweekday⟩ := h
  obtain ⟨smallMinute, smallHour, smallDay, smallMonth, smallWeekday⟩ := hsmall
  refine denoted_of_sets htaken
    (fun v => (htaken.minutes v).trans ((plain_id_iff hminute smallMinute).mp plainMinute v).symm)
    (fun v => (htaken.hours v).trans ((plain_id_iff hhour smallHour).mp plainHour v).symm)
    (fun v => (htaken.daysOfMonth v).trans ((plain_id_iff hday smallDay).mp plainDay v).symm)
    (fun v => (htaken.months v).trans ((plain_id_iff hmonth smallMonth).mp plainMonth v).symm)
    fun v => (htaken.daysOfWeek v).trans ?_
  have hsame := (plain_iff hweekday smallWeekday).mp plainWeekday
  constructor
  · rintro ⟨w, htaken, rfl⟩
    obtain ⟨u, hreads, hu⟩ := (hsame w).mpr ⟨w, htaken, rfl⟩
    exact ⟨u, hreads, hu.symm⟩
  · rintro ⟨w, hreads, rfl⟩
    obtain ⟨u, htaken, hu⟩ := (hsame w).mp ⟨w, hreads, rfl⟩
    exact ⟨u, htaken, hu.symm⟩

lemma mem_splitWhitespace {c : Char} (hc : Text.isWhitespace c = false) :
    c ∈ text ↔ ∃ word ∈ splitWhitespace text, c ∈ word := by
  have hsplit : c ∈ text ↔ ∃ word ∈ text.splitOnP Text.isWhitespace, c ∈ word := by
    induction text with
    | nil => simp
    | cons d text ih =>
      rw [List.splitOnP_cons_eq_if_modifyHead, List.mem_cons, ih]
      split
      · rename_i hd
        have hne : c ≠ d := by
          rintro rfl
          rw [hc] at hd
          cases hd
        simp [hne]
      · obtain ⟨word, words, hwords⟩ := List.exists_cons_of_ne_nil
          (List.splitOnP_ne_nil Text.isWhitespace text)
        rw [hwords, List.modifyHead_cons]
        simp [or_assoc]
  rw [hsplit]
  constructor
  · rintro ⟨word, hm, hword⟩
    refine ⟨word, List.mem_filter.mpr ⟨hm, ?_⟩, hword⟩
    simp [List.ne_nil_of_mem hword]
  · rintro ⟨word, hm, hword⟩
    exact ⟨word, (List.mem_filter.mp hm).1, hword⟩

lemma Line.Text.no_plus (h : line.Text false text) : '+' ∉ text := by
  obtain ⟨minute, hour, day, month, weekday, hwords, hminute, hhour, hday, hmonth, hweekday⟩ := h
  rw [mem_splitWhitespace (by decide), hwords]
  simp only [List.mem_cons, List.not_mem_nil, or_false]
  rintro ⟨_, rfl | rfl | rfl | rfl | rfl, hm⟩
  · exact hminute.no_plus named_minute hm
  · exact hhour.no_plus named_hour hm
  · exact hday.no_plus named_day hm
  · exact hmonth.no_plus named_month hm
  · exact hweekday.no_plus named_weekday hm

lemma Line.Text.unsigned (h : line.Text true text) (hplus : '+' ∉ text) : line.Text false text := by
  obtain ⟨minute, hour, day, month, weekday, hwords, hminute, hhour, hday, hmonth, hweekday⟩ := h
  rw [mem_splitWhitespace (by decide), hwords] at hplus
  simp only [List.mem_cons, List.not_mem_nil, or_false, exists_eq_or_imp, exists_eq_left,
    not_or] at hplus
  exact ⟨minute, hour, day, month, weekday, hwords, hminute.unsigned hplus.1,
    hhour.unsigned hplus.2.1, hday.unsigned hplus.2.2.1, hmonth.unsigned hplus.2.2.2.1,
    hweekday.unsigned hplus.2.2.2.2⟩

theorem parse_faithful_iff (text : Chars) :
    Faithful text ↔ (∀ line : Line, line.Text false text → line.Plain) ∧
      ∀ line : Line, line.Text true text → line.Small → '+' ∉ text := by
  constructor
  · rintro ⟨haccepts, hmeans⟩
    refine ⟨fun line hline => ?_, fun line hline hsmall => ?_⟩
    · obtain ⟨e, he⟩ := haccepts.mpr ⟨line, hline⟩
      exact plain_of_denoted hline he (hmeans e line he hline)
    · rcases parse_line hline with ⟨hlarge, -⟩ | ⟨-, e, he, -⟩
      · exact absurd hsmall hlarge
      · obtain ⟨other, hother⟩ := haccepts.mp ⟨e, he⟩
        exact hother.no_plus
  · rintro ⟨hplain, hplus⟩
    refine ⟨⟨fun ⟨e, he⟩ => ?_, fun ⟨line, hline⟩ => ?_⟩, fun e line he hline => ?_⟩
    · obtain ⟨line, hline⟩ := text_of_parse he
      exact ⟨line, hline.unsigned (hplus line hline (taken_of_parse hline he).1)⟩
    · rcases parse_line hline with ⟨hlarge, -⟩ | ⟨-, e, he, -⟩
      · exact absurd (hplain line hline).small hlarge
      · exact ⟨e, he⟩
    · exact denoted_of_plain hline he (hplain line hline)

theorem step_one_lost : ¬∀ text, Faithful text := by
  intro h
  have hline : (⟨[⟨.one 5, some 1⟩], [⟨.all, none⟩], [⟨.all, none⟩], [⟨.all, none⟩],
      [⟨.all, none⟩]⟩ : Line).Text false ['5', '/', '1', ' ', '*', ' ', '*', ' ', '*', ' ', '*'] := by
    have hstar : ∀ field : CronField, field.ListText false [⟨.all, none⟩] ['*'] := fun field =>
      ⟨[['*']], List.cons_ne_nil _ _, rfl, .cons ⟨.plain .all, trivial, nofun⟩ .nil⟩
    have hfive : CronField.minute.ItemText false ⟨.one 5, some 1⟩ (['5'] ++ '/' :: ['1']) :=
      .step (.one (Or.inl ⟨['5'], List.cons_ne_nil _ _, List.forall_mem_singleton.mpr rfl, rfl, Or.inl rfl⟩))
        ⟨['1'], List.cons_ne_nil _ _, List.forall_mem_singleton.mpr rfl, rfl, Or.inl rfl⟩
    refine ⟨['5', '/', '1'], ['*'], ['*'], ['*'], ['*'], by decide, ?_, hstar _, hstar _, hstar _, hstar _⟩
    refine ⟨[['5', '/', '1']], List.cons_ne_nil _ _, rfl, .cons ⟨hfive, ⟨by decide, by decide⟩, ?_⟩ .nil⟩
    exact fun step hstep => Option.some.inj hstep ▸ le_rfl
  obtain ⟨haccepts, hmeans⟩ := h _
  obtain ⟨e, he⟩ := haccepts.mpr ⟨_, hline⟩
  obtain ⟨-, htaken⟩ := taken_of_parse hline he
  have hsix : CronField.minute.Denotes [⟨.one 5, some 1⟩] 6 :=
    ⟨_, List.mem_singleton_self _, 1, rfl, by decide⟩
  obtain ⟨item, hm, hv⟩ := (htaken.minutes 6).mp (((hmeans e _ he hline).minutes 6).mpr hsix)
  rw [List.mem_singleton.mp hm] at hv
  have hv : 6 = 5 := hv
  omega

end Lines

end Sheprd.Automation
