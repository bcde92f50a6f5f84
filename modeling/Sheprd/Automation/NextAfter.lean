import Sheprd.Automation.Zoned

namespace Sheprd.Automation

open Sheprd.Lib

namespace ZoneRules

variable (rules : ZoneRules)

def hour (t : ℤ) : ℕ := (rules.timeZone.toZoned t).hour

structure Passes (kind : ℤ → Prop) (t u : ℤ) : Prop where
  forward : t < u
  passed : ∀ v, t < v → v < u → rules.reading v % 60 = 0 → kind v

end ZoneRules

namespace Cron

def Fires (cron : Cron) (rules : ZoneRules) (t : ℤ) : Prop :=
  let zoned := rules.timeZone.toZoned t
  rules.reading t % 60 = 0 ∧
    cron.matchesTime zoned.minute zoned.hour zoned.day zoned.month zoned.weekday = true

def Fair (cron : Cron) (rules : ZoneRules) (t : ℤ) : Prop :=
  let zoned := rules.timeZone.toZoned t
  if cron.matchesDay zoned.day zoned.month zoned.weekday = false then
    ∃ u, rules.timeZone.startOfNextDay t = some u ∧
      rules.Passes (fun v => rules.date v = rules.date t) t u
  else if hasBit cron.hours zoned.hour = false then
    ∃ u, rules.timeZone.startOfNextHour t = some u ∧
      rules.Passes (fun v => rules.date v = rules.date t ∧ rules.hour v = rules.hour t) t u
  else if hasBit cron.minutes zoned.minute = false then
    InRange (t + 60) ∧ rules.Passes (fun _ => False) t (t + 60)
  else rules.reading t % 60 = 0

end Cron

namespace Schedule

def Upcoming (rules : ZoneRules) (after : ℤ) (anchor : Option ℤ) (schedule : Schedule) (t : ℤ) :
    Prop :=
  after < t ∧ InRange t ∧
    match schedule with
    | manual => False
    | every seconds => ∃ k : ℕ, t = anchor.getD after + k * seconds
    | atTime hour minute days =>
        ∃ date ≤ rules.date after + 7, days.testBit (rules.timeZone.weekday date) = true ∧
          rules.timeZone.atTime date hour minute = some t
    | cron expression => t ≤ after + 8808 * 3600 ∧ expression.Fires rules t

def Clear (rules : ZoneRules) (after : ℤ) (anchor : Option ℤ) : Schedule → Prop
  | manual => True
  | every seconds =>
      let ahead := ((after - anchor.getD after) / seconds + 1) * seconds
      ahead ≤ spanMax ∨ 2 ^ 63 ≤ ahead
  | atTime hour minute days =>
      ∀ date t, days.testBit (rules.timeZone.weekday date) = true →
        rules.timeZone.atTime date hour minute = some t →
        (date < rules.date after → t ≤ after) ∧
          ∀ date' t', date < date' → date' ≤ rules.date after + 7 →
            days.testBit (rules.timeZone.weekday date') = true →
            rules.timeZone.atTime date' hour minute = some t' → after < t → t ≤ t'
  | cron expression =>
      InRange (after + 8808 * 3600) ∧
        (∀ v, after < v → v < after + 60 - (after + 60) % 60 → rules.reading v % 60 ≠ 0) ∧
        ∀ t, expression.Reaches rules.timeZone after t → t ≤ after + 8808 * 3600 →
          expression.Fair rules t

def Answers (P : ℤ → Prop) : Option ℤ → Prop
  | none => ∀ t, ¬P t
  | some t => IsLeast { t | P t } t

end Schedule

section Cron

variable {cron : Cron} {rules : ZoneRules} {after t : ℤ}

lemma Cron.walk_answer {zone : TimeZone} {turns : ℕ} (h : cron.Reaches zone after t)
    {answer : Option ℤ} (hw : cron.walk zone (after + 8808 * 3600) turns t = some answer) :
    ∃ u, cron.Reaches zone after u ∧
      (after + 8808 * 3600 < u ∧ answer = none ∨
        u ≤ after + 8808 * 3600 ∧ (cron.advance zone u = none ∧ answer = none ∨
          cron.advance zone u = some none ∧ answer = some u)) := by
  induction turns generalizing t with
  | zero => cases hw
  | succ turns ih =>
    rw [Cron.walk] at hw
    split at hw
    · next within =>
      split at hw
      · next stuck => exact ⟨t, h, .inr ⟨within, .inl ⟨stuck, (Option.some.inj hw).symm⟩⟩⟩
      · next found => exact ⟨t, h, .inr ⟨within, .inr ⟨found, (Option.some.inj hw).symm⟩⟩⟩
      · next goes => exact ih (h.next within goes) hw
    · next past => exact ⟨t, h, .inl ⟨not_le.mp past, (Option.some.inj hw).symm⟩⟩

lemma Cron.Fair.turn (h : cron.Fair rules t) :
    (cron.advance rules.timeZone t = some none ∧ cron.Fires rules t) ∨
      ∃ u, cron.advance rules.timeZone t = some (some u) ∧ t < u ∧
        ∀ v, t ≤ v → v < u → ¬cron.Fires rules v := by
  simp only [Cron.Fair] at h
  simp only [Cron.advance, Bool.not_eq_true']
  split_ifs at h ⊢ with day hour minute
  · obtain ⟨u, step, passes⟩ := h
    refine .inr ⟨u, by rw [step]; rfl, passes.forward, fun v later earlier fires => ?_⟩
    have same : rules.date v = rules.date t := by
      obtain rfl | later := later.eq_or_lt
      · rfl
      · exact passes.passed v later earlier fires.1
    have matched := fires.2
    simp only [Cron.matchesTime, ZoneRules.timeZone, same, Bool.and_eq_true] at matched day
    simp [day] at matched
  · obtain ⟨u, step, passes⟩ := h
    refine .inr ⟨u, by rw [step]; rfl, passes.forward, fun v later earlier fires => ?_⟩
    have same : rules.hour v = rules.hour t := by
      obtain rfl | later := later.eq_or_lt
      · rfl
      · exact (passes.passed v later earlier fires.1).2
    have matched := fires.2
    simp only [Cron.matchesTime, Cron.matchesHour, Bool.and_eq_true] at matched
    rw [ZoneRules.hour, ZoneRules.hour] at same
    simp [same, hour] at matched
  · obtain ⟨inRange, passes⟩ := h
    refine .inr ⟨t + 60, by rw [checkedAdd_inRange inRange]; rfl, passes.forward, ?_⟩
    intro v later earlier fires
    obtain rfl | later := later.eq_or_lt
    · have matched := fires.2
      simp [Cron.matchesTime, Cron.matchesMinute, minute] at matched
    · exact passes.passed v later earlier fires.1
  · refine .inl ⟨rfl, h, ?_⟩
    simp_all [Cron.matchesTime, Cron.matchesMinute, Cron.matchesHour]

lemma Cron.Fair.step (h : cron.Fair rules t) {u : ℤ}
    (goes : cron.advance rules.timeZone t = some (some u)) :
    t < u ∧ ∀ v, t ≤ v → v < u → ¬cron.Fires rules v := by
  obtain ⟨found, -⟩ | ⟨u', goes', passes⟩ := h.turn
  · rw [found] at goes
    cases goes
  · rw [goes', Option.some.injEq, Option.some.injEq] at goes
    exact goes ▸ passes

lemma nextCron_answers {anchor : Option ℤ} (inRange : InRange after)
    (clear : (Schedule.cron cron).Clear rules after anchor) :
    ∃ turns answer, nextCron turns cron rules.timeZone after = some answer ∧
      Schedule.Answers ((Schedule.cron cron).Upcoming rules after anchor) answer := by
  obtain ⟨horizon, start, fair⟩ := clear
  have soon : InRange (after + 60) := by
    simp only [InRange] at *
    omega
  have first : InRange (after + 60 - (after + 60) % 60) := by
    simp only [InRange] at *
    omega
  have none_before (t : ℤ) (h : cron.Reaches rules.timeZone after t) :
      ∀ v, after < v → v < t → ¬cron.Fires rules v := by
    induction h with
    | first => exact fun v later earlier fires => start v later earlier fires.1
    | @next t u h within goes ih =>
      intro v later earlier
      by_cases before : v < t
      · exact ih v later before
      · exact ((fair t h within).step goes).2 v (not_lt.mp before) earlier
  have later (t : ℤ) (h : cron.Reaches rules.timeZone after t) : after < t := by
    induction h with
    | first => omega
    | @next t u h within goes ih => exact ih.trans ((fair t h within).step goes).1
  have forward (t u : ℤ) (turn : cron.Turns rules.timeZone after t u) : t < u :=
    ((fair t turn.reached turn.within).step turn.goes).1
  obtain ⟨turns, answer, found⟩ := nextCron_ends forward
  refine ⟨turns, answer, found, ?_⟩
  rw [nextCron_first horizon soon first] at found
  obtain ⟨u, reached, ⟨past, rfl⟩ | ⟨within, ends⟩⟩ :=
    Cron.walk_answer (.first horizon soon first) found
  · rintro t ⟨later, -, within, fires⟩
    exact none_before u reached t later (lt_of_le_of_lt within past) fires
  · obtain ⟨here, fires⟩ | ⟨v, goes, -, -⟩ := (fair u reached within).turn
    · obtain ⟨stuck, -⟩ | ⟨-, rfl⟩ := ends
      · rw [here] at stuck
        cases stuck
      · have inside : InRange u := by
          have := later u reached
          simp only [InRange] at *
          omega
        refine ⟨⟨later u reached, inside, within, fires⟩, ?_⟩
        rintro t ⟨after_t, -, -, fires⟩
        by_contra earlier
        exact none_before u reached t after_t (not_le.mp earlier) fires
    · obtain ⟨stuck, -⟩ | ⟨here, -⟩ := ends
      · rw [goes] at stuck
        cases stuck
      · rw [goes] at here
        cases here

end Cron

section At

variable {rules : ZoneRules} {after : ℤ}

lemma ZoneRules.takenIn_le (rules : ZoneRules) (reading : ℤ) : rules.takenIn reading ≤ 93599 := by
  have inside : ∀ (offset : ℤ) (jumps : List Jump),
      (stretchOf offset jumps reading).1 ∈ offset :: jumps.map Jump.offset := by
    intro offset jumps
    induction jumps generalizing offset with
    | nil => exact List.mem_cons_self ..
    | cons jump jumps ih =>
      rw [stretchOf]
      split
      · exact List.mem_cons_self ..
      · exact List.mem_cons_of_mem _ (ih jump.offset)
  exact (rules.bounded _ (inside _ _)).2

lemma atTime_inRange {date t : ℤ} {hour minute : ℕ}
    (h : rules.timeZone.atTime date hour minute = some t) : InRange t := by
  simp only [ZoneRules.timeZone, checkedAdd] at h
  split at h
  · next inRange => exact Option.some.inj h ▸ inRange
  · cases h

lemma ZoneRules.addDays_eq {start : ℤ} {days hour minute : ℕ} {t : ℤ}
    (h : rules.timeZone.atTime (start + days) hour minute = some t) :
    rules.timeZone.addDays start days = some (start + days) := by
  have inRange : InRange (rules.taken ((start + days) * 86400 + hour * 3600 + minute * 60)) := by
    have same := checkedAdd_eq_some h
    rw [add_zero] at same
    exact same ▸ atTime_inRange h
  have bounded := rules.takenIn_le ((start + days) * 86400 + hour * 3600 + minute * 60)
  refine if_pos ?_
  simp only [InRange, WallClock.taken, timestampMax] at inRange
  omega

lemma ZoneRules.weekday_lt (rules : ZoneRules) (date : ℤ) : rules.timeZone.weekday date < 7 := by
  simp only [timeZone]
  omega

def tryDate (hour minute days : ℕ) (zone : TimeZone) (after : ℤ) (offset : ℕ) : Option ℤ := do
  let date ← zone.addDays (zone.date after) offset
  if zone.weekday date < 7 && days.testBit (zone.weekday date) then
    (zone.atTime date hour minute).filter fun t => after < t
  else none

lemma nextAt_eq (hour minute days : ℕ) (zone : TimeZone) :
    nextAt hour minute days zone after =
      (List.range 8).findSome? (tryDate hour minute days zone after) := rfl

lemma tryDate_eq_some {hour minute days offset : ℕ} {t : ℤ}
    (h : tryDate hour minute days rules.timeZone after offset = some t) :
    days.testBit (rules.timeZone.weekday (rules.date after + offset)) = true ∧
      rules.timeZone.atTime (rules.date after + offset) hour minute = some t ∧ after < t := by
  obtain ⟨date, there, h⟩ := Option.bind_eq_some_iff.mp h
  have same : date = rules.date after + offset := by
    simp only [ZoneRules.timeZone] at there
    split at there
    · exact (Option.some.inj there).symm
    · cases there
  subst same
  split at h
  · next day =>
    obtain ⟨time, later⟩ := Option.filter_eq_some_iff.mp h
    exact ⟨(Bool.and_eq_true_iff.mp day).2, time, of_decide_eq_true later⟩
  · cases h

lemma nextAt_answers {hour minute days : ℕ} {anchor : Option ℤ}
    (clear : (Schedule.atTime hour minute days).Clear rules after anchor) :
    Schedule.Answers ((Schedule.atTime hour minute days).Upcoming rules after anchor)
      (nextAt hour minute days rules.timeZone after) := by
  have taken (t : ℤ) (h : (Schedule.atTime hour minute days).Upcoming rules after anchor t) :
      ∃ offset : ℕ, offset < 8 ∧
        days.testBit (rules.timeZone.weekday (rules.date after + offset)) = true ∧
        rules.timeZone.atTime (rules.date after + offset) hour minute = some t := by
    obtain ⟨later, -, date, near, day, time⟩ := h
    have notBefore : rules.date after ≤ date := by
      by_contra before
      have := (clear date t day time).1 (not_le.mp before)
      omega
    obtain ⟨offset, rfl⟩ := Int.le.dest notBefore
    exact ⟨offset, by omega, day, time⟩
  have dated {offset : ℕ} {t : ℤ}
      (day : days.testBit (rules.timeZone.weekday (rules.date after + offset)) = true)
      (time : rules.timeZone.atTime (rules.date after + offset) hour minute = some t)
      (later : after < t) : tryDate hour minute days rules.timeZone after offset = some t := by
    have there := ZoneRules.addDays_eq time
    have weekday := rules.weekday_lt (rules.date after + offset)
    have today : rules.timeZone.date after = rules.date after := rfl
    simp [tryDate, today, there, weekday, day, time, later]
  rw [nextAt_eq]
  cases found : (List.range 8).findSome? (tryDate hour minute days rules.timeZone after) with
  | none =>
    intro t upcoming
    obtain ⟨offset, small, day, time⟩ := taken t upcoming
    have missed := List.findSome?_eq_none_iff.mp found offset (List.mem_range.mpr small)
    rw [dated day time upcoming.1] at missed
    cases missed
  | some t =>
    obtain ⟨before, offset, behind, split, here, missed⟩ := List.findSome?_eq_some_iff.mp found
    obtain ⟨day, time, later⟩ := tryDate_eq_some here
    have small : offset < 8 := List.mem_range.mp (split ▸ by simp)
    refine ⟨⟨later, atTime_inRange time, _, by omega, day, time⟩, ?_⟩
    intro u upcoming
    obtain ⟨offset', small', day', time'⟩ := taken u upcoming
    have ordered : (List.range 8).Pairwise (· < ·) := List.pairwise_lt_range
    have listed := List.mem_range.mpr small'
    rw [split] at ordered listed
    obtain listed | listed := List.mem_append.mp listed
    · have := missed offset' listed
      rw [dated day' time' upcoming.1] at this
      cases this
    · obtain rfl | listed := List.mem_cons.mp listed
      · rw [time] at time'
        exact (Option.some.inj time').le
      · have next := (List.pairwise_cons.mp (List.pairwise_append.mp ordered).2.1).1 offset' listed
        exact (clear _ t day time).2 _ u (by omega) (by omega) day' time' later

end At

lemma nextEvery_answers {rules : ZoneRules} {seconds : ℕ} {after : ℤ} {anchor : Option ℤ}
    (inRange : InRange (anchor.getD after)) (passed : anchor.getD after ≤ after)
    (clear : (Schedule.every seconds).Clear rules after anchor) :
    ∃ answer, nextEvery seconds after anchor = some answer ∧
      Schedule.Answers ((Schedule.every seconds).Upcoming rules after anchor) answer := by
  simp only [InRange, timestampMin, timestampMax] at inRange
  rw [nextEvery]
  split
  · next outside =>
    refine ⟨none, rfl, ?_⟩
    rintro t ⟨later, ⟨-, high⟩, k, rfl⟩
    simp only [timestampMax] at high
    obtain rfl | huge := outside
    · simp at later
      omega
    · cases k with
      | zero =>
        simp at later
        omega
      | succ k =>
        have : (2 : ℤ) ^ 63 ≤ (k + 1 : ℕ) * seconds := by
          have : 2 ^ 63 * 1 ≤ seconds * (k + 1) := Nat.mul_le_mul huge (by omega)
          push_cast
          nlinarith
        omega
  · next inside =>
    have positive : 0 < (seconds : ℤ) := by omega
    have ahead := Int.lt_ediv_add_one_mul_self (after - anchor.getD after) positive
    have steps : 0 ≤ (after - anchor.getD after) / seconds := Int.ediv_nonneg (by omega) positive.le
    simp only [Schedule.Clear] at clear
    simp only [if_neg (not_lt.mpr (sub_nonneg.mpr passed))]
    have least (k : ℕ) (h : after < anchor.getD after + k * seconds) :
        ((after - anchor.getD after) / seconds + 1) * seconds ≤ k * seconds := by
      have : (after - anchor.getD after) / seconds < k :=
        Int.ediv_lt_of_lt_mul positive (by omega)
      exact mul_le_mul_of_nonneg_right (by omega) positive.le
    generalize hsteps : (after - anchor.getD after) / (seconds : ℤ) + 1 = count at *
    split
    · refine ⟨none, rfl, ?_⟩
      rintro t ⟨later, ⟨-, high⟩, k, rfl⟩
      have := least k later
      simp only [timestampMax] at high
      omega
    · rw [if_neg (by omega)]
      refine ⟨_, rfl, ?_⟩
      rw [checkedAdd]
      split
      · next fits =>
        refine ⟨⟨by omega, fits, count.toNat, ?_⟩, ?_⟩
        · rw [Int.toNat_of_nonneg (by omega)]
        · rintro t ⟨later, -, k, rfl⟩
          have := least k later
          omega
      · next outside =>
        rintro t ⟨later, high, k, rfl⟩
        have := least k later
        simp only [InRange, timestampMin, timestampMax] at outside high
        omega

theorem nextAfter_earliest (schedule : Schedule) (rules : ZoneRules) (after : ℤ) (anchor : Option ℤ)
    (inRange : InRange after) (anchored : ∀ a ∈ anchor, InRange a)
    (passed : ∀ seconds, schedule = .every seconds → ∀ a ∈ anchor, a ≤ after)
    (clear : schedule.Clear rules after anchor) :
    ∃ turns answer, schedule.nextAfter turns rules.timeZone after anchor = some answer ∧
      Schedule.Answers (schedule.Upcoming rules after anchor) answer := by
  cases schedule with
  | manual => exact ⟨0, none, rfl, fun t upcoming => upcoming.2.2⟩
  | every seconds =>
    have anchored : InRange (anchor.getD after) ∧ anchor.getD after ≤ after := by
      cases anchor with
      | none => exact ⟨inRange, le_rfl⟩
      | some a => exact ⟨anchored a rfl, passed seconds rfl a rfl⟩
    obtain ⟨answer, found, answers⟩ := nextEvery_answers anchored.1 anchored.2 clear
    exact ⟨0, answer, found, answers⟩
  | atTime hour minute days => exact ⟨0, _, rfl, nextAt_answers clear⟩
  | cron expression => exact nextCron_answers inRange clear

def paris : ZoneRules where
  first := 3600
  jumps := [⟨1774746000, 7200⟩]
  apart := by simp [Apart]
  bounded := by simp

def dailyAtThree : Cron := { dailyAtNine with hours := 8 }

lemma paris_offset {t : ℤ} (h : t < 1774746000) : paris.offset t = 3600 := if_pos h

lemma paris_reached {t : ℤ} (h : dailyAtThree.Reaches paris.timeZone 1774743000 t) :
    t = 1774743060 ∨ t = 1774746000 := by
  induction h with
  | first => exact .inl rfl
  | next _ _ goes ih =>
    obtain rfl | rfl := ih
    · have here : dailyAtThree.advance paris.timeZone 1774743060 = some (some 1774746000) := by decide
      rw [here] at goes
      exact .inr (Option.some.inj (Option.some.inj goes)).symm
    · have here : dailyAtThree.advance paris.timeZone 1774746000 = some none := by decide
      rw [here] at goes
      cases goes

theorem nextAfter_earliest_paris :
    ∃ turns answer, (Schedule.cron dailyAtThree).nextAfter turns paris.timeZone 1774743000 none =
        some answer ∧
      Schedule.Answers ((Schedule.cron dailyAtThree).Upcoming paris 1774743000 none) answer := by
  refine nextAfter_earliest _ _ _ _ (by decide) (by simp) (by simp) ⟨by decide, ?_, ?_⟩
  · intro v later earlier whole
    rw [WallClock.reading, paris_offset (by omega)] at whole
    omega
  · intro t reached _
    obtain rfl | rfl := paris_reached reached
    · refine ⟨1774746000, by decide, by decide, ?_⟩
      intro v later earlier _
      simp only [ZoneRules.date, ZoneRules.hour, ZoneRules.timeZone, WallClock.reading,
        paris_offset earlier, paris_offset (show (1774743060 : ℤ) < 1774746000 by decide)]
      omega
    · exact (by decide : paris.reading 1774746000 % 60 = 0)

def havana : ZoneRules where
  first := -18000
  jumps := [⟨1772946000, -14400⟩]
  apart := by simp [Apart]
  bounded := by simp

def ninthOfMarch : Cron where
  minutes := 1
  hours := 3
  daysOfMonth := 512
  months := 8
  daysOfWeek := 127
  anyDayOfMonth := false
  anyDayOfWeek := true

theorem havana_midnight_missed :
    (∃ expression, Cron.parse ['0', ' ', '0', ',', '1', ' ', '9', ' ', '3', ' ', '*'] =
        .ok expression ∧ expression.toCron = ninthOfMarch) ∧
      (Schedule.cron ninthOfMarch).nextAfter 2 havana.timeZone 1772949600 none =
        some (some 1773032400) ∧
      (Schedule.cron ninthOfMarch).Upcoming havana 1772949600 none 1773028800 ∧
      (1773028800 : ℤ) < 1773032400 := by
  refine ⟨⟨_, rfl, rfl⟩, by decide, ⟨by decide, by decide, by decide, by decide, by decide⟩,
    by decide⟩

end Sheprd.Automation
