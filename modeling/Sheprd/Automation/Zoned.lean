import Sheprd.Automation.CronExpression
import Sheprd.Lib.WallClock

namespace Sheprd.Automation

open Sheprd.Lib

structure ZoneRules extends WallClock where
  bounded : ∀ offset ∈ first :: jumps.map Jump.offset, -93599 ≤ offset ∧ offset ≤ 93599

def monthDay (date : ℤ) : ℕ × ℕ :=
  let days := date + 719468
  let inEra := days % 146097
  let year := (inEra - inEra / 1460 + inEra / 36524 - inEra / 146096) / 365
  let inYear := inEra - (365 * year + year / 4 - year / 100)
  let month := (5 * inYear + 2) / 153
  let day := inYear - (153 * month + 2) / 5 + 1
  ((if month < 10 then month + 3 else month - 9).toNat, day.toNat)

example : monthDay 0 = (1, 1) ∧ monthDay 19782 = (2, 29) ∧ monthDay (-719163) = (12, 31) := by decide

namespace ZoneRules

variable (rules : ZoneRules)

def date (t : ℤ) : ℤ := rules.reading t / 86400

def hourStart (t : ℤ) : ℤ := rules.reading t - rules.reading t % 3600

def nextMidnight (t : ℤ) : ℤ := rules.reading (rules.taken (rules.date t * 86400)) + 86400

def timeZone : TimeZone where
  date := rules.date
  addDays date days := if date + days ≤ 2932896 then some (date + days) else none
  weekday date := ((date + 3) % 7).toNat
  atTime date hour minute := checkedAdd (rules.taken (date * 86400 + hour * 3600 + minute * 60)) 0
  toZoned t :=
    let reading := rules.reading t
    { minute := (reading % 3600 / 60).toNat
      hour := (reading % 86400 / 3600).toNat
      day := (monthDay (rules.date t)).2
      month := (monthDay (rules.date t)).1
      weekday := ((rules.date t + 4) % 7).toNat }
  startOfNextDay t := do
    let _ ← checkedAdd (rules.taken (rules.date t * 86400)) 0
    checkedAdd (rules.taken (rules.nextMidnight t)) 0
  startOfNextHour t := do
    let start ← checkedAdd (rules.takenNear t (rules.hourStart t)) 0
    checkedAdd start 3600

end ZoneRules

namespace Cron

inductive Reaches (cron : Cron) (zone : TimeZone) (after : ℤ) : ℤ → Prop
  | first : InRange (after + 8808 * 3600) → InRange (after + 60) →
      InRange (after + 60 - (after + 60) % 60) →
      Reaches cron zone after (after + 60 - (after + 60) % 60)
  | next {t u : ℤ} : Reaches cron zone after t → t ≤ after + 8808 * 3600 →
      cron.advance zone t = some (some u) → Reaches cron zone after u

structure Turns (cron : Cron) (zone : TimeZone) (after t u : ℤ) : Prop where
  reached : cron.Reaches zone after t
  within : t ≤ after + 8808 * 3600
  goes : cron.advance zone t = some (some u)

end Cron

lemma checkedAdd_inRange {t seconds : ℤ} (h : InRange (t + seconds)) :
    checkedAdd t seconds = some (t + seconds) := if_pos h

lemma checkedAdd_outside {t seconds : ℤ} (h : ¬InRange (t + seconds)) :
    checkedAdd t seconds = none := if_neg h

section Search

variable {cron : Cron} {zone : TimeZone} {after : ℤ}

lemma nextCron_first (hl : InRange (after + 8808 * 3600)) (hs : InRange (after + 60))
    (hf : InRange (after + 60 - (after + 60) % 60)) (turns : ℕ) :
    nextCron turns cron zone after =
      cron.walk zone (after + 8808 * 3600) turns (after + 60 - (after + 60) % 60) := by
  have hf' : checkedAdd (after + 60 - (after + 60) % 60) 0 = some _ :=
    checkedAdd_inRange (by rwa [add_zero])
  rw [nextCron, checkedAdd_inRange hl, checkedAdd_inRange hs]
  simp only [hf', add_zero]

lemma Cron.walk_ends (forward : ∀ t u, cron.Turns zone after t u → t < u) {t : ℤ}
    (h : cron.Reaches zone after t) {turns : ℕ} (ht : after + 8808 * 3600 + 1 - t ≤ turns) :
    ∃ answer, cron.walk zone (after + 8808 * 3600) (turns + 1) t = some answer := by
  induction turns generalizing t with
  | zero =>
    rw [Cron.walk, if_neg (by omega)]
    exact ⟨none, rfl⟩
  | succ turns ih =>
    rw [Cron.walk]
    split
    · next within =>
      split
      · exact ⟨none, rfl⟩
      · exact ⟨some t, rfl⟩
      · next u goes =>
        have := forward t u ⟨h, within, goes⟩
        exact ih (h.next within goes) (by omega)
    · exact ⟨none, rfl⟩

lemma nextCron_ends (forward : ∀ t u, cron.Turns zone after t u → t < u) :
    ∃ turns answer, nextCron turns cron zone after = some answer := by
  by_cases hl : InRange (after + 8808 * 3600)
  · by_cases hs : InRange (after + 60)
    · by_cases hf : InRange (after + 60 - (after + 60) % 60)
      · obtain ⟨answer, h⟩ := Cron.walk_ends forward (.first hl hs hf) (Int.self_le_toNat _)
        exact ⟨_, answer, (nextCron_first hl hs hf _).trans h⟩
      · have hf' : checkedAdd (after + 60 - (after + 60) % 60) 0 = none :=
          checkedAdd_outside (by rwa [add_zero])
        refine ⟨0, none, ?_⟩
        rw [nextCron, checkedAdd_inRange hl, checkedAdd_inRange hs]
        simp only [hf']
    · exact ⟨0, none, by rw [nextCron, checkedAdd_inRange hl, checkedAdd_outside hs]⟩
  · exact ⟨0, none, by rw [nextCron, checkedAdd_outside hl]⟩

end Search

def Cron.Clear (cron : Cron) (rules : ZoneRules) (t : ℤ) : Prop :=
  let zoned := rules.timeZone.toZoned t
  if cron.matchesDay zoned.day zoned.month zoned.weekday = false then
    ∀ time, rules.endOf (rules.nextMidnight t) = some time → t < time
  else if hasBit cron.hours zoned.hour = false then
    rules.offset (rules.hourStart t - rules.offset t) = rules.offset t ∨
      rules.takenIn (rules.hourStart t) - rules.offset t < rules.hourStart t + 3600 - rules.reading t
  else True

section Rules

variable {rules : ZoneRules} {cron : Cron} {after t u : ℤ}

namespace ZoneRules

lemma lt_nextMidnight (rules : ZoneRules) (t : ℤ) : rules.reading t < rules.nextMidnight t := by
  have start : rules.date t * 86400 ≤ rules.reading (rules.taken (rules.date t * 86400)) :=
    WallClock.le_reading_taken _
  have whole : rules.date t = rules.reading t / 86400 := rfl
  rw [nextMidnight]
  omega

lemma startOfNextDay_eq (h : rules.timeZone.startOfNextDay t = some u) :
    u = rules.taken (rules.nextMidnight t) := by
  obtain ⟨-, -, h⟩ := Option.bind_eq_some_iff.mp h
  rw [checkedAdd_eq_some h, add_zero]

lemma startOfNextHour_eq (h : rules.timeZone.startOfNextHour t = some u) :
    u = rules.takenNear t (rules.hourStart t) + 3600 := by
  obtain ⟨start, hs, h⟩ := Option.bind_eq_some_iff.mp h
  rw [checkedAdd_eq_some h, checkedAdd_eq_some hs, add_zero]

lemma lt_nextDay_iff (h : rules.timeZone.startOfNextDay t = some u) :
    t < u ↔ ∀ time, rules.endOf (rules.nextMidnight t) = some time → t < time := by
  rw [startOfNextDay_eq h]
  exact WallClock.lt_taken_iff (rules.lt_nextMidnight t)

lemma lt_nextHour_iff (h : rules.timeZone.startOfNextHour t = some u) :
    t < u ↔ rules.offset (rules.hourStart t - rules.offset t) = rules.offset t ∨
      rules.takenIn (rules.hourStart t) - rules.offset t <
        rules.hourStart t + 3600 - rules.reading t := by
  have reads : rules.reading t = t + rules.offset t := rfl
  have begun : rules.hourStart t = rules.reading t - rules.reading t % 3600 := rfl
  rw [startOfNextHour_eq h, WallClock.takenNear]
  split
  · next same =>
    simp only [same, true_or, iff_true]
    omega
  · next changed =>
    simp only [changed, false_or, WallClock.taken]
    omega

end ZoneRules

lemma Cron.lt_iff_clear (h : cron.advance rules.timeZone t = some (some u)) :
    t < u ↔ cron.Clear rules t := by
  simp only [Cron.advance, Bool.not_eq_true'] at h
  simp only [Cron.Clear]
  split_ifs at h ⊢
  · obtain ⟨v, hv, he⟩ := Option.map_eq_some_iff.mp h
    exact Option.some.inj he ▸ ZoneRules.lt_nextDay_iff hv
  · obtain ⟨v, hv, he⟩ := Option.map_eq_some_iff.mp h
    exact Option.some.inj he ▸ ZoneRules.lt_nextHour_iff hv
  · obtain ⟨v, hv, he⟩ := Option.map_eq_some_iff.mp h
    have := checkedAdd_eq_some hv
    rw [← Option.some.inj he]
    simp
    omega
  · cases h

theorem search_goes_forward_iff (cron : Cron) (rules : ZoneRules) (after : ℤ) :
    ((∀ t u, cron.Turns rules.timeZone after t u → t < u) ∧
        ∃ turns answer, nextCron turns cron rules.timeZone after = some answer) ↔
      ∀ t u, cron.Turns rules.timeZone after t u → cron.Clear rules t := by
  constructor
  · intro ⟨forward, _⟩ t u turn
    exact (Cron.lt_iff_clear turn.goes).mp (forward t u turn)
  · intro clear
    have forward (t u : ℤ) (turn : cron.Turns rules.timeZone after t u) : t < u :=
      (Cron.lt_iff_clear turn.goes).mpr (clear t u turn)
    exact ⟨forward, nextCron_ends forward⟩

end Rules

def lordHowe : ZoneRules where
  first := 39600
  jumps := [⟨1775314800, 37800⟩]
  apart := by simp [Apart]
  bounded := by simp

def dailyAtNine : Cron where
  minutes := 1
  hours := 512
  daysOfMonth := 4294967294
  months := 8190
  daysOfWeek := 127
  anyDayOfMonth := true
  anyDayOfWeek := true

lemma lordHowe_stays : dailyAtNine.advance lordHowe.timeZone 1775314800 = some (some 1775314800) := by
  decide

theorem lordHowe_search_stays :
    (∃ expression, Cron.parse ['0', ' ', '9', ' ', '*', ' ', '*', ' ', '*'] = .ok expression ∧
        expression.toCron = dailyAtNine) ∧
      dailyAtNine.Turns lordHowe.timeZone 1775314740 1775314800 1775314800 ∧
      ∀ turns, nextCron turns dailyAtNine lordHowe.timeZone 1775314740 = none := by
  refine ⟨⟨_, rfl, rfl⟩, ⟨.first (by decide) (by decide) (by decide), by decide, lordHowe_stays⟩, ?_⟩
  intro turns
  rw [nextCron_first (by decide) (by decide) (by decide)]
  induction turns with
  | zero => rfl
  | succ turns ih =>
    rw [Cron.walk, if_pos (by decide)]
    simp only [show (1775314740 : ℤ) + 60 - (1775314740 + 60) % 60 = 1775314800 from rfl] at ih ⊢
    rw [lordHowe_stays]
    exact ih

end Sheprd.Automation
