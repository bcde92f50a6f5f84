import Mathlib.Tactic

namespace Sheprd.Automation

def lateAfter : ℤ := 120
def missedWalk : ℕ := 10000
def missedPasses : ℕ := 32

def timestampMin : ℤ := -377705023201
def timestampMax : ℤ := 253402207200

def InRange (t : ℤ) : Prop := timestampMin ≤ t ∧ t ≤ timestampMax

instance (t : ℤ) : Decidable (InRange t) := inferInstanceAs (Decidable (_ ∧ _))

def checkedAdd (t seconds : ℤ) : Option ℤ :=
  if InRange (t + seconds) then some (t + seconds) else none

structure LocalTime where
  minute : ℕ
  hour : ℕ
  day : ℕ
  month : ℕ
  weekday : ℕ

structure TimeZone where
  date : ℤ → ℤ
  addDays : ℤ → ℕ → Option ℤ
  weekday : ℤ → ℕ
  atTime : ℤ → ℕ → ℕ → Option ℤ
  toZoned : ℤ → LocalTime
  startOfNextDay : ℤ → Option ℤ
  startOfNextHour : ℤ → Option ℤ

def hasBit (set value : ℕ) : Bool := value < 64 && set.testBit value

structure Cron where
  minutes : ℕ
  hours : ℕ
  daysOfMonth : ℕ
  months : ℕ
  daysOfWeek : ℕ
  anyDayOfMonth : Bool
  anyDayOfWeek : Bool

def Cron.matchesDay (cron : Cron) (day month weekday : ℕ) : Bool :=
  let dayOfMonth := hasBit cron.daysOfMonth day
  let dayOfWeek := hasBit cron.daysOfWeek weekday
  let dayMatches := match cron.anyDayOfMonth, cron.anyDayOfWeek with
    | true, true => true
    | true, false => dayOfWeek
    | false, true => dayOfMonth
    | false, false => dayOfMonth || dayOfWeek
  hasBit cron.months month && dayMatches

inductive Schedule where
  | atTime (hour minute days : ℕ)
  | cron (expression : Cron)
  | every (seconds : ℕ)
  | manual

def Cron.advance (cron : Cron) (zone : TimeZone) (t : ℤ) : Option (Option ℤ) :=
  let zoned := zone.toZoned t
  if !cron.matchesDay zoned.day zoned.month zoned.weekday then (zone.startOfNextDay t).map some
  else if !hasBit cron.hours zoned.hour then (zone.startOfNextHour t).map some
  else if !hasBit cron.minutes zoned.minute then (checkedAdd t 60).map some
  else some none

lemma checkedAdd_eq_some {t seconds u : ℤ} (h : checkedAdd t seconds = some u) :
    u = t + seconds := by
  rw [checkedAdd] at h
  split at h
  · exact (Option.some.inj h).symm
  · exact absurd h (by simp)

def Cron.walk (cron : Cron) (zone : TimeZone) (limit : ℤ) : ℕ → ℤ → Option (Option ℤ)
  | 0, _ => none
  | turns + 1, t =>
      if t ≤ limit then
        match cron.advance zone t with
        | none => some none
        | some none => some (some t)
        | some (some u) => cron.walk zone limit turns u
      else some none

def nextCron (turns : ℕ) (cron : Cron) (zone : TimeZone) (after : ℤ) : Option (Option ℤ) :=
  match checkedAdd after (8808 * 3600), checkedAdd after 60 with
  | some limit, some start =>
      match checkedAdd (start - start % 60) 0 with
      | some first => cron.walk zone limit turns first
      | none => some none
  | _, _ => some none

def spanMax : ℤ := 631107417600

def nextEvery (seconds : ℕ) (after : ℤ) (anchor : Option ℤ) : Option (Option ℤ) :=
  if seconds = 0 ∨ 2 ^ 63 ≤ seconds then some none
  else
    let step : ℤ := seconds
    let anchor := anchor.getD after
    let behind := after - anchor
    let steps := if behind < 0 then 1 else behind / step + 1
    if 2 ^ 63 ≤ steps * step then some none
    else if spanMax < steps * step then none
    else some (checkedAdd anchor (steps * step))

def nextAt (hour minute days : ℕ) (zone : TimeZone) (after : ℤ) : Option ℤ :=
  (List.range 8).findSome? fun offset => do
    let date ← zone.addDays (zone.date after) offset
    if zone.weekday date < 7 && days.testBit (zone.weekday date) then
      (zone.atTime date hour minute).filter fun t => after < t
    else none

def Schedule.nextAfter (turns : ℕ) (schedule : Schedule) (zone : TimeZone) (after : ℤ)
    (anchor : Option ℤ) : Option (Option ℤ) :=
  match schedule with
  | .manual => some none
  | .every seconds => nextEvery seconds after anchor
  | .atTime hour minute days => some (nextAt hour minute days zone after)
  | .cron expression => nextCron turns expression zone after

structure Due where
  scheduled : ℤ
  late : Bool

structure Walk where
  latest : Option ℤ
  after : ℤ
  anchor : Option ℤ
  walked : ℕ

def Walk.found (w : Walk) (next : ℤ) : Walk := ⟨some next, next, some next, w.walked + 1⟩

def walkMissed (turns : ℕ) (schedule : Schedule) (zone : TimeZone) (now : ℤ) :
    ℕ → Walk → Option Walk
  | 0, w => some w
  | n + 1, w =>
      match schedule.nextAfter turns zone w.after w.anchor with
      | none => none
      | some none => some w
      | some (some next) =>
          if now < next then some w else walkMissed turns schedule zone now n (w.found next)

def restart (now start after : ℤ) : ℤ :=
  let left := now - after
  let span := after - start
  let skip := max (left - span.tdiv 2) 0
  (checkedAdd after skip).getD after

def walkPasses (turns : ℕ) (schedule : Schedule) (zone : TimeZone) (now : ℤ) :
    ℕ → Walk → Option Walk
  | 0, w => some w
  | n + 1, w =>
      match walkMissed turns schedule zone now missedWalk { w with walked := 0 } with
      | none => none
      | some passed =>
          if passed.walked < missedWalk then some passed
          else
            walkPasses turns schedule zone now n
              { passed with after := restart now w.after passed.after }

section Passes

variable {turns n : ℕ} {schedule : Schedule} {zone : TimeZone} {now : ℤ} {w passed : Walk}

lemma walkPasses_done
    (ran : walkMissed turns schedule zone now missedWalk { w with walked := 0 } = some passed)
    (few : passed.walked < missedWalk) :
    walkPasses turns schedule zone now (n + 1) w = some passed := by
  rw [walkPasses, ran]
  exact if_pos few

lemma walkPasses_again
    (ran : walkMissed turns schedule zone now missedWalk { w with walked := 0 } = some passed)
    (full : ¬passed.walked < missedWalk) :
    walkPasses turns schedule zone now (n + 1) w =
      walkPasses turns schedule zone now n
        { passed with after := restart now w.after passed.after } := by
  rw [walkPasses, ran]
  exact if_neg full

end Passes

def due (turns : ℕ) (schedule : Schedule) (zone : TimeZone) (checked : ℤ) (anchor : Option ℤ)
    (now : ℤ) : Option (Option Due) :=
  (walkPasses turns schedule zone now missedPasses ⟨none, checked, anchor, 0⟩).map fun walk =>
    walk.latest.map fun scheduled => ⟨scheduled, decide (lateAfter < now - scheduled)⟩

structure TimeZone.Forward (zone : TimeZone) (since : ℤ) : Prop where
  nextDay : ∀ t u, since ≤ t → zone.startOfNextDay t = some u → t < u
  nextHour : ∀ t u, since ≤ t → zone.startOfNextHour t = some u → t < u

def Schedule.Forward (schedule : Schedule) (zone : TimeZone) (since : ℤ) : Prop :=
  match schedule with
  | .cron _ => zone.Forward since
  | _ => True

section Forward

variable {zone : TimeZone} {since : ℤ} {turns : ℕ}

lemma Cron.advance_later (hz : zone.Forward since) {cron : Cron} {t u : ℤ} (ht : since ≤ t)
    (h : cron.advance zone t = some (some u)) : t < u := by
  simp only [Cron.advance] at h
  split_ifs at h with hd hh hm
  · obtain ⟨v, hv, he⟩ := Option.map_eq_some_iff.mp h
    exact Option.some.inj he ▸ hz.nextDay t v ht hv
  · obtain ⟨v, hv, he⟩ := Option.map_eq_some_iff.mp h
    exact Option.some.inj he ▸ hz.nextHour t v ht hv
  · obtain ⟨v, hv, he⟩ := Option.map_eq_some_iff.mp h
    have := checkedAdd_eq_some hv
    rw [← Option.some.inj he]
    omega
  · exact absurd h (by simp)

lemma Cron.walk_le (hz : zone.Forward since) {cron : Cron} {limit t u : ℤ} (ht : since ≤ t)
    (h : cron.walk zone limit turns t = some (some u)) : t ≤ u := by
  induction turns generalizing t with
  | zero => exact absurd h (by simp [Cron.walk])
  | succ turns ih =>
    rw [Cron.walk] at h
    split at h
    · split at h
      · exact absurd h (by simp)
      · exact (Option.some.inj (Option.some.inj h)).le
      · rename_i v hv
        have hlater := Cron.advance_later hz ht hv
        exact hlater.le.trans (ih (ht.trans hlater.le) h)
    · exact absurd h (by simp)

lemma nextCron_later (hz : zone.Forward since) {cron : Cron} {after t : ℤ} (ha : since ≤ after)
    (h : nextCron turns cron zone after = some (some t)) : after < t := by
  rw [nextCron] at h
  split at h
  · rename_i limit start hl hs
    split at h
    · rename_i first hf
      have h1 := checkedAdd_eq_some hs
      have h2 := checkedAdd_eq_some hf
      have h3 := Cron.walk_le hz (by omega) h
      omega
    · exact absurd h (by simp)
  · exact absurd h (by simp)

end Forward

lemma nextEvery_later {seconds : ℕ} {after t : ℤ} {anchor : Option ℤ}
    (h : nextEvery seconds after anchor = some (some t)) : after < t := by
  rw [nextEvery] at h
  split at h
  · exact absurd h (by simp)
  · rename_i hs
    have hstep : 0 < (seconds : ℤ) := by omega
    have hadd : ∀ steps : ℤ, (if 2 ^ 63 ≤ steps * (seconds : ℤ) then some none
        else if spanMax < steps * (seconds : ℤ) then none
        else some (checkedAdd (anchor.getD after) (steps * seconds))) = some (some t) →
        t = anchor.getD after + steps * seconds := by
      intro steps ha
      split_ifs at ha
      · exact absurd ha (by simp)
      · exact checkedAdd_eq_some (Option.some.inj ha)
    have ht := hadd _ h
    by_cases hb : after - anchor.getD after < 0
    · rw [if_pos hb] at ht
      omega
    · rw [if_neg hb] at ht
      have hdiv := Int.lt_ediv_add_one_mul_self (after - anchor.getD after) hstep
      omega

lemma nextAt_later {hour minute days : ℕ} {zone : TimeZone} {after t : ℤ}
    (h : nextAt hour minute days zone after = some t) : after < t := by
  obtain ⟨offset, -, h⟩ := List.exists_of_findSome?_eq_some h
  obtain ⟨date, -, h⟩ := Option.bind_eq_some_iff.mp h
  split at h
  · exact of_decide_eq_true (Option.filter_eq_some_iff.mp h).2
  · exact absurd h (by simp)

lemma Schedule.nextAfter_later {turns : ℕ} {schedule : Schedule} {zone : TimeZone}
    {since : ℤ} (hz : schedule.Forward zone since) {after t : ℤ} {anchor : Option ℤ}
    (ha : since ≤ after) (h : schedule.nextAfter turns zone after anchor = some (some t)) : after < t := by
  cases schedule with
  | atTime hour minute days => exact nextAt_later (Option.some.inj h)
  | cron expression => exact nextCron_later hz ha h
  | every seconds => exact nextEvery_later h
  | manual => exact absurd h (by simp [nextAfter])

structure Walk.Between (checked now : ℤ) (w : Walk) : Prop where
  after : checked ≤ w.after
  latest : ∀ t, w.latest = some t → checked < t ∧ t ≤ now

section Between

variable {turns : ℕ} {schedule : Schedule} {zone : TimeZone} {checked now : ℤ} {w passed : Walk}

lemma walkMissed_between (hz : schedule.Forward zone checked) (n : ℕ) (h : w.Between checked now)
    (hw : walkMissed turns schedule zone now n w = some passed) : passed.Between checked now := by
  induction n generalizing w with
  | zero => exact Option.some.inj hw ▸ h
  | succ n ih =>
    rw [walkMissed] at hw
    split at hw
    · exact absurd hw (by simp)
    · exact Option.some.inj hw ▸ h
    · rename_i next hn
      have hafter := h.after
      have hlater := Schedule.nextAfter_later hz hafter hn
      split at hw
      · exact Option.some.inj hw ▸ h
      · rename_i hnow
        refine ih ⟨hafter.trans hlater.le, ?_⟩ hw
        intro t ht
        obtain rfl := Option.some.inj ht
        omega

lemma restart_le (now start after : ℤ) : after ≤ restart now start after := by
  simp only [restart]
  cases hc : checkedAdd after (max (now - after - (after - start).tdiv 2) 0) with
  | none => exact le_rfl
  | some t =>
    have := checkedAdd_eq_some hc
    rw [Option.getD_some]
    omega

lemma walkPasses_between (hz : schedule.Forward zone checked) (n : ℕ) (h : w.Between checked now)
    (hw : walkPasses turns schedule zone now n w = some passed) : passed.Between checked now := by
  induction n generalizing w with
  | zero => exact Option.some.inj hw ▸ h
  | succ n ih =>
    rw [walkPasses] at hw
    split at hw
    · exact absurd hw (by simp)
    · rename_i pass hpass
      have hstart : Walk.Between checked now { w with walked := 0 } := ⟨h.after, h.latest⟩
      have hp := walkMissed_between hz missedWalk hstart hpass
      split at hw
      · exact Option.some.inj hw ▸ hp
      · have hnext : Walk.Between checked now
            { pass with after := restart now w.after pass.after } :=
          ⟨hp.after.trans (restart_le _ _ _), hp.latest⟩
        exact ih hnext hw

lemma due_between (hz : schedule.Forward zone checked) {anchor : Option ℤ} {d : Due}
    (h : due turns schedule zone checked anchor now = some (some d)) :
    checked < d.scheduled ∧ d.scheduled ≤ now := by
  obtain ⟨walk, hw, hd⟩ := Option.map_eq_some_iff.mp h
  obtain ⟨t, ht, rfl⟩ := Option.map_eq_some_iff.mp hd
  exact (walkPasses_between hz missedPasses ⟨le_rfl, by simp⟩ hw).latest t ht

end Between

end Sheprd.Automation
