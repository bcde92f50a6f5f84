import Sheprd.Automation.NextAfter

namespace Sheprd.Automation

open Sheprd.Lib

def Schedule.Occurs (rules : ZoneRules) (checked : ℤ) (anchor : Option ℤ) (schedule : Schedule)
    (t : ℤ) : Prop :=
  match schedule with
  | manual => False
  | every seconds => ∃ k : ℕ, 0 < k ∧ t = anchor.getD checked + k * seconds
  | atTime hour minute days =>
      ∃ date, days.testBit (rules.timeZone.weekday date) = true ∧
        rules.timeZone.atTime date hour minute = some t
  | cron expression => expression.Fires rules t

def Tells (Occurs : ℤ → Prop) (now after : ℤ) : Option ℤ → Prop
  | none => ∀ t, Occurs t → after < t → now < t
  | some next => (next ≤ now → Occurs next ∧ after < next) ∧
      ∀ t, Occurs t → after < t → t ≤ now → next ≤ t

def Latest (Occurs : ℤ → Prop) (checked now : ℤ) : Option Due → Prop
  | none => ∀ t, Occurs t → checked < t → ¬t ≤ now
  | some d => IsGreatest { t | Occurs t ∧ checked < t ∧ t ≤ now } d.scheduled ∧
      (d.late = true ↔ lateAfter < now - d.scheduled)

section Passes

variable (turns : ℕ) (schedule : Schedule) (zone : TimeZone) (now : ℤ)

inductive Asked (checked : ℤ) (anchor : Option ℤ) : ℤ → Walk → Prop
  | first : Asked checked anchor checked ⟨none, checked, anchor, 0⟩
  | found {start next : ℤ} {w : Walk} : Asked checked anchor start w → w.walked < missedWalk →
      schedule.nextAfter turns zone w.after w.anchor = some (some next) → next ≤ now →
      Asked checked anchor start (w.found next)
  | again {start : ℤ} {w : Walk} : Asked checked anchor start w → w.walked = missedWalk →
      Asked checked anchor (restart now start w.after)
        { w with after := restart now start w.after, walked := 0 }

def SkipsSafely (Occurs : ℤ → Prop) : ℕ → Walk → Prop
  | 0, _ => True
  | n + 1, w =>
      match walkMissed turns schedule zone now missedWalk { w with walked := 0 } with
      | none => True
      | some passed =>
          let next := restart now w.after passed.after
          passed.walked < missedWalk ∨
            ((∃ t, Occurs t ∧ next < t ∧ t ≤ now) ∨ ∀ t, Occurs t → passed.after < t → next < t) ∧
              SkipsSafely Occurs n { passed with after := next }

end Passes

lemma restart_eq {now start after : ℤ} (low : InRange after) (high : InRange now)
    (begun : start ≤ after) :
    restart now start after = max (now - (after - start) / 2) after := by
  have half : (after - start).tdiv 2 = (after - start) / 2 :=
    Int.tdiv_eq_ediv_of_nonneg (by omega)
  have inside : InRange (after + max (now - after - (after - start) / 2) 0) := by
    simp only [InRange] at *
    omega
  simp only [restart, half, checkedAdd_inRange inside, Option.getD_some]
  omega

section Latest

variable {turns : ℕ} {schedule : Schedule} {zone : TimeZone} {now checked : ℤ}
  {anchor : Option ℤ} {Occurs : ℤ → Prop} {start : ℤ} {w : Walk}

structure Paced (Occurs : ℤ → Prop) (checked now start : ℤ) (w : Walk) : Prop where
  base : checked ≤ start
  upTo : w.after ≤ now
  inRange : InRange w.after
  count : w.walked ≤ w.after - start
  idle : w.walked = 0 → w.after = start
  last : 0 < w.walked → Occurs w.after ∧ w.latest = some w.after
  sound : ∀ l, w.latest = some l → Occurs l ∧ checked < l ∧ l ≤ w.after

lemma Paced.begun (h : Paced Occurs checked now start w) : start ≤ w.after := by
  have := h.count
  omega

lemma Paced.found (h : Paced Occurs checked now start w) {next : ℤ} (high : InRange now)
    (upTo : next ≤ now) (occurs : Occurs next) (later : w.after < next) :
    Paced Occurs checked now start (w.found next) := by
  have base := h.base
  have begun := h.begun
  have count := h.count
  have inRange := h.inRange
  refine ⟨base, upTo, ?_, ?_, nofun, fun _ => ⟨occurs, rfl⟩, ?_⟩
  · simp only [InRange, Walk.found] at *
    omega
  · simp only [Walk.found]
    omega
  · intro l hl
    obtain rfl := Option.some.inj hl
    exact ⟨occurs, by omega, le_rfl⟩

lemma Paced.again (h : Paced Occurs checked now start w) (high : InRange now) :
    Paced Occurs checked now (restart now start w.after)
      { w with after := restart now start w.after, walked := 0 } := by
  have base := h.base
  have begun := h.begun
  have upTo := h.upTo
  have inRange := h.inRange
  have next := restart_eq inRange high begun
  refine ⟨by omega, ?_, ?_, by simp, fun _ => rfl, nofun, ?_⟩
  · simp only
    omega
  · simp only [InRange] at *
    omega
  · intro l hl
    obtain ⟨occurs, later, earlier⟩ := h.sound l hl
    refine ⟨occurs, later, ?_⟩
    simp only
    omega

variable (told : ∀ start w, Asked turns schedule zone now checked anchor start w →
  w.walked < missedWalk → ∃ answer, schedule.nextAfter turns zone w.after w.anchor = some answer ∧
    Tells Occurs now w.after answer)

include told in
lemma Asked.paced (low : InRange checked) (high : InRange now) (before : checked ≤ now)
    (h : Asked turns schedule zone now checked anchor start w) :
    Paced Occurs checked now start w := by
  induction h with
  | first => exact ⟨le_rfl, before, low, by simp, fun _ => rfl, nofun, nofun⟩
  | found h more asked upTo ih =>
    obtain ⟨answer, same, tells⟩ := told _ _ h more
    rw [asked, Option.some.injEq] at same
    subst same
    obtain ⟨occurs, later⟩ := tells.1 upTo
    exact ih.found high upTo occurs later
  | again h _ ih => exact ih.again high

include told in
lemma walkMissed_asked (n : ℕ) (h : Asked turns schedule zone now checked anchor start w)
    (hn : w.walked + n = missedWalk) :
    ∃ passed, walkMissed turns schedule zone now n w = some passed ∧
      Asked turns schedule zone now checked anchor start passed ∧
      (passed = w ∨ w.walked < passed.walked) ∧
      (passed.walked = missedWalk ∨
        passed.walked < missedWalk ∧ ∀ t, Occurs t → passed.after < t → now < t) := by
  induction n generalizing w with
  | zero => exact ⟨w, rfl, h, .inl rfl, .inl (by omega)⟩
  | succ n ih =>
    have more : w.walked < missedWalk := by omega
    obtain ⟨answer, asked, tells⟩ := told _ _ h more
    rw [walkMissed, asked]
    cases answer with
    | none => exact ⟨w, rfl, h, .inl rfl, .inr ⟨more, tells⟩⟩
    | some next =>
      simp only
      split
      · next past =>
        refine ⟨w, rfl, h, .inl rfl, .inr ⟨more, fun t occurs later => ?_⟩⟩
        by_contra upTo
        have := tells.2 t occurs later (not_lt.mp upTo)
        omega
      · next upTo =>
        have count : (w.found next).walked = w.walked + 1 := rfl
        obtain ⟨passed, ran, asked', moved, ended⟩ :=
          ih (h.found more asked (not_lt.mp upTo)) (by omega)
        refine ⟨passed, ran, asked', .inr ?_, ended⟩
        obtain rfl | moved := moved
        · omega
        · omega

include told in
lemma skipsSafely_of_now (low : InRange checked) (high : InRange now) (before : checked ≤ now)
    (occurs : Occurs now) (n : ℕ) (h : Asked turns schedule zone now checked anchor start { w with walked := 0 }) :
    SkipsSafely turns schedule zone now Occurs n w := by
  induction n generalizing w start with
  | zero => trivial
  | succ n ih =>
    have same : w.after = start := (h.paced told low high before).idle rfl
    obtain ⟨passed, ran, asked, -, ended⟩ := walkMissed_asked told missedWalk h (Nat.zero_add _)
    have paced := asked.paced told low high before
    rw [SkipsSafely, ran]
    obtain full | ⟨few, -⟩ := ended
    · have next := restart_eq paced.inRange high paced.begun
      have upTo := paced.upTo
      rw [← same] at next asked
      refine .inr ⟨?_, ih (asked.again full)⟩
      by_cases past : restart now w.after passed.after < now
      · exact .inl ⟨now, occurs, past, le_rfl⟩
      · refine .inr fun t _ later => ?_
        have count := paced.count
        rw [full] at count
        simp only [missedWalk] at count
        omega
    · exact .inl few

def Caught (Occurs : ℤ → Prop) (checked : ℤ) (latest : Option ℤ) (upTo : ℤ) : Prop :=
  ∀ t, Occurs t → checked < t → t ≤ upTo → ∃ l, latest = some l ∧ t ≤ l

lemma caught_last {l upTo : ℤ} (none_after : ∀ t, Occurs t → l < t → t ≤ upTo → False) :
    Caught Occurs checked (some l) upTo := by
  intro t occurs _ upTo
  refine ⟨l, rfl, ?_⟩
  by_contra later
  exact none_after t occurs (not_le.mp later) upTo

lemma caught_skip_iff {l next : ℤ} (later : checked < l) :
    Caught Occurs checked (some l) next ↔ ∀ t, Occurs t → l < t → next < t := by
  constructor
  · intro caught t occurs after_l
    by_contra upTo
    obtain ⟨_, same, le⟩ := caught t occurs (later.trans after_l) (not_lt.mp upTo)
    obtain rfl := Option.some.inj same
    omega
  · intro none_skipped
    refine caught_last fun t occurs after_l upTo => ?_
    have := none_skipped t occurs after_l
    omega

lemma Paced.caught_iff {passed : Walk} (h : Paced Occurs checked now w.after passed)
    (moved : passed = { w with walked := 0 } ∨ 0 < passed.walked)
    (ended : ∀ t, Occurs t → passed.after < t → now < t) :
    Caught Occurs checked passed.latest now ↔
      (∃ t, Occurs t ∧ w.after < t ∧ t ≤ now) ∨ Caught Occurs checked w.latest w.after := by
  have upTo := h.upTo
  obtain rfl | moved := moved
  · constructor
    · intro caught
      exact .inr fun t occurs later earlier => caught t occurs later (earlier.trans upTo)
    · rintro (⟨t, occurs, later, earlier⟩ | caught) t' occurs' later' earlier'
      · have := ended t occurs later
        omega
      · refine caught t' occurs' later' ?_
        by_contra past
        have := ended t' occurs' (not_le.mp past)
        omega
  · have count := h.count
    obtain ⟨occurs, latest⟩ := h.last moved
    constructor
    · exact fun _ => .inl ⟨passed.after, occurs, by omega, upTo⟩
    · intro _
      rw [latest]
      refine caught_last fun t occurs' later earlier => ?_
      have := ended t occurs' later
      omega

lemma skipsSafely_full {n : ℕ} {passed : Walk}
    (ran : walkMissed turns schedule zone now missedWalk { w with walked := 0 } = some passed)
    (full : passed.walked = missedWalk) :
    SkipsSafely turns schedule zone now Occurs (n + 1) w ↔
      ((∃ t, Occurs t ∧ restart now w.after passed.after < t ∧ t ≤ now) ∨
          ∀ t, Occurs t → passed.after < t → restart now w.after passed.after < t) ∧
        SkipsSafely turns schedule zone now Occurs n
          { passed with after := restart now w.after passed.after } := by
  rw [SkipsSafely, ran]
  simp only [full, lt_irrefl, false_or]

lemma walkPasses_ended (n : ℕ) {passed : Walk}
    (ran : walkMissed turns schedule zone now missedWalk { w with walked := 0 } = some passed)
    (walked : Paced Occurs checked now w.after passed)
    (moved : passed = { w with walked := 0 } ∨ 0 < passed.walked)
    (few : passed.walked < missedWalk) (ended : ∀ t, Occurs t → passed.after < t → now < t) :
    ∃ final, walkPasses turns schedule zone now (n + 1) w = some final ∧
      (∀ l, final.latest = some l → Occurs l ∧ checked < l ∧ l ≤ now) ∧
      (Caught Occurs checked final.latest now ↔
        ((∃ t, Occurs t ∧ w.after < t ∧ t ≤ now) ∨ Caught Occurs checked w.latest w.after) ∧
          SkipsSafely turns schedule zone now Occurs (n + 1) w) := by
  refine ⟨passed, walkPasses_done ran few, ?_, ?_⟩
  · intro l hl
    obtain ⟨occurs, later, earlier⟩ := walked.sound l hl
    exact ⟨occurs, later, earlier.trans walked.upTo⟩
  · rw [walked.caught_iff moved ended, SkipsSafely, ran]
    simp only [few, true_or, and_true]

include told in
lemma walkPasses_caught (low : InRange checked) (high : InRange now) (before : checked ≤ now) (n : ℕ)
    (h : Asked turns schedule zone now checked anchor start { w with walked := 0 })
    (enough : 2 * (now - w.after) < missedWalk * 2 ^ (n + 1)) :
    ∃ final, walkPasses turns schedule zone now (n + 1) w = some final ∧
      (∀ l, final.latest = some l → Occurs l ∧ checked < l ∧ l ≤ now) ∧
      (Caught Occurs checked final.latest now ↔
        ((∃ t, Occurs t ∧ w.after < t ∧ t ≤ now) ∨ Caught Occurs checked w.latest w.after) ∧
          SkipsSafely turns schedule zone now Occurs (n + 1) w) := by
  induction n generalizing start w with
  | zero =>
    obtain rfl : w.after = start := (h.paced told low high before).idle rfl
    obtain ⟨passed, ran, asked, moved, ended⟩ := walkMissed_asked told missedWalk h (by simp)
    have walked := asked.paced told low high before
    have count := walked.count
    have upTo := walked.upTo
    obtain full | ⟨few, ended⟩ := ended
    · omega
    · exact walkPasses_ended _ ran walked moved few ended
  | succ n ih =>
    obtain rfl : w.after = start := (h.paced told low high before).idle rfl
    obtain ⟨passed, ran, asked, moved, ended⟩ := walkMissed_asked told missedWalk h (by simp)
    have walked := asked.paced told low high before
    have count := walked.count
    have upTo := walked.upTo
    obtain full | ⟨few, ended⟩ := ended
    · have next := restart_eq walked.inRange high walked.begun
      obtain ⟨occurs, latest⟩ := walked.last (by rw [full]; decide)
      obtain ⟨-, later, -⟩ := walked.sound _ latest
      obtain ⟨final, ran', sound, caught⟩ :=
        @ih _ { passed with after := restart now w.after passed.after } (asked.again full) (by
          rw [pow_succ, ← mul_assoc] at enough
          simp only
          omega)
      refine ⟨final, ?_, sound, ?_⟩
      · rw [walkPasses_again ran (by omega)]
        exact ran'
      · have found : ∃ t, Occurs t ∧ w.after < t ∧ t ≤ now :=
          ⟨passed.after, occurs, by rw [full, missedWalk] at count; omega, upTo⟩
        rw [caught, skipsSafely_full ran full]
        simp only [found, true_or, true_and, latest, caught_skip_iff later]
    · exact walkPasses_ended _ ran walked moved few ended

lemma latest_iff_caught {latest : Option ℤ}
    (sound : ∀ l, latest = some l → Occurs l ∧ checked < l ∧ l ≤ now) :
    Latest Occurs checked now (latest.map fun scheduled =>
        ⟨scheduled, decide (lateAfter < now - scheduled)⟩) ↔
      Caught Occurs checked latest now := by
  cases latest with
  | none =>
    constructor
    · intro none_left t occurs later upTo
      exact absurd upTo (none_left t occurs later)
    · intro caught t occurs later upTo
      obtain ⟨l, hl, -⟩ := caught t occurs later upTo
      cases hl
  | some l =>
    constructor
    · intro latest t occurs later upTo
      exact ⟨l, rfl, latest.1.2 ⟨occurs, later, upTo⟩⟩
    · intro caught
      refine ⟨⟨sound l rfl, ?_⟩, decide_eq_true_iff⟩
      rintro t ⟨occurs, later, upTo⟩
      obtain ⟨_, hl, le⟩ := caught t occurs later upTo
      exact le.trans (Option.some.inj hl).symm.le

theorem due_latest_iff (turns : ℕ) (schedule : Schedule) (rules : ZoneRules) (checked now : ℤ)
    (anchor : Option ℤ) (low : InRange checked) (high : InRange now) (before : checked ≤ now)
    (told : ∀ start w, Asked turns schedule rules.timeZone now checked anchor start w →
      w.walked < missedWalk →
      ∃ answer, schedule.nextAfter turns rules.timeZone w.after w.anchor = some answer ∧
        Tells (schedule.Occurs rules checked anchor) now w.after answer) :
    (∃ answer, due turns schedule rules.timeZone checked anchor now = some answer ∧
        Latest (schedule.Occurs rules checked anchor) checked now answer) ↔
      SkipsSafely turns schedule rules.timeZone now (schedule.Occurs rules checked anchor)
        missedPasses ⟨none, checked, anchor, 0⟩ := by
  have enough : 2 * (now - checked) < missedWalk * 2 ^ (31 + 1) := by
    simp only [InRange, timestampMin, timestampMax, missedWalk] at *
    omega
  obtain ⟨final, ran, sound, caught⟩ :=
    walkPasses_caught told low high before 31 (w := ⟨none, checked, anchor, 0⟩) .first enough
  have nothing : Caught (schedule.Occurs rules checked anchor) checked none checked :=
    fun t _ later earlier => absurd later (not_lt.mpr earlier)
  rw [or_iff_right_of_imp fun _ => nothing, iff_true_intro nothing, true_and] at caught
  rw [show missedPasses = 31 + 1 from rfl, ← caught]
  have found : due turns schedule rules.timeZone checked anchor now = some (final.latest.map
      fun scheduled => ⟨scheduled, decide (lateAfter < now - scheduled)⟩) := by
    rw [due, show missedPasses = 31 + 1 from rfl, ran]
    rfl
  rw [found]
  simpa using latest_iff_caught sound

end Latest

structure Minutely (start : ℤ) (w : Walk) : Prop where
  begun : 1000 ≤ start ∧ start ≤ w.after
  upTo : w.after ≤ 1021000
  walked : w.anchor = none → w.walked = 0
  anchored : ∃ k : ℕ, w.anchor.getD w.after = 1000 + k * 60 ∧ 1000 + k * 60 ≤ w.after

lemma nextEvery_minute {after a : ℤ} {anchor : Option ℤ} (same : anchor.getD after = a)
    (low : 1000 ≤ a) (behind : a ≤ after) (high : after ≤ 1021000) :
    nextEvery 60 after anchor = some (some (a + ((after - a) / 60 + 1) * 60)) := by
  have few : ((after - a) / 60 + 1) * 60 ≤ spanMax := by
    rw [show spanMax = 631107417600 from rfl]
    omega
  have steps : (if after - a < 0 then 1 else (after - a) / 60 + 1) = (after - a) / 60 + 1 :=
    if_neg (by omega)
  have inside : InRange (a + ((after - a) / 60 + 1) * 60) := by
    simp only [InRange, timestampMin, timestampMax]
    omega
  rw [nextEvery, if_neg (by decide)]
  simp only [same, Nat.cast_ofNat, steps]
  rw [if_neg (by omega), if_neg (not_lt.mpr few), checkedAdd_inRange inside]

lemma Minutely.next {zone : TimeZone} {start : ℤ} {w : Walk} (h : Minutely start w) : ∃ k : ℕ, 0 < k ∧
    (Schedule.every 60).nextAfter 0 zone w.after w.anchor = some (some (1000 + k * 60 : ℤ)) ∧
      w.after < 1000 + k * 60 ∧ 1000 + k * 60 ≤ w.after + 60 := by
  obtain ⟨j, same, behind⟩ := h.anchored
  have found := nextEvery_minute same (by omega) behind h.upTo
  obtain ⟨n, steps⟩ := Int.eq_ofNat_of_zero_le (by omega : 0 ≤ (w.after - (1000 + j * 60)) / 60)
  have sum : 1000 + j * 60 + ((w.after - (1000 + j * 60)) / 60 + 1) * 60 =
      (1000 + (j + n + 1 : ℕ) * 60 : ℤ) := by
    rw [steps]
    push_cast
    ring
  rw [sum] at found
  exact ⟨j + n + 1, by omega, found, by omega, by omega⟩

lemma minute_asked {start : ℤ} {w : Walk}
    (h : Asked 0 (.every 60) paris.timeZone 1021000 1000 none start w) : Minutely start w := by
  induction h with
  | first => exact ⟨by decide, by decide, fun _ => rfl, 0, rfl, le_rfl⟩
  | found _ _ asked upTo ih =>
    obtain ⟨k, -, found, later, -⟩ := ih.next
    obtain rfl := Option.some.inj (Option.some.inj (found.symm.trans asked))
    have begun := ih.begun
    exact ⟨⟨begun.1, by simp only [Walk.found]; omega⟩, upTo, nofun, k, rfl, le_rfl⟩
  | @again start w h full ih =>
    obtain ⟨begun, upTo, walked, k, same, behind⟩ := ih
    have inside : InRange w.after := by
      simp only [InRange, timestampMin, timestampMax]
      omega
    have next := restart_eq inside (by decide : InRange 1021000) begun.2
    cases anchor : w.anchor with
    | none => exact absurd (full.symm.trans (walked anchor)) (by decide)
    | some a =>
      rw [anchor] at same
      refine ⟨⟨?_, le_rfl⟩, ?_, fun none => ?_, k, ?_, ?_⟩
      · omega
      · simp only
        omega
      · rfl
      · simp only
        exact same
      · simp only
        omega

lemma minute_told (start : ℤ) (w : Walk)
    (h : Asked 0 (.every 60) paris.timeZone 1021000 1000 none start w) (_ : w.walked < missedWalk) :
    ∃ answer, (Schedule.every 60).nextAfter 0 paris.timeZone w.after w.anchor = some answer ∧
      Tells ((Schedule.every 60).Occurs paris 1000 none) 1021000 w.after answer := by
  obtain ⟨k, positive, found, later, soon⟩ := (minute_asked h).next
  refine ⟨_, found, fun _ => ⟨⟨k, positive, rfl⟩, later⟩, ?_⟩
  rintro t ⟨j, -, rfl⟩ later' -
  simp only [Option.getD_none] at later' ⊢
  omega

lemma minute_last : (Schedule.every 60).Occurs paris 1000 none 1021000 := by
  refine ⟨17000, by norm_num, ?_⟩
  simp only [Option.getD_none]
  norm_num

lemma minute_safely (n : ℕ) :
    SkipsSafely 0 (.every 60) paris.timeZone 1021000 ((Schedule.every 60).Occurs paris 1000 none) n
      ⟨none, 1000, none, 0⟩ :=
  skipsSafely_of_now minute_told (by decide) (by decide) (by decide) minute_last n .first

theorem due_latest_minutes :
    ∃ answer, due 0 (.every 60) paris.timeZone 1000 none 1021000 = some answer ∧
      Latest ((Schedule.every 60).Occurs paris 1000 none) 1000 1021000 answer := by
  rw [due_latest_iff 0 (.every 60) paris 1000 1021000 none (by decide) (by decide) (by decide)
    minute_told]
  generalize missedPasses = passes
  exact minute_safely passes

def utc : ZoneRules where
  first := 0
  jumps := []
  apart := by simp
  bounded := by simp

def firstWeek : Cron where
  minutes := 2 ^ 60 - 1
  hours := 2 ^ 24 - 1
  daysOfMonth := 254
  months := 8190
  daysOfWeek := 127
  anyDayOfMonth := false
  anyDayOfWeek := true

lemma firstWeek_matches {t : ℤ} (low : 20454 * 86400 ≤ t) (high : t < 20461 * 86400) :
    firstWeek.advance utc.timeZone t = some none := by
  have reads : utc.reading t = t := add_zero t
  have hour : hasBit (2 ^ 24 - 1) (t % 86400 / 3600).toNat = true := by
    rw [hasBit, Nat.testBit_two_pow_sub_one]
    simp
    omega
  have minute : hasBit (2 ^ 60 - 1) (t % 3600 / 60).toNat = true := by
    rw [hasBit, Nat.testBit_two_pow_sub_one]
    simp
    omega
  have day : firstWeek.matchesDay (monthDay (t / 86400)).2 (monthDay (t / 86400)).1
      ((t / 86400 + 4) % 7).toNat = true := by
    have low : 20454 ≤ t / 86400 := by omega
    have high : t / 86400 < 20461 := by omega
    generalize t / 86400 = date at *
    interval_cases date <;> decide
  simp only [Cron.advance, ZoneRules.timeZone, ZoneRules.date, reads, day]
  simp only [firstWeek, hour, minute]
  rfl

lemma firstWeek_next {k : ℕ} (h : k < 10000) (anchor : Option ℤ) :
    (Schedule.cron firstWeek).nextAfter 20 utc.timeZone (1767225600 + 60 * k) anchor =
      some (some (1767225600 + 60 * (k : ℤ) + 60)) := by
  have next : (1767225600 + 60 * k + 60 - (1767225600 + 60 * k + 60) % 60 : ℤ) =
      1767225600 + 60 * k + 60 := by omega
  have soon (seconds : ℤ) (hs : 0 ≤ seconds) (hs' : seconds ≤ 8808 * 3600) :
      InRange (1767225600 + 60 * k + seconds) := by
    simp only [InRange, timestampMin, timestampMax]
    omega
  have first : InRange (1767225600 + 60 * k + 60 - (1767225600 + 60 * k + 60) % 60) := by
    rw [next]
    simp only [InRange, timestampMin, timestampMax]
    omega
  change nextCron 20 firstWeek utc.timeZone (1767225600 + 60 * k) = _
  rw [nextCron_first (soon _ (by decide) le_rfl) (soon _ (by decide) (by decide)) first, next,
    Cron.walk, if_pos (by omega), firstWeek_matches (by omega) (by omega)]

lemma firstWeek_pass (n : ℕ) {w : Walk} (hn : w.walked + n = missedWalk)
    (hw : w.after = 1767225600 + 60 * w.walked) (hl : 0 < w.walked → w = ⟨some w.after, w.after,
      some w.after, w.walked⟩) (hs : 0 < w.walked + n) :
    walkMissed 20 (.cron firstWeek) utc.timeZone 1768867200 n w =
      some ⟨some 1767825600, 1767825600, some 1767825600, missedWalk⟩ := by
  induction n generalizing w with
  | zero =>
    have full : w.walked = 10000 := hn
    have last : w.after = 1767825600 := by omega
    rw [walkMissed, hl hs, last, full]
    rfl
  | succ n ih =>
    have more : w.walked < 10000 := by
      simp only [missedWalk] at hn
      omega
    have next := firstWeek_next more w.anchor
    rw [walkMissed, hw, next]
    simp only
    rw [if_neg (by omega)]
    refine ih ?_ ?_ (fun _ => rfl) ?_
    · simp only [Walk.found]
      omega
    · simp only [Walk.found]
      push_cast
      ring
    · simp only [Walk.found]
      omega

lemma firstWeek_after : (Schedule.cron firstWeek).nextAfter 20 utc.timeZone 1768567200
    (some 1767825600) = some (some 1769904000) := by decide

lemma firstWeek_rest (n : ℕ) : walkMissed 20 (.cron firstWeek) utc.timeZone 1768867200 (n + 1)
    ⟨some 1767825600, 1768567200, some 1767825600, 0⟩ =
      some ⟨some 1767825600, 1768567200, some 1767825600, 0⟩ := by
  rw [walkMissed, firstWeek_after]
  rfl

lemma firstWeek_due : due 20 (.cron firstWeek) utc.timeZone 1767225600 none 1768867200 =
    some (some ⟨1767825600, true⟩) := by
  have first : walkMissed 20 (.cron firstWeek) utc.timeZone 1768867200 missedWalk
      ⟨none, 1767225600, none, 0⟩ =
        some ⟨some 1767825600, 1767825600, some 1767825600, missedWalk⟩ :=
    firstWeek_pass missedWalk (by simp) (by simp) (by simp) (by simp [missedWalk])
  have next : restart 1768867200 1767225600 1767825600 = 1768567200 := by decide
  have second := walkPasses_done (n := 30) (w := ⟨some 1767825600, 1768567200, some 1767825600,
    missedWalk⟩) (firstWeek_rest 9999) (by decide)
  have passes := walkPasses_again (n := 31) (w := ⟨none, 1767225600, none, 0⟩) first (lt_irrefl _)
  simp only [next, second] at passes
  rw [due, missedPasses, passes]
  rfl

theorem firstWeek_skipped :
    (∃ expression, Cron.parse ['*', ' ', '*', ' ', '1', '-', '7', ' ', '*', ' ', '*'] =
        .ok expression ∧ expression.toCron = firstWeek) ∧
      due 20 (.cron firstWeek) utc.timeZone 1767225600 none 1768867200 =
        some (some ⟨1767825600, true⟩) ∧
      (Schedule.cron firstWeek).Occurs utc 1767225600 none 1767830340 ∧
      (1767825600 : ℤ) < 1767830340 ∧ (1767830340 : ℤ) ≤ 1768867200 :=
  ⟨⟨_, rfl, rfl⟩, firstWeek_due, ⟨by decide, by decide⟩, by decide, by decide⟩

end Sheprd.Automation
