import Mathlib.Tactic

namespace Sheprd.Lib

structure Jump where
  time : ℤ
  offset : ℤ

def Apart (since low offset : ℤ) : List Jump → Prop
  | [] => True
  | jump :: jumps =>
      since < jump.time ∧ low ≤ jump.time + min offset jump.offset ∧
        Apart jump.time (jump.time + max offset jump.offset) jump.offset jumps

def offsetAt (offset : ℤ) : List Jump → ℤ → ℤ
  | [], _ => offset
  | jump :: jumps, t => if t < jump.time then offset else offsetAt jump.offset jumps t

def stretchOf (offset : ℤ) : List Jump → ℤ → ℤ × Option ℤ
  | [], _ => (offset, none)
  | jump :: jumps, reading =>
      if reading < jump.time + max offset jump.offset then (offset, some jump.time)
      else stretchOf jump.offset jumps reading

structure WallClock where
  first : ℤ
  jumps : List Jump
  apart : ∀ jump ∈ jumps.head?,
    Apart jump.time (jump.time + max first jump.offset) jump.offset jumps.tail

section Apart

variable {since low offset : ℤ} {jumps : List Jump}

lemma Apart.le_reading (h : Apart since low offset jumps) {t : ℤ} (ht : since ≤ t) :
    min (since + offset) low ≤ t + offsetAt offset jumps t := by
  induction jumps generalizing since low offset with
  | nil =>
    rw [offsetAt]
    omega
  | cons jump jumps ih =>
    obtain ⟨later, above, apart⟩ := h
    rw [offsetAt]
    split
    · omega
    · have := ih apart (by omega)
      omega

lemma Apart.le_taken (h : Apart since low offset jumps) {reading : ℤ}
    (hr : since + offset ≤ reading) : since ≤ reading - (stretchOf offset jumps reading).1 := by
  induction jumps generalizing since low offset with
  | nil =>
    rw [stretchOf]
    omega
  | cons jump jumps ih =>
    obtain ⟨later, above, apart⟩ := h
    rw [stretchOf]
    split
    · omega
    · have := ih apart (by omega)
      omega

lemma Apart.lt_ends (h : Apart since low offset jumps) {reading time : ℤ}
    (he : (stretchOf offset jumps reading).2 = some time) : since < time := by
  induction jumps generalizing since low offset with
  | nil => cases he
  | cons jump jumps ih =>
    obtain ⟨later, above, apart⟩ := h
    rw [stretchOf] at he
    split at he
    · exact Option.some.inj he ▸ later
    · exact later.trans (ih apart he)

lemma Apart.lt_taken_iff {jump : Jump}
    (h : Apart jump.time (jump.time + max offset jump.offset) jump.offset jumps) {t reading : ℤ}
    (hr : t + offsetAt offset (jump :: jumps) t < reading) :
    t < reading - (stretchOf offset (jump :: jumps) reading).1 ↔
      ∀ time, (stretchOf offset (jump :: jumps) reading).2 = some time → t < time := by
  induction jumps generalizing offset jump with
  | nil =>
    rw [offsetAt] at hr
    rw [stretchOf]
    simp only [offsetAt, stretchOf] at hr ⊢
    split at hr <;> split <;> simp <;> omega
  | cons next jumps ih =>
    rw [offsetAt] at hr
    rw [stretchOf]
    split at hr
    · next before =>
      split
      · simp
        omega
      · have taken : jump.time ≤ reading - (stretchOf jump.offset (next :: jumps) reading).1 :=
          h.le_taken (by omega)
        refine ⟨fun _ time he => before.trans (h.lt_ends he), fun _ => by omega⟩
    · next after =>
      split
      · next early =>
        have low := h.le_reading (not_lt.mp after)
        simp
        omega
      · exact ih h.2.2 hr

lemma Apart.takenIn_le {jump : Jump}
    (h : Apart jump.time (jump.time + max offset jump.offset) jump.offset jumps) (reading : ℤ) :
    (stretchOf offset (jump :: jumps) reading).1 ≤
      offsetAt offset (jump :: jumps) (reading - (stretchOf offset (jump :: jumps) reading).1) := by
  induction jumps generalizing offset jump with
  | nil =>
    simp only [offsetAt, stretchOf]
    split <;> split <;> omega
  | cons next jumps ih =>
    rw [stretchOf]
    split
    · next early =>
      rw [offsetAt]
      split
      · exact le_rfl
      · next skipped =>
        have low := h.le_reading (not_lt.mp skipped)
        omega
    · next late =>
      have taken : jump.time ≤ reading - (stretchOf jump.offset (next :: jumps) reading).1 :=
        h.le_taken (by omega)
      rw [offsetAt, if_neg (not_lt.mpr taken)]
      exact ih h.2.2

end Apart

namespace WallClock

variable (clock : WallClock)

def offset (t : ℤ) : ℤ := offsetAt clock.first clock.jumps t

def reading (t : ℤ) : ℤ := t + clock.offset t

def takenIn (reading : ℤ) : ℤ := (stretchOf clock.first clock.jumps reading).1

def endOf (reading : ℤ) : Option ℤ := (stretchOf clock.first clock.jumps reading).2

def taken (reading : ℤ) : ℤ := reading - clock.takenIn reading

def takenNear (t reading : ℤ) : ℤ :=
  if clock.offset (reading - clock.offset t) = clock.offset t then reading - clock.offset t
  else clock.taken reading

variable {clock}

lemma lt_taken_iff {t reading : ℤ} (h : clock.reading t < reading) :
    t < clock.taken reading ↔ ∀ time, clock.endOf reading = some time → t < time := by
  obtain ⟨first, jumps, apart⟩ := clock
  cases jumps with
  | nil =>
    simp only [WallClock.reading, offset, offsetAt, taken, takenIn, endOf, stretchOf] at h ⊢
    simp
    omega
  | cons jump jumps => exact (apart jump rfl).lt_taken_iff h

lemma le_reading_taken (reading : ℤ) : reading ≤ clock.reading (clock.taken reading) := by
  obtain ⟨first, jumps, apart⟩ := clock
  cases jumps with
  | nil =>
    simp only [WallClock.reading, offset, offsetAt, taken, takenIn, stretchOf]
    omega
  | cons jump jumps =>
    have apart : Apart jump.time (jump.time + max first jump.offset) jump.offset jumps :=
      apart jump rfl
    have := apart.takenIn_le reading
    simp only [WallClock.reading, offset, taken, takenIn]
    omega

end WallClock

end Sheprd.Lib
