import Sheprd.Automation.Schedule
import Sheprd.Automation.Tokens

namespace Sheprd.Automation

open Sheprd.Lib

def monthNames : List Chars :=
  [['j', 'a', 'n'], ['f', 'e', 'b'], ['m', 'a', 'r'], ['a', 'p', 'r'], ['m', 'a', 'y'],
    ['j', 'u', 'n'], ['j', 'u', 'l'], ['a', 'u', 'g'], ['s', 'e', 'p'], ['o', 'c', 't'],
    ['n', 'o', 'v'], ['d', 'e', 'c']]

def weekdayNames : List Chars :=
  [['s', 'u', 'n'], ['m', 'o', 'n'], ['t', 'u', 'e'], ['w', 'e', 'd'], ['t', 'h', 'u'],
    ['f', 'r', 'i'], ['s', 'a', 't']]

inductive CronError where
  | fields
  | stepNumber
  | stepZero
  | range
  | value

def CronError.text : CronError → String
  | fields => "expected five fields: minute hour day-of-month month day-of-week"
  | stepNumber => "a step must be a number"
  | stepZero => "a step must be at least 1"
  | range => "a value is out of range"
  | value => "a value is not a number or a known name"

def unsigned : Chars → Chars
  | '+' :: digits => digits
  | digits => digits

def numeral (text : Chars) : Option ℕ :=
  if unsigned text = [] ∨ ¬(unsigned text).all Char.isDigit then none
  else some ((unsigned text).foldl (fun n c => n * 10 + (c.toNat - '0'.toNat)) 0)

def parseU8 (text : Chars) : Option ℕ := (numeral text).filter fun n => decide (n < 256)

def splitWhitespace (text : Chars) : List Chars :=
  (text.splitOnP Text.isWhitespace).filter fun word => !word.isEmpty

structure CronField where
  min : ℕ
  max : ℕ
  names : List Chars

namespace CronField

def minute : CronField := ⟨0, 59, []⟩
def hour : CronField := ⟨0, 23, []⟩
def day : CronField := ⟨1, 31, []⟩
def month : CronField := ⟨1, 12, monthNames⟩
def weekday : CronField := ⟨0, 7, weekdayNames⟩

variable (field : CronField)

def value (text : Chars) : Except CronError ℕ :=
  match parseU8 text with
  | some number => .ok number
  | none =>
      match field.names.findIdx? fun name => decide (name = text.map Char.toLower) with
      | some index => .ok (index + field.min)
      | none => .error .value

def splitStep (part : Chars) : Except CronError (Chars × ℕ) :=
  match Text.splitOnce '/' part with
  | some (range, step) =>
      match parseU8 step with
      | none => .error .stepNumber
      | some 0 => .error .stepZero
      | some step => .ok (range, step)
  | none => .ok (part, 1)

def ends (range : Chars) (step : ℕ) : Except CronError (ℕ × ℕ) :=
  if range = ['*'] then .ok (field.min, field.max)
  else
    match Text.splitOnce '-' range with
    | some (first, last) => do
        let first ← field.value first
        let last ← field.value last
        return (first, last)
    | none => do
        let first ← field.value range
        return (first, if 1 < step then field.max else first)

def part (text : Chars) : Except CronError (List ℕ) := do
  let (range, step) ← splitStep text
  let (first, last) ← field.ends range step
  if first < field.min ∨ field.max < last ∨ last < first then .error .range
  else return List.range' first ((last - first) / step + 1) step

def set (text : Chars) : Except CronError ℕ :=
  (text.splitOn ',').foldlM (fun set text => do
    let bits ← field.part text
    return bits.foldl (fun set bit => set ||| 1 <<< bit) set) 0

end CronField

structure Expression extends Cron where
  text : Chars

namespace Cron

def parse (text : Chars) : Except CronError Expression :=
  match splitWhitespace text with
  | [minute, hour, day, month, weekday] => do
      let daysOfWeek ← CronField.weekday.set weekday
      let daysOfWeek :=
        if daysOfWeek &&& 1 <<< 7 ≠ 0 then daysOfWeek &&& (2 ^ 64 - 1 - 1 <<< 7) ||| 1 else daysOfWeek
      let minutes ← CronField.minute.set minute
      let hours ← CronField.hour.set hour
      let daysOfMonth ← CronField.day.set day
      let months ← CronField.month.set month
      return {
        text := [' '].intercalate [minute, hour, day, month, weekday]
        minutes, hours, daysOfMonth, months, daysOfWeek
        anyDayOfMonth := decide (day = ['*'])
        anyDayOfWeek := decide (weekday = ['*']) }
  | _ => .error .fields

def matchesMinute (cron : Cron) (minute : ℕ) : Bool := hasBit cron.minutes minute

def matchesHour (cron : Cron) (hour : ℕ) : Bool := hasBit cron.hours hour

def matchesTime (cron : Cron) (minute hour day month weekday : ℕ) : Bool :=
  cron.matchesMinute minute && cron.matchesHour hour && cron.matchesDay day month weekday

end Cron

end Sheprd.Automation
