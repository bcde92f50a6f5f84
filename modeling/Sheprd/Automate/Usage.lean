import Mathlib.Tactic

namespace Sheprd.Automate

inductive Kind where
  | input
  | output
  | cacheRead
  | cacheWrite

structure Tokens where
  input : UInt64
  output : UInt64
  cacheRead : UInt64
  cacheWrite : UInt64

def Tokens.count (tokens : Tokens) : Kind → ℕ
  | .input => tokens.input.toNat
  | .output => tokens.output.toNat
  | .cacheRead => tokens.cacheRead.toNat
  | .cacheWrite => tokens.cacheWrite.toNat

def toColumn (count : ℕ) : Option ℤ := if count < 2 ^ 63 then some count else none

def ofColumn (column : Option ℤ) : Option UInt64 :=
  column.bind fun value => if 0 ≤ value then some (.ofNat value.toNat) else none

structure UsageRow where
  run : ℕ
  position : ℕ
  path : String
  columns : Kind → Option ℤ := fun _ => none
  doneAt : Option ℤ := none

namespace UsageRow

def key (row : UsageRow) : ℕ × ℕ := (row.run, row.position)

def tokens (row : UsageRow) : Option Tokens :=
  (ofColumn (row.columns .input)).map fun input =>
    { input
      output := (ofColumn (row.columns .output)).getD 0
      cacheRead := (ofColumn (row.columns .cacheRead)).getD 0
      cacheWrite := (ofColumn (row.columns .cacheWrite)).getD 0 }

end UsageRow

structure DayRow where
  run : ℕ
  position : ℕ
  day : ℤ
  used : Kind → ℤ

def DayRow.key (kept : DayRow) : ℕ × ℕ := (kept.run, kept.position)

structure Sample where
  key : ℕ × ℕ
  tokens : Option Tokens
  doneAt : Option ℤ

inductive StoreError where
  | integerOverflow

def sumColumn (values : List ℤ) : Except StoreError ℤ :=
  values.foldlM (fun sum value =>
    if -2 ^ 63 ≤ sum + value ∧ sum + value < 2 ^ 63 then .ok (sum + value)
    else .error .integerOverflow) 0

structure UsageStore where
  agents : List UsageRow := []
  days : List DayRow := []

namespace UsageStore

def addAgent (s : UsageStore) (key : ℕ × ℕ) (path : String) : UsageStore :=
  { s with
    agents := s.agents.filter (fun row => decide (row.key ≠ key)) ++
      [{ run := key.1, position := key.2, path }] }

def updateAgent (s : UsageStore) (sample : Sample) : UsageStore :=
  { s with
    agents := s.agents.map fun row =>
      if row.key = sample.key then
        { row with
          columns := fun kind => (sample.tokens.map fun tokens => tokens.count kind).bind toColumn
          doneAt := sample.doneAt }
      else row }

def keepDay (s : UsageStore) (key : ℕ × ℕ) (day : ℤ) : UsageStore :=
  match s.agents.find? fun row => decide (row.key = key) with
  | some row =>
      if s.days.any fun kept => decide (kept.key = key ∧ kept.day = day) then s
      else
        { s with
          days := s.days ++ [⟨key.1, key.2, day, fun kind => (row.columns kind).getD 0⟩] }
  | none => s

def sampleAgent (s : UsageStore) (sample : Sample) (day : ℤ) : UsageStore :=
  (s.keepDay sample.key day).updateAgent sample

def sample (s : UsageStore) (key : ℕ × ℕ) (reading : Option Tokens) (doneAt : Option ℤ) (day : ℤ) :
    UsageStore :=
  match s.agents.find? fun row => decide (row.key = key ∧ row.doneAt = none) with
  | some row => s.sampleAgent ⟨key, reading <|> row.tokens, doneAt⟩ day
  | none => s

def joined (s : UsageStore) (path : Option String) (day : ℤ) : List (UsageRow × DayRow) :=
  (s.agents.filter fun row => path.all fun path => decide (row.path = path)).flatMap fun row =>
    (s.days.filter fun kept => decide (kept.key = row.key ∧ kept.day = day)).map (Prod.mk row)

def usedSince (kind : Kind) (entry : UsageRow × DayRow) : ℤ :=
  (entry.1.columns kind).getD 0 - entry.2.used kind

def tokensOn (s : UsageStore) (path : Option String) (day : ℤ) :
    Except StoreError (Option Tokens) := do
  let rows := s.joined path day
  let input ← sumColumn (rows.map (usedSince .input))
  let output ← sumColumn (rows.map (usedSince .output))
  let cacheRead ← sumColumn (rows.map (usedSince .cacheRead))
  let cacheWrite ← sumColumn (rows.map (usedSince .cacheWrite))
  if rows.any fun entry => (entry.1.columns .input).isSome then
    return some ⟨.ofNat input.toNat, .ofNat output.toNat, .ofNat cacheRead.toNat,
      .ofNat cacheWrite.toNat⟩
  else return none

end UsageStore

inductive UsageEvent where
  | add (key : ℕ × ℕ) (path : String)
  | sample (key : ℕ × ℕ) (reading : Option Tokens) (doneAt : Option ℤ)

def UsageStore.event (day : ℤ) (s : UsageStore) : UsageEvent → UsageStore
  | .add key path => s.addAgent key path
  | .sample key reading doneAt => s.sample key reading doneAt day

structure Day where
  day : ℤ
  events : List UsageEvent

def UsageStore.live (s : UsageStore) (today : Day) : UsageStore :=
  today.events.foldl (UsageStore.event today.day) s

def UsageStore.counts (path : Option String) (s : UsageStore) :
    List Day → List (Except StoreError (Option Tokens))
  | [] => []
  | today :: days =>
      (s.live today).tokensOn path today.day :: UsageStore.counts path (s.live today) days

end Sheprd.Automate
