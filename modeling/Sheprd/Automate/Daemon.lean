import Sheprd.Automate.Switch
import Sheprd.Automation.Plan
import Sheprd.Automation.Schedule

namespace Sheprd.Automate

open Sheprd.Automation

structure WorktreeScripts where
  setup : Option String
  run : Option String

inductive Zone where
  | host
  | named (name : String)

structure Trigger where
  schedule : Schedule
  zone : Zone
  steps : List PlannedStep

structure Source where
  hash : String
  triggers : List Trigger
  repo : Option String

structure Loaded where
  source : Source
  fingerprint : String

mutual

def stepUsesRun : PlannedStep → Bool
  | ⟨call, onFailure⟩ =>
      (match call.step with
        | .run _ => true
        | _ => false) || failureUsesRun onFailure

def failureUsesRun : Failure → Bool
  | .branch instead => stepsUseRun instead
  | _ => false

def stepsUseRun : List PlannedStep → Bool
  | [] => false
  | step :: steps => stepUsesRun step || stepsUseRun steps

end

def Source.usesRun (source : Source) : Bool := source.triggers.any fun t => stepsUseRun t.steps

def encodeScript : Option String → List UInt8
  | none => [0]
  | some script =>
      let bytes := script.toUTF8.toList
      1 :: ((List.range 8).reverse.map fun i => UInt8.ofNat (bytes.length / 256 ^ i)) ++ bytes

def fingerprintOf (digest : List UInt8 → String) (worktrees : String → WorktreeScripts)
    (source : Source) : String :=
  match source.repo with
  | some repo =>
      if source.usesRun then
        let worktree := worktrees repo
        digest (source.hash.toUTF8.toList ++ encodeScript worktree.setup ++ encodeScript worktree.run)
      else source.hash
  | none => source.hash

structure RunRow where
  path : String
  trigger : ℕ
  scheduled : Option ℤ
  hash : String
  running : Bool

structure Firing where
  path : String
  trigger : ℕ
  scheduled : ℤ
  epoch : ℕ

structure Start where
  path : String
  trigger : ℕ
  scheduled : ℤ

structure Host where
  approvals : String → Option String
  switches : String → Switch
  pausedAll : Bool
  cursors : String → ℕ → Option (ℤ × Option ℤ)
  runs : List RunRow
  worktrees : String → WorktreeScripts
  serving : Bool
  loaded : String → Option Loaded
  live : String → Option ℕ
  due : List Start
  clock : ℤ
  epoch : ℕ
  firings : List Firing

inductive HostAct where
  | approve (path hash : String)
  | clearCursors (path : String)
  | setSwitch (path : String) (switch : Switch)
  | setPausedAll (paused : Bool)
  | editWorktree (repo : String) (scripts : WorktreeScripts)
  | serve
  | stop
  | refresh (found : String → Option Source)
  | tick (now : ℤ)
  | schedule (path : String) (zones : Zone → TimeZone) (turns reached : ℕ)
  | launch (stores : Bool)
  | runNow (path : String) (trigger : ℕ) (stores : Bool)
  | ended (path : String) (stores : Bool)

def atSecond (second : ℤ) : ℤ := if InRange second then second else 0

namespace Host

def setCursor (s : Host) (path : String) (index : ℕ) (checked : ℤ) (fired : Option ℤ) : Host :=
  let kept := fired.or ((s.cursors path index).bind Prod.snd)
  let row := Function.update (s.cursors path) index (some (checked, kept))
  { s with cursors := Function.update s.cursors path row }

def forgetCursors (s : Host) (path : String) : Host :=
  { s with cursors := Function.update s.cursors path fun _ => none }

def isActive (s : Host) (path : String) (script : Loaded) : Bool :=
  s.approvals path = some script.fingerprint && !(s.switches path).paused &&
    !(s.switches path).disabled && !s.pausedAll

def fire (s : Host) (path : String) (index : ℕ) (d : Due) : Host :=
  { s with
    due := s.due ++ [⟨path, index, d.scheduled⟩]
    firings := s.firings ++ [⟨path, index, d.scheduled, s.epoch⟩] }

def dueTrigger (s : Host) (zones : Zone → TimeZone) (turns : ℕ) (path : String) (active : Bool)
    (trigger : Trigger) (index : ℕ) : Option Host :=
  match (s.cursors path index).filter fun _ => active with
  | none => some (s.setCursor path index s.clock (some s.clock))
  | some (checked, fired) =>
      match Automation.due turns trigger.schedule (zones trigger.zone) (atSecond checked)
          (fired.map atSecond) (atSecond s.clock) with
      | none => none
      | some none => some (s.setCursor path index s.clock none)
      | some (some d) => some ((s.setCursor path index s.clock (some d.scheduled)).fire path index d)

def scheduleTrigger (zones : Zone → TimeZone) (turns : ℕ) (path : String) (active : Bool) (s : Host)
    (entry : Trigger × ℕ) : Option Host :=
  match entry.1.schedule with
  | .manual => some s
  | _ => s.dueTrigger zones turns path active entry.1 entry.2

def halted (s : Host) : Host := { s with serving := false, due := [] }

def scheduleScript (s : Host) (path : String) (zones : Zone → TimeZone) (turns reached : ℕ) :
    Option Host :=
  match s.loaded path with
  | none => some s
  | some script =>
      ((script.source.triggers.zipIdx.take reached).foldlM
        (scheduleTrigger zones turns path (s.isActive path script)) s).map fun checked =>
        if reached < script.source.triggers.length then checked.halted else checked

def isFree (s : Host) (path : String) (trigger : ℕ) (scheduled : Option ℤ) : Bool :=
  scheduled.isNone ||
    s.runs.all fun row => !(row.path = path && row.trigger = trigger && row.scheduled = scheduled)

def record (s : Host) (path : String) (trigger : ℕ) (scheduled : Option ℤ) (hash : String) : Host :=
  { s with
    runs := s.runs ++ [⟨path, trigger, scheduled, hash, true⟩]
    live := Function.update s.live path (some s.runs.length) }

def start (digest : List UInt8 → String) (s : Host) (path : String) (trigger : ℕ)
    (scheduled : Option ℤ) (stores : Bool) : Host :=
  match s.loaded path with
  | none => s
  | some script =>
      let hash := fingerprintOf digest s.worktrees script.source
      if (s.live path).isSome then s
      else if s.approvals path = some hash ∧ trigger < script.source.triggers.length ∧
          stores = true ∧ s.isFree path trigger scheduled = true then
        s.record path trigger scheduled hash
      else s

def serve (s : Host) : Host :=
  { s with
    serving := true
    loaded := fun _ => none
    live := fun _ => none
    due := []
    runs := s.runs.map fun row => { row with running := false } }

def finishRun (s : Host) (run : ℕ) : Host :=
  { s with runs := s.runs.modify run fun row => { row with running := false } }

def tick (s : Host) (now : ℤ) : Host :=
  { s with clock := now, epoch := if now < s.clock then s.epoch + 1 else s.epoch }

def step (digest : List UInt8 → String) (s : Host) : HostAct → Option Host
  | .approve path hash =>
      some { s with approvals := Function.update s.approvals path (some hash) }
  | .clearCursors path => some (s.forgetCursors path)
  | .setSwitch path switch => some { s with switches := Function.update s.switches path switch }
  | .setPausedAll paused => some { s with pausedAll := paused }
  | .editWorktree repo scripts =>
      some { s with worktrees := Function.update s.worktrees repo scripts }
  | .serve => if s.serving then none else some s.serve
  | .stop => some s.halted
  | .refresh found =>
      if s.serving then
        some { s with loaded := fun path => (found path).map fun source =>
          ⟨source, fingerprintOf digest s.worktrees source⟩ }
      else none
  | .tick now => if s.serving ∧ InRange now ∧ s.due = [] then some (s.tick now) else none
  | .schedule path zones turns reached =>
      if s.serving ∧ s.due = [] then s.scheduleScript path zones turns reached else none
  | .launch stores =>
      match s.due with
      | [] => none
      | next :: due =>
          some ({ s with due := due }.start digest next.path next.trigger (some next.scheduled) stores)
  | .runNow path trigger stores =>
      if s.serving then some (s.start digest path trigger none stores) else none
  | .ended path stores =>
      match s.live path with
      | none => none
      | some run =>
          let s := { s with live := Function.update s.live path none }
          if stores then some (s.finishRun run) else some s.halted

def Step (digest : List UInt8 → String) (s : Host) (a : HostAct) (t : Host) : Prop :=
  s.step digest a = some t

def initial (worktrees : String → WorktreeScripts) : Host where
  approvals _ := none
  switches _ := {}
  pausedAll := false
  cursors _ _ := none
  runs := []
  worktrees := worktrees
  serving := false
  loaded _ := none
  live _ := none
  due := []
  clock := timestampMin
  epoch := 0
  firings := []

end Host

end Sheprd.Automate
