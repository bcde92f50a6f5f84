import Mathlib.Tactic

namespace Sheprd.Automation

def maxPaths : ℕ := 256

inductive Step where
  | agent (harness prompt : String) (worktree base : Option String) (wait : Bool)
  | notify (text : String)
  | pull (branch : String)
  | run (name : String)
  | sh (command : String)
  | worktree (name : String) (base : Option String)
  deriving DecidableEq

structure Call where
  step : Step
  check : Bool
  timeout : Option ℕ
  deriving DecidableEq

inductive Error where
  | tooManyPaths (limit : ℕ)
  | unknownTrigger (index : ℕ)
  | stepBudget
  | lua (message : String)

structure Limits where
  steps : ℕ

inductive Next where
  | call (call : Call)
  | finish
  | fail (error : Error)

abbrev Handler := List Bool → Next

structure Script where
  triggers : List Handler

inductive Verdict (η : Type) where
  | succeeded
  | failed
  | halt (halt : η)

inductive End (η : Type) where
  | completed
  | stopped (step : ℕ)
  | halted (step : ℕ) (halt : η)

section Run

variable {σ η : Type} (exec : Call → StateM σ (Verdict η)) (limits : Limits) (handler : Handler)

def runFrom : ℕ → List Bool → StateM σ (Except Error (End η))
  | left, outcomes =>
      match handler outcomes with
      | .finish => pure (.ok .completed)
      | .fail e => pure (.error e)
      | .call call =>
          match left with
          | 0 => pure (.error .stepBudget)
          | left + 1 => do
              match ← exec call with
              | .halt halt => return .ok (.halted outcomes.length halt)
              | .succeeded => runFrom left (outcomes ++ [true])
              | .failed =>
                  if call.check then return .ok (.stopped outcomes.length)
                  else runFrom left (outcomes ++ [false])

def Script.run (script : Script) (trigger : ℕ) : StateM σ (Except Error (End η)) :=
  match script.triggers[trigger]? with
  | none => pure (.error (.unknownTrigger trigger))
  | some handler => runFrom exec handler limits.steps []

end Run

mutual

structure PlannedStep where
  call : Call
  onFailure : Failure

inductive Failure where
  | stops
  | continues
  | branch (instead : List PlannedStep)

end

mutual

def Failure.decEq : (a b : Failure) → Decidable (a = b)
  | .stops, .stops => isTrue rfl
  | .continues, .continues => isTrue rfl
  | .branch a, .branch b =>
      match stepsDecEq a b with
      | isTrue h => isTrue (h ▸ rfl)
      | isFalse h => isFalse fun he => h (Failure.branch.inj he)
  | .stops, .continues => isFalse nofun
  | .stops, .branch _ => isFalse nofun
  | .continues, .stops => isFalse nofun
  | .continues, .branch _ => isFalse nofun
  | .branch _, .stops => isFalse nofun
  | .branch _, .continues => isFalse nofun

def PlannedStep.decEq : (a b : PlannedStep) → Decidable (a = b)
  | ⟨callA, failureA⟩, ⟨callB, failureB⟩ =>
      match decEq callA callB, Failure.decEq failureA failureB with
      | isTrue hc, isTrue hf => isTrue (hc ▸ hf ▸ rfl)
      | isFalse hc, _ => isFalse fun he => hc (PlannedStep.mk.inj he).1
      | _, isFalse hf => isFalse fun he => hf (PlannedStep.mk.inj he).2

def stepsDecEq : (a b : List PlannedStep) → Decidable (a = b)
  | [], [] => isTrue rfl
  | [], _ :: _ => isFalse nofun
  | _ :: _, [] => isFalse nofun
  | a :: as, b :: bs =>
      match PlannedStep.decEq a b, stepsDecEq as bs with
      | isTrue h, isTrue hs => isTrue (h ▸ hs ▸ rfl)
      | isFalse h, _ => isFalse fun he => h (List.cons.inj he).1
      | _, isFalse hs => isFalse fun he => hs (List.cons.inj he).2

end

instance : DecidableEq PlannedStep := PlannedStep.decEq

def recordCall (decisions : List Bool) (call : Call) : StateM (List Call) (Verdict Empty) := do
  let calls ← get
  set (calls ++ [call])
  return if decisions[calls.length]? = some false then .failed else .succeeded

def simulate (script : Script) (limits : Limits) (trigger : ℕ) (decisions : List Bool) :
    Except Error (List Call) :=
  match script.run (recordCall decisions) limits trigger [] with
  | (.ok _, calls) => .ok calls
  | (.error e, _) => .error e

def resize (l : List Bool) (n : ℕ) (b : Bool) : List Bool := l.take n ++ List.replicate (n - l.length) b

def planFailure (explore : List Bool → ℕ → Except Error (List PlannedStep × ℕ))
    (failing : List Bool) (call : Call) (paths : ℕ) : Except Error (Failure × ℕ) :=
  if call.check then .ok (.stops, paths)
  else do
    let (instead, paths) ← explore failing paths
    .ok (.branch instead, paths)

def planCalls (explore : List Bool → ℕ → Except Error (List PlannedStep × ℕ))
    (decisions : List Bool) : ℕ → List Call → ℕ → Except Error (List PlannedStep × ℕ)
  | _, [], paths => .ok ([], paths)
  | position, call :: calls, paths => do
      let failing := resize decisions position true ++ [false]
      let (onFailure, paths) ← planFailure explore failing call paths
      let (steps, paths) ← planCalls explore decisions (position + 1) calls paths
      .ok (⟨call, onFailure⟩ :: steps, paths)

def compress : List PlannedStep → List PlannedStep
  | [] => []
  | step :: rest =>
      { step with
        onFailure :=
          match step.onFailure with
          | .branch instead => if instead = rest then .continues else .branch instead
          | failure => failure } :: compress rest

section Explore

variable (script : Script) (limits : Limits) (trigger : ℕ)

def exploreTo : ℕ → List Bool → ℕ → Except Error (List PlannedStep × ℕ)
  | 0, _, _ => .error (.tooManyPaths maxPaths)
  | depth + 1, decisions, paths =>
      let paths := paths + 1
      if maxPaths < paths then .error (.tooManyPaths maxPaths)
      else do
        let calls ← simulate script limits trigger decisions
        let (steps, paths) ← planCalls (exploreTo depth) decisions decisions.length
          (calls.drop decisions.length) paths
        .ok (compress steps, paths)

def explore (decisions : List Bool) (paths : ℕ) : Except Error (List PlannedStep × ℕ) :=
  exploreTo script limits trigger (maxPaths + 1) decisions paths

def planTrigger : Except Error (List PlannedStep) := do
  let (steps, _) ← explore script limits trigger [] 0
  .ok steps

end Explore

structure Walker where
  steps : List PlannedStep
  position : ℕ

namespace Walker

def new (steps : List PlannedStep) : Walker := ⟨steps, 0⟩

def expects (w : Walker) (call : Call) : Bool :=
  w.steps[w.position]?.any fun step => decide (step.call = call)

def record (w : Walker) (ok : Bool) : Walker :=
  match w.steps[w.position]? with
  | none => w
  | some step =>
      if ok then { w with position := w.position + 1 }
      else
        match step.onFailure with
        | .stops => ⟨[], 0⟩
        | .continues => { w with position := w.position + 1 }
        | .branch instead => ⟨instead, 0⟩

end Walker

inductive Halt where
  | offPlan

def walk (outcome : ℕ → Bool) (call : Call) : StateM (Walker × List Call) (Verdict Halt) := do
  let (walker, made) ← get
  if walker.expects call then do
    set (walker.record (outcome made.length), made ++ [call])
    return if outcome made.length then .succeeded else .failed
  else return .halt .offPlan

def carryOut (outcome : ℕ → Bool) (call : Call) : StateM (List Call) (Verdict Halt) := do
  let made ← get
  set (made ++ [call])
  return if outcome made.length then .succeeded else .failed

end Sheprd.Automation
