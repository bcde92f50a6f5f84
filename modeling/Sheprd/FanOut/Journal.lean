import Mathlib.Tactic
import Sheprd.Lib.Run

namespace Sheprd.FanOut

def maxLanes : ℕ := 6

def maxRecords : ℕ := 4

def maxUnsaved : ℕ := 16

def maxFieldBytes : ℕ := 1024

def maxPromptBytes : ℕ := 32 * 1024

def fits (field : String) : Bool := decide (field.utf8ByteSize ≤ maxFieldBytes)

inductive AgentKind where
  | claude
  | codex
  | opencode
  | pi
  | omp
  | copilot
  | devin
  | droid
  | kimi
  | mastracode
  | hermes
  | qodercli
  | qwen
  | kilo
  | cursor
  | antigravity
  | grok
  | letta

namespace AgentKind

def parse : String → Option AgentKind
  | "claude" => some claude
  | "codex" => some codex
  | "opencode" => some opencode
  | "pi" => some pi
  | "omp" => some omp
  | "copilot" => some copilot
  | "devin" => some devin
  | "droid" => some droid
  | "kimi" => some kimi
  | "mastracode" => some mastracode
  | "hermes" => some hermes
  | "qodercli" => some qodercli
  | "qwen" => some qwen
  | "kilo" => some kilo
  | "cursor" => some cursor
  | "agy" => some antigravity
  | "grok" => some grok
  | "letta" => some letta
  | _ => none

def name : AgentKind → String
  | claude => "claude"
  | codex => "codex"
  | opencode => "opencode"
  | pi => "pi"
  | omp => "omp"
  | copilot => "copilot"
  | devin => "devin"
  | droid => "droid"
  | kimi => "kimi"
  | mastracode => "mastracode"
  | hermes => "hermes"
  | qodercli => "qodercli"
  | qwen => "qwen"
  | kilo => "kilo"
  | cursor => "cursor"
  | antigravity => "agy"
  | grok => "grok"
  | letta => "letta"

end AgentKind

inductive Route where
  | here
  | ssh (target : String)
  | cloud (provider account id : String)

structure Host where
  route : Route
  session : Option String
  development : Bool

def Host.identity (host : Host) : String :=
  let route := match host.route with
    | .here => "local"
    | .ssh target => "ssh:" ++ target
    | .cloud provider account id => "cloud:" ++ provider ++ ":" ++ account ++ ":" ++ id
  route ++ "|" ++ host.session.getD "" ++ "|" ++ (if host.development then "dev" else "release")

inductive Checkpoint where
  | planned
  | creatingWorktree
  | created
  | startingAgent
  | prompting
  | prompted
  deriving DecidableEq

namespace Checkpoint

def order : Checkpoint → ℕ
  | planned => 0
  | creatingWorktree => 1
  | created => 2
  | startingAgent => 3
  | prompting => 4
  | prompted => 5

def hasCheckout (step : Checkpoint) : Bool := decide (created.order ≤ step.order)

end Checkpoint

structure Origin where
  endpointId : String
  endpointLabel : String
  host : Host
  workspaceId : String
  repoKey : String
  repoLabel : String
  base : String

structure SavedOrigin where
  endpointId : String
  host : String
  endpointLabel : String
  workspaceId : String
  repoKey : String
  repoLabel : String
  base : String
  deriving DecidableEq

def Origin.saved (origin : Origin) : SavedOrigin where
  endpointId := origin.endpointId
  host := origin.host.identity
  endpointLabel := origin.endpointLabel
  workspaceId := origin.workspaceId
  repoKey := origin.repoKey
  repoLabel := origin.repoLabel
  base := origin.base

structure Checkout where
  endpointId : String
  host : Host
  workspaceId : String
  path : String
  paneId : String

structure SavedCheckout where
  endpointId : String
  host : String
  workspaceId : String
  path : String
  paneId : String
  deriving DecidableEq

def SavedCheckout.fits (checkout : SavedCheckout) : Bool :=
  [checkout.endpointId, checkout.host, checkout.workspaceId, checkout.path, checkout.paneId].all
    FanOut.fits

def Checkout.saved (checkout : Checkout) : SavedCheckout where
  endpointId := checkout.endpointId
  host := checkout.host.identity
  workspaceId := checkout.workspaceId
  path := checkout.path
  paneId := checkout.paneId

structure Lane where
  kind : AgentKind
  branch : String
  agent : String

structure SavedLane where
  kind : String
  branch : String
  agent : String
  step : Checkpoint
  checkout : Option SavedCheckout
  deriving DecidableEq

inductive Progress where
  | settingUp
  | creatingWorktree
  | created (checkout : Checkout)
  | startingAgent
  | prompting
  | running
  | failed

inductive Report where
  | base (commit : String)
  | lane (index : ℕ) (progress : Progress)

namespace SavedLane

def reach (lane : SavedLane) (step : Checkpoint) : Bool × SavedLane :=
  if step.hasCheckout ≠ lane.checkout.isSome then (false, lane)
  else (decide (lane.step ≠ step), { lane with step })

def advance (lane : SavedLane) : Progress → Bool × SavedLane
  | .creatingWorktree => lane.reach .creatingWorktree
  | .created checkout =>
      if !checkout.saved.fits || lane.checkout.isSome then (false, lane)
      else SavedLane.reach { lane with checkout := some checkout.saved } .created
  | .startingAgent => lane.reach .startingAgent
  | .prompting => lane.reach .prompting
  | .running => lane.reach .prompted
  | .settingUp => (false, lane)
  | .failed => (false, lane)

def valid (lane : SavedLane) : Bool :=
  (AgentKind.parse lane.kind).isSome && FanOut.fits lane.branch && FanOut.fits lane.agent &&
    decide (lane.step.hasCheckout = lane.checkout.isSome) && lane.checkout.all SavedCheckout.fits

end SavedLane

structure Record where
  id : UInt64
  origin : SavedOrigin
  commit : Option String
  prompt : Option String
  lanes : List SavedLane
  deriving DecidableEq

namespace Record

def new (id : UInt64) (origin : Origin) (prompt : String) (lanes : List Lane) : Record where
  id := id
  origin := origin.saved
  commit := none
  prompt := if prompt.utf8ByteSize ≤ maxPromptBytes then some prompt else none
  lanes := lanes.map fun lane => ⟨lane.kind.name, lane.branch, lane.agent, .planned, none⟩

def advance (record : Record) : Report → Bool × Record
  | .base commit =>
      if fits commit then
        (decide (record.commit ≠ some commit), { record with commit := some commit })
      else (false, record)
  | .lane index progress =>
      match record.lanes[index]? with
      | some lane =>
          let (changed, lane) := lane.advance progress
          (changed, { record with lanes := record.lanes.set index lane })
      | none => (false, record)

def worthKeeping (record : Record) : Bool :=
  record.lanes.any fun lane => decide (Checkpoint.creatingWorktree.order ≤ lane.step.order)

def valid (record : Record) : Bool :=
  [record.origin.endpointId, record.origin.host, record.origin.endpointLabel,
      record.origin.workspaceId, record.origin.repoKey, record.origin.repoLabel,
      record.origin.base].all fits &&
    record.commit.all fits &&
    (record.prompt.all fun prompt => decide (prompt.utf8ByteSize ≤ maxPromptBytes)) &&
    !record.lanes.isEmpty && decide (record.lanes.length ≤ maxLanes) &&
    record.lanes.all SavedLane.valid

def settle (indices : List ℕ) (record : Record) : Record :=
  { record with
    lanes := (record.lanes.zipIdx.filter fun entry => decide (entry.2 ∉ indices)).map Prod.fst }

def rewind (index : ℕ) (step : Checkpoint) (record : Record) : Record :=
  { record with
    lanes := record.lanes.modify index fun lane =>
      if step.hasCheckout = lane.checkout.isSome then { lane with step } else lane }

end Record

def changeFirst (id : UInt64) (change : Record → Bool × Option Record) :
    List Record → Bool × List Record
  | [] => (false, [])
  | record :: records =>
      if record.id = id then
        let (changed, kept) := change record
        (changed, kept.toList ++ records)
      else
        let (changed, rest) := changeFirst id change records
        (changed, record :: rest)

def settleIn (id : UInt64) (indices : List ℕ) (records : List Record) : Bool × List Record :=
  changeFirst id (fun record =>
    let settled := record.settle indices
    (true, if settled.worthKeeping then some settled else none)) records

def advanceIn (id : UInt64) (report : Report) (records : List Record) : Bool × List Record :=
  changeFirst id (fun record =>
    let (changed, record) := record.advance report
    (changed, some record)) records

def rewindIn (id : UInt64) (index : ℕ) (step : Checkpoint) (records : List Record) : List Record :=
  (changeFirst id (fun record => (true, some (record.rewind index step))) records).2

def laneStep (records : List Record) (id : UInt64) (index : ℕ) : Option Checkpoint :=
  (records.find? fun record => decide (record.id = id)).bind fun record =>
    record.lanes[index]?.map SavedLane.step

end Sheprd.FanOut

namespace Sheprd.FanOut

structure State where
  records : List Record
  claimed : List UInt64
  unsaved : List Record
  revision : ℕ
  rewound : ℕ

structure Pending where
  revision : ℕ
  records : List Record

namespace State

def update (path : Bool) (change : State → Bool × State) (s : State) : Option Pending × State :=
  let (changed, s) := change s
  if !changed || !path then (none, s)
  else
    let s := { s with revision := s.revision + 1 }
    (some ⟨s.revision, s.records⟩, s)

def start (record : Record) (s : State) : Bool × State :=
  let records := s.records.filter fun known => decide (known.id ≠ record.id)
  if maxRecords ≤ records.length then (false, { s with records })
  else (true, { s with claimed := s.claimed ++ [record.id], records := records ++ [record] })

def follow (record : Record) (s : State) : State :=
  let unsaved := s.unsaved.filter fun known => decide (known.id ≠ record.id)
  let unsaved := if maxUnsaved ≤ unsaved.length then unsaved.drop 1 else unsaved
  { s with unsaved := unsaved ++ [record] }

def advanceUnsaved (id : UInt64) (report : Report) (s : State) : Bool × State :=
  if s.unsaved.any fun record => decide (record.id = id) then
    (true, { s with unsaved := (advanceIn id report s.unsaved).2 })
  else (false, s)

def advance (id : UInt64) (report : Report) (s : State) : Bool × State :=
  let (changed, records) := advanceIn id report s.records
  (changed, { s with records })

def settle (id : UInt64) (indices : List ℕ) (s : State) : Bool × State :=
  let unsaved := (settleIn id indices s.unsaved).2
  let (found, records) := settleIn id indices s.records
  (found, { s with unsaved, records })

def forget (id : UInt64) (s : State) : Bool × State :=
  let records := s.records.filter fun record => decide (record.id ≠ id)
  (decide (records.length ≠ s.records.length),
    { s with unsaved := s.unsaved.filter fun record => decide (record.id ≠ id), records })

def rewind (id : UInt64) (index : ℕ) (step : Checkpoint) (s : State) : State :=
  { s with rewound := s.revision, records := rewindIn id index step s.records }

def step (id : UInt64) (index : ℕ) (s : State) : Option Checkpoint :=
  laneStep (s.records ++ s.unsaved) id index

def claim (usable : Record → Bool) (s : State) : Option Record × State :=
  match s.records.find? fun record => decide (record.id ∉ s.claimed) && usable record with
  | some record => (some record, { s with claimed := s.claimed ++ [record.id] })
  | none => (none, s)

def retake (pending : Pending) (s : State) : Pending × State :=
  if pending.revision ≤ s.rewound then
    let s := { s with revision := s.revision + 1 }
    (⟨s.revision, s.records⟩, s)
  else (pending, s)

end State

structure Recording where
  id : UInt64
  report : Report
  before : Option (ℕ × Checkpoint)

inductive Holder where
  | free
  | entered (id : UInt64) (report : Report)
  | known (call : Recording)
  | looked (call : Recording)
  | staged (made : ℕ) (pending : Pending) (call : Option Recording)
  | checked (made : ℕ) (pending : Pending) (call : Option Recording)
  | failed (made : ℕ) (call : Recording) (index : ℕ) (step : Checkpoint)

inductive Suspended where
  | follow (record : Record)
  | advance (id : UInt64) (report : Report)

inductive Act where
  | start (record : Record)
  | follow (record : Record)
  | look (id : UInt64) (report : Report)
  | stage (id : UInt64) (report : Report)
  | settle (id : UInt64) (indices : List ℕ)
  | forget (id : UInt64)
  | claim (usable : Record → Bool)
  | write (pending : Pending)
  | enter (id : UInt64) (report : Report)
  | read
  | retake
  | skip
  | save
  | fail
  | rewind

structure Journal where
  path : Bool
  state : State
  written : ℕ
  file : List Record
  holder : Holder
  suspended : List Suspended
  pending : List Pending
  memory : List (List Record)
  copies : List ℕ

namespace Journal

def opened (path : Bool) (records : List Record) : Journal where
  path := path
  state := ⟨records, [], [], 0, 0⟩
  written := 0
  file := records
  holder := .free
  suspended := []
  pending := []
  memory := [records]
  copies := [0]

def went (state : State) (j : Journal) : Journal :=
  { j with
    state
    memory := j.memory ++ [state.records]
    copies := if state.revision = j.state.revision then j.copies else j.copies ++ [j.memory.length] }

def made (result : Option Pending × State) (j : Journal) : Journal :=
  { j.went result.2 with pending := j.pending ++ result.1.toList }

end Journal

inductive Step (j : Journal) : Act → Journal → Prop
  | start {record : Record} (valid : record.valid = true)
      (taken : (j.state.start record).1 = true) :
      Step j (.start record) (j.made (j.state.update j.path (State.start record)))
  | refuse {record : Record} (valid : record.valid = true)
      (refused : (j.state.start record).1 = false) :
      Step j (.start record) { j.went (j.state.start record).2 with
        suspended := j.suspended ++ [.follow record] }
  | long {record : Record} (invalid : record.valid = false) :
      Step j (.follow record) (j.went (j.state.follow record))
  | follow {record : Record} {front back : List Suspended}
      (among : j.suspended = front ++ .follow record :: back) :
      Step j (.follow record) { j.went (j.state.follow record) with suspended := front ++ back }
  | look {id : UInt64} {report : Report} (found : (j.state.advanceUnsaved id report).1 = true) :
      Step j (.look id report) (j.went (j.state.advanceUnsaved id report).2)
  | advance {id : UInt64} {report : Report}
      (unknown : (j.state.advanceUnsaved id report).1 = false) :
      Step j (.look id report) { j.went j.state with
        suspended := j.suspended ++ [.advance id report] }
  | stage {id : UInt64} {report : Report} {front back : List Suspended}
      (among : j.suspended = front ++ .advance id report :: back) :
      Step j (.stage id report) { j.made (j.state.update j.path (State.advance id report)) with
        suspended := front ++ back }
  | settle (id : UInt64) (indices : List ℕ) :
      Step j (.settle id indices) (j.made (j.state.update j.path (State.settle id indices)))
  | forget (id : UInt64) : Step j (.forget id) (j.made (j.state.update j.path (State.forget id)))
  | claim (usable : Record → Bool) : Step j (.claim usable) (j.went (j.state.claim usable).2)
  | write {pending : Pending} {front back : List Pending} (free : j.holder = .free)
      (among : j.pending = front ++ pending :: back) :
      Step j (.write pending) { j.went j.state with
        pending := front ++ back, holder := .staged pending.revision pending none }
  | enter {id : UInt64} {report : Report} (free : j.holder = .free) :
      Step j (.enter id report) { j.went j.state with holder := .entered id report }
  | readLane {id : UInt64} {index : ℕ} {progress : Progress}
      (entered : j.holder = .entered id (.lane index progress)) :
      Step j .read { j.went j.state with
        holder := .known ⟨id, .lane index progress, (j.state.step id index).map (Prod.mk index)⟩ }
  | readBase {id : UInt64} {commit : String} (entered : j.holder = .entered id (.base commit)) :
      Step j .read { j.went j.state with holder := .known ⟨id, .base commit, none⟩ }
  | recordUnsaved {call : Recording} (known : j.holder = .known call)
      (found : (j.state.advanceUnsaved call.id call.report).1 = true) :
      Step j (.look call.id call.report)
        { j.went (j.state.advanceUnsaved call.id call.report).2 with holder := .free }
  | recordLook {call : Recording} (known : j.holder = .known call)
      (unknown : (j.state.advanceUnsaved call.id call.report).1 = false) :
      Step j (.look call.id call.report) { j.went j.state with holder := .looked call }
  | recordSame {call : Recording} {state : State} (looked : j.holder = .looked call)
      (same : j.state.update j.path (State.advance call.id call.report) = (none, state)) :
      Step j (.stage call.id call.report) { j.went state with holder := .free }
  | recordStage {call : Recording} {pending : Pending} {state : State}
      (looked : j.holder = .looked call)
      (changed : j.state.update j.path (State.advance call.id call.report) = (some pending, state)) :
      Step j (.stage call.id call.report)
        { j.went state with holder := .staged pending.revision pending (some call) }
  | retake {made : ℕ} {pending : Pending} {call : Option Recording}
      (staged : j.holder = .staged made pending call) :
      Step j .retake { j.went (j.state.retake pending).2 with
        holder := .checked made (j.state.retake pending).1 call }
  | skip {made : ℕ} {pending : Pending} {call : Option Recording}
      (checked : j.holder = .checked made pending call) (newer : pending.revision ≤ j.written) :
      Step j .skip { j.went j.state with holder := .free }
  | save {made : ℕ} {pending : Pending} {call : Option Recording}
      (checked : j.holder = .checked made pending call) (newer : j.written < pending.revision) :
      Step j .save { j.went j.state with
        file := pending.records, written := pending.revision, holder := .free }
  | fail {made : ℕ} {pending : Pending} {call : Option Recording}
      (checked : j.holder = .checked made pending call) (newer : j.written < pending.revision)
      (kept : ∀ known ∈ call, known.before = none) :
      Step j .fail { j.went j.state with holder := .free }
  | failRecord {made : ℕ} {pending : Pending} {call : Recording} {index : ℕ} {step : Checkpoint}
      (checked : j.holder = .checked made pending (some call)) (newer : j.written < pending.revision)
      (before : call.before = some (index, step)) :
      Step j .fail { j.went j.state with holder := .failed made call index step }
  | rewind {made : ℕ} {call : Recording} {index : ℕ} {step : Checkpoint}
      (failed : j.holder = .failed made call index step) :
      Step j .rewind { j.went (j.state.rewind call.id index step) with holder := .free }

end Sheprd.FanOut
