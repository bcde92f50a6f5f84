import Sheprd.FanOut.Lanes

set_option linter.dupNamespace false

namespace Sheprd.FanOut

inductive LaneState where
  | waiting
  | settingUp
  | creatingWorktree
  | startingAgent
  | prompting
  | running
  | failed
  | interrupted (step : Checkpoint)

def LaneState.settled : LaneState → Bool
  | running => true
  | failed => true
  | interrupted _ => true
  | _ => false

def SavedLane.lane (saved : SavedLane) : Option Lane :=
  (AgentKind.parse saved.kind).map fun kind => ⟨kind, saved.branch, saved.agent⟩

structure LaneView where
  lane : Lane
  state : LaneState
  checkout : Option Checkout

namespace LaneView

def progress (view : LaneView) : Progress → LaneView
  | .settingUp => { view with state := .settingUp }
  | .creatingWorktree => { view with state := .creatingWorktree }
  | .created checkout => { view with checkout := some checkout }
  | .startingAgent => { view with state := .startingAgent }
  | .prompting => { view with state := .prompting }
  | .running => { view with state := .running }
  | .failed => { view with state := .failed }

def launched (view : LaneView) : LaneView :=
  if view.state.settled then view else { view with state := .failed }

end LaneView

inductive Stage where
  | compose
  | launching
  | compare
  | confirm (winner : ℕ)
  | removing (winner : ℕ)
  deriving DecidableEq

abbrev Doomed := ℕ × Host × String

abbrev Removed := List (ℕ × Except String Unit)

namespace Removed

def gone (removed : Removed) : List ℕ :=
  removed.filterMap fun entry => entry.2.toOption.map fun _ => entry.1

def failures (removed : Removed) : List String :=
  removed.filterMap fun entry => match entry.2 with
    | .ok _ => none
    | .error error => some error

def settled (removed : Removed) (winner : ℕ) : List ℕ :=
  if removed.gone.length = removed.length then removed.gone ++ [winner] else removed.gone

end Removed

inductive Event where
  | report (report : Report)
  | launched
  | removed (results : Removed)

inductive Notice where
  | notRemoved (count : ℕ) (error : String)
  | notJournaled
  | promptLost

structure FanOut where
  stage : Stage
  lanes : List LaneView
  base : Option String
  error : Option Notice
  events : List Event

def dropAt {α : Type} (indices : List ℕ) (list : List α) : List α :=
  (list.zipIdx.filter fun entry => decide (entry.2 ∉ indices)).map Prod.fst

structure Handled where
  fanOut : FanOut
  dropped : List ℕ := []
  settles : Bool := false
  kept : Option (String × String) := none

namespace FanOut

def doomed (f : FanOut) (winner : ℕ) : List (ℕ × String) :=
  f.lanes.zipIdx.filterMap fun (view, index) =>
    if index = winner then none else view.checkout.map fun checkout => (index, checkout.workspaceId)

def keep (f : FanOut) (winner : ℕ) : Option (FanOut × List Doomed) :=
  if f.stage = .confirm winner ∧ f.lanes.all fun view => view.state.settled then
    some ({ f with error := none, stage := .removing winner },
      (f.doomed winner).filterMap fun (index, workspace) =>
        (f.lanes[index]?.bind LaneView.checkout).map fun checkout => (index, checkout.host, workspace))
  else none

def keptIndex (f : FanOut) (gone : List ℕ) (winner : ℕ) : ℕ :=
  (List.range f.lanes.length).foldl (fun kept index =>
    if index ∈ gone ∧ index < winner then kept - 1 else kept) winner

def handle (f : FanOut) : Event → Handled
  | .report (.base commit) => { fanOut := { f with base := some commit } }
  | .report (.lane index progress) =>
      { fanOut := { f with lanes := f.lanes.modify index fun view => view.progress progress } }
  | .launched =>
      { fanOut := { f with lanes := f.lanes.map LaneView.launched, stage := .compare }
        settles := f.lanes.all fun view => view.checkout.isNone }
  | .removed results =>
      match f.stage, results.failures with
      | .removing winner, [] =>
          { fanOut := f
            kept := (f.lanes[winner]?.bind LaneView.checkout).map fun checkout =>
              (checkout.endpointId, checkout.workspaceId) }
      | .removing winner, error :: errors =>
          { fanOut := { f with
              lanes := dropAt results.gone f.lanes
              error := some (.notRemoved (errors.length + 1) error)
              stage := .confirm (f.keptIndex results.gone winner) }
            dropped := results.gone }
      | _, _ => { fanOut := f }

end FanOut

def same (host : String → Option Host) (endpointId identity : String) : Option Host :=
  (host endpointId).filter fun host => decide (host.identity = identity)

def Checkpoint.resumes : Checkpoint → Bool
  | created => true
  | startingAgent => true
  | prompting => true
  | _ => false

def SavedLane.restore (host : String → Option Host) (saved : SavedLane) : Option LaneView :=
  saved.lane.map fun lane =>
    let checkout := saved.checkout.bind fun checkout =>
      (same host checkout.endpointId checkout.host).map fun host =>
        ⟨checkout.endpointId, host, checkout.workspaceId, checkout.path, checkout.paneId⟩
    let state := match saved.checkout, checkout, saved.step with
      | some _, none, _ => .failed
      | _, _, .prompted => .running
      | _, _, step => .interrupted step
    ⟨lane, state, checkout⟩

namespace FanOut

def launch (lanes : List Lane) (error : Option Notice) : FanOut where
  stage := .launching
  lanes := lanes.map fun lane => ⟨lane, .waiting, none⟩
  base := none
  error := error
  events := []

def interrupted (lanes : List LaneView) : Bool :=
  lanes.any fun view => match view.state with
    | .interrupted step => step.resumes
    | _ => false

def restore (host : String → Option Host) (record : Record) : Option FanOut :=
  if record.worthKeeping then
    (same host record.origin.endpointId record.origin.host).bind fun _ =>
      (record.lanes.mapM (SavedLane.restore host)).map fun lanes =>
        { stage := .compare
          lanes
          base := record.commit
          error := if record.prompt.isNone && interrupted lanes then some .promptLost else none
          events := [] }
  else none

end FanOut

inductive Work where
  | removing (winner : ℕ) (doomed : List Doomed) (removed : Removed)
  | settled (removed : Removed)

structure Session where
  journal : Journal
  fanOut : Option FanOut
  work : Option Work
  alive : List ℕ
  left : List ℕ
  chosen : Option ℕ

def Act.spares (id : UInt64) : Act → Prop
  | .start record => record.id ≠ id
  | .follow record => record.id ≠ id
  | .settle other _ => other ≠ id
  | .forget other => other ≠ id
  | _ => True

def Journal.settled (j : Journal) (id : UInt64) (indices : List ℕ) : Journal :=
  j.made (j.state.update j.path (State.settle id indices))

namespace Session

def showing (s : Session) (f : FanOut) : Session := { s with fanOut := some f }

def handled (s : Session) (id : UInt64) (h : Handled) : Session :=
  { s with
    journal := if h.settles then s.journal.settled id [] else s.journal
    fanOut := if h.kept.isSome then none else some h.fanOut
    alive := dropAt h.dropped s.alive }

inductive Step (id : UInt64) (s : Session) : Session → Prop
  | elsewhere {act : Act} {journal : Journal} (went : FanOut.Step s.journal act journal)
      (spares : act.spares id) : Step id s { s with journal }
  | report {f : FanOut} (shown : s.fanOut = some f) (report : Report) :
      Step id s (s.showing { f with events := f.events ++ [.report report] })
  -- A launch says once that it ended.
  | launched {f : FanOut} (shown : s.fanOut = some f) (launching : f.stage = .launching)
      (first : Event.launched ∉ f.events) :
      Step id s (s.showing { f with events := f.events ++ [.launched] })
  | poll {f : FanOut} {event : Event} {events : List Event} (shown : s.fanOut = some f)
      (next : f.events = event :: events) :
      Step id s (s.handled id (FanOut.handle { f with events } event))
  | resume {f : FanOut} {index : ℕ} {state : LaneState} (shown : s.fanOut = some f)
      (compare : f.stage = .compare) (resumed : state = .startingAgent ∨ state = .prompting) :
      Step id s (s.showing { f with
        lanes := f.lanes.modify index fun view => { view with state }, error := none })
  | confirm {f : FanOut} {index : ℕ} {view : LaneView} (shown : s.fanOut = some f)
      (compare : f.stage = .compare) (lane : f.lanes[index]? = some view)
      (keepable : view.checkout.isSome = true) :
      Step id s { s.showing { f with stage := .confirm index, error := none } with
        chosen := s.alive[index]? }
  | back {f : FanOut} {index : ℕ} (shown : s.fanOut = some f) (asking : f.stage = .confirm index) :
      Step id s (s.showing { f with stage := .compare, error := none })
  | forget {f : FanOut} {journal : Journal} (shown : s.fanOut = some f)
      (compare : f.stage = .compare) (settled : f.lanes.all fun view => view.state.settled)
      (forgets : FanOut.Step s.journal (.forget id) journal) :
      Step id s { s with journal, fanOut := none }
  | keep {f f' : FanOut} {winner : ℕ} {doomed : List Doomed} (shown : s.fanOut = some f)
      (kept : f.keep winner = some (f', doomed)) :
      Step id s { s.showing f' with work := some (.removing winner doomed []) }
  | remove {winner : ℕ} {lane : Doomed} {doomed : List Doomed} {removed : Removed}
      (work : s.work = some (.removing winner (lane :: doomed) removed))
      (result : Except String Unit) :
      Step id s { s with work := some (.removing winner doomed (removed ++ [(lane.1, result)])) }
  | settle {winner : ℕ} {removed : Removed}
      (work : s.work = some (.removing winner [] removed)) :
      Step id s { s with
        journal := s.journal.settled id (removed.settled winner)
        left := dropAt (removed.settled winner) s.left
        work := some (.settled removed) }
  | send {removed : Removed} (work : s.work = some (.settled removed)) :
      Step id s { s with
        fanOut := s.fanOut.map fun f => { f with events := f.events ++ [.removed removed] }
        work := none }

def opened (journal : Journal) (f : FanOut) : Session where
  journal := journal
  fanOut := some f
  work := none
  alive := List.range f.lanes.length
  left := List.range f.lanes.length
  chosen := none

end Session

inductive Begins (j : Journal) (record : Record) : Option Notice → Journal → Prop
  | saved {j' : Journal} (began : Step j (.start record) j')
      (taken : (j.state.start record).1 = true) : Begins j record none j'
  | refused {j' k k' : Journal} {acts : List Act} (refused : Step j (.start record) j')
      (full : (j.state.start record).1 = false) (between : Lib.Run Step j' acts k)
      (spares : ∀ act ∈ acts, act.spares record.id) (follows : Step k (.follow record) k') :
      Begins j record (some .notJournaled) k'
  | long {j' : Journal} (invalid : record.valid = false) (follows : Step j (.follow record) j') :
      Begins j record (some .notJournaled) j'

inductive Opened (id : UInt64) (plan : List Lane) (j : Journal) : Session → Prop
  | launched {origin : Origin} {prompt : String} {error : Option Notice} {j' : Journal}
      (new : ∀ record ∈ j.state.records ++ j.state.unsaved, record.id ≠ id)
      (began : Begins j (Record.new id origin prompt plan) error j') :
      Opened id plan j (Session.opened j' (FanOut.launch plan error))
  | restored {host : String → Option Host} {record : Record} {f : FanOut}
      (claimed : record ∈ j.state.records) (own : record.id = id)
      (unfollowed : ∀ known ∈ j.state.unsaved, known.id ≠ id)
      (back : FanOut.restore host record = some f) (lanes : f.lanes.map LaneView.lane = plan) :
      Opened id plan j (Session.opened j f)

end Sheprd.FanOut
