import Sheprd.Lib.Register
import Sheprd.Lib.Text
import Sheprd.Protocol.Wire

namespace Sheprd.Vcs

open Lib Protocol

def queueLimit : ℕ := 32

def hostLimit : ℕ := 16

inductive Host where
  | localHost
  | ssh (target : String)
  | wsl (distro : String)
  | azure (account id : String)
  deriving DecidableEq

structure Checkout where
  host : Host
  repoKey : String
  branch : String
  deriving DecidableEq

def Checkout.new (host : Host) (repoKey : String) (branch : Option String) : Option Checkout := do
  let branch ← branch.filter fun branch =>
    branch ≠ "" && branch.utf8ByteSize ≤ 1024 && !branch.toList.any Text.isControl
  if repoKey.toList.head? = some '/' ∧ repoKey.toList.any Text.isControl = false then
    some { host, repoKey, branch }
  else none

structure Diff where
  files : ℕ
  additions : ℕ
  deletions : ℕ

structure Checkpoint where
  id : String
  created : ℤ
  label : String
  branch : Option String
  diff : Diff

inductive Error where
  | script (text : String)
  | thread (cause : String)
  | worker

def describe : Error → String
  | .script text => text
  | .thread cause => "Could not start the checkpoint worker: " ++ cause
  | .worker => "The checkpoint worker stopped."

inductive Answer where
  | captured (result : Except Error (Option String))
  | listed (result : Except Error (List Checkpoint))
  | restored (result : Except Error Unit)

inductive Request where
  | capture (label : String)
  | list
  | restore (id : String)
  deriving DecidableEq

def Request.failed (error : Error) : Request → Answer
  | .capture _ => .captured (.error error)
  | .list => .listed (.error error)
  | .restore _ => .restored (.error error)

structure Job where
  checkout : Checkout
  request : Request
  deriving DecidableEq

def Job.captures (job : Job) : Bool :=
  match job.request with
  | .capture _ => true
  | _ => false

structure HostRun where
  captured : Except Error (Option String)
  listed : Except Error (List Checkpoint)
  restored : Except Error Unit

def execute (run : HostRun) (job : Job) : Answer :=
  match job.request with
  | .capture _ => .captured run.captured
  | .list => .listed run.listed
  | .restore _ => .restored run.restored

structure Worker where
  requests : Option (Job × String) := none
  executing : Option (Job × String) := none
  results : Option Answer := none
  alive : Bool := true

inductive TryRecv where
  | ok (answer : Answer) (worker : Worker)
  | empty
  | disconnected

def Worker.tryRecv (worker : Worker) : TryRecv :=
  match worker.results with
  | some answer => .ok answer { worker with results := none }
  | none => if worker.alive then .empty else .disconnected

inductive TrySend where
  | ok (worker : Worker)
  | full
  | disconnected

def Worker.trySend (worker : Worker) (message : Job × String) : TrySend :=
  if worker.alive = false then .disconnected
  else
    match worker.requests with
    | none => .ok { worker with requests := some message }
    | some _ => .full

inductive WorkerAct where
  | recv
  | send (run : HostRun)
  | die

def Worker.moves (worker : Worker) : WorkerAct → Worker
  | .recv =>
      match worker.alive, worker.requests, worker.executing with
      | true, some message, none => { worker with requests := none, executing := some message }
      | _, _, _ => worker
  | .send run =>
      match worker.alive, worker.executing, worker.results with
      | true, some (job, _), none =>
          { worker with executing := none, results := some (execute run job) }
      | _, _, _ => worker
  | .die => { worker with alive := false, requests := none, executing := none }

structure Lane where
  worker : Option Worker := none
  queue : List Job := []
  running : Option Job := none

structure Watch where
  snapshot : Option ℕ := none
  bootId : String := ""
  statuses : List (String × AgentStatus) := []

inductive Listing where
  | loading
  | ready (list : List Checkpoint)
  | failed (text : String)

structure View where
  checkout : Checkout
  title : String
  workspaceId : String
  listing : Listing
  selected : Option ℕ
  confirming : Option String
  restoring : Bool
  error : Option String
  wanted : Option String

def View.opened (checkout : Checkout) (title workspaceId : String) : View where
  checkout := checkout
  title := title
  workspaceId := workspaceId
  listing := .loading
  selected := none
  confirming := none
  restoring := false
  error := none
  wanted := none

def View.confirmingCheckpoint (view : View) : Option Checkpoint :=
  match view.confirming, view.listing with
  | some id, .ready list => list.find? fun checkpoint => checkpoint.id = id
  | _, _ => none

def View.restorable (view : View) (checkpoint : Checkpoint) : Bool :=
  checkpoint.branch = some view.checkout.branch

structure Restored where
  checkout : Checkout
  result : Except Error Unit

structure Ledger where
  accepted : List Job := []
  answered : List (Job × Answer) := []
  handed : List ℕ := []
  reported : List Restored := []

structure Checkpoints where
  watches : List (String × Watch) := []
  lanes : List (Host × Lane) := []
  view : Option View := none
  lastStamp : ℕ := 0
  ledger : Ledger := {}

def agentName (agent : ClientShellAgent) : String :=
  (([agent.displayAgent, agent.agent, agent.name].filterMap id).map Text.trim).find?
    (fun name => name ≠ "") |>.getD "Agent"

def turnLabel (name : String) : AgentStatus → AgentStatus → Option String
  | .idle, .working | .done, .working => some s!"Before {name}'s turn"
  | .working, .idle | .working, .done | .blocked, .idle | .blocked, .done =>
      some s!"{name} finished a turn"
  | _, _ => none

def workspaceCheckout (host : Host) (snapshot : ClientShellSnapshot) (workspaceId : String) :
    Option Checkout := do
  let workspace ← snapshot.workspaces.find? fun workspace => workspace.workspaceId = workspaceId
  let worktree ← workspace.worktree
  Checkout.new host worktree.key workspace.branch

def turn (host : Host) (snapshot : ClientShellSnapshot) (previous : List (String × AgentStatus))
    (agent : ClientShellAgent) : Option (Checkout × String) := do
  let before ← Register.lookup previous agent.paneId
  let label ← turnLabel (agentName agent) before agent.agentStatus
  let checkout ← workspaceCheckout host snapshot agent.workspaceId
  some (checkout, label)

namespace Checkpoints

def lane (c : Checkpoints) (host : Host) : Option Lane :=
  match Register.lookup c.lanes host with
  | some lane => some lane
  | none => if hostLimit ≤ c.lanes.length then none else some {}

def put (c : Checkpoints) (host : Host) (lane : Lane) : Checkpoints :=
  { c with lanes := Register.assign host lane c.lanes }

def accepts (c : Checkpoints) (job : Job) : Checkpoints :=
  { c with ledger.accepted := c.ledger.accepted ++ [job] }

def relabelled (checkout : Checkout) (label : String) : List Job → Option (List Job)
  | [] => none
  | job :: queue =>
      if job.checkout = checkout ∧ job.captures then
        some ({ job with request := .capture label } :: queue)
      else (relabelled checkout label queue).map (job :: ·)

def capture (c : Checkpoints) (checkout : Checkout) (label : String) : Checkpoints :=
  match c.lane checkout.host with
  | none => c
  | some lane =>
      match relabelled checkout label lane.queue with
      | some queue => c.put checkout.host { lane with queue }
      | none =>
          if queueLimit ≤ lane.queue.length then c.put checkout.host lane
          else
            let job := { checkout, request := .capture label }
            (c.accepts job).put checkout.host { lane with queue := lane.queue ++ [job] }

def observe (c : Checkpoints) (endpoint : String) (host : Host) (stored : ℕ)
    (snapshot : ClientShellSnapshot) : Checkpoints :=
  let watch := (Register.lookup c.watches endpoint).getD {}
  if watch.snapshot = some stored then
    { c with watches := Register.assign endpoint watch c.watches }
  else
    let previous := if watch.bootId = snapshot.bootId then watch.statuses else []
    let watch : Watch :=
      { snapshot := some stored
        bootId := snapshot.bootId
        statuses := snapshot.agents.foldl
          (fun statuses agent => Register.assign agent.paneId agent.agentStatus statuses) [] }
    (snapshot.agents.filterMap (turn host snapshot previous)).foldl
      (fun c taken => c.capture taken.1 taken.2)
      { c with watches := Register.assign endpoint watch c.watches }

def retainEndpoints (c : Checkpoints) (keep : String → Bool) : Checkpoints :=
  { c with watches := c.watches.filter fun e => keep e.1 }

def list (c : Checkpoints) (checkout : Checkout) : Checkpoints :=
  match c.lane checkout.host with
  | none => c
  | some lane =>
      let job := { checkout, request := .list }
      if job ∈ lane.queue then c.put checkout.host lane
      else (c.accepts job).put checkout.host { lane with queue := job :: lane.queue }

def openView (c : Checkpoints) (checkout : Checkout) (title workspaceId : String) : Checkpoints :=
  { c with view := some (.opened checkout title workspaceId) }.list checkout

def want (c : Checkpoints) (id : String) : Checkpoints :=
  { c with view := c.view.map fun view => { view with wanted := some id } }

def close (c : Checkpoints) : Checkpoints := { c with view := none }

def edit (c : Checkpoints) (selected : Option ℕ) (confirming error : Option String) : Checkpoints :=
  { c with view := c.view.map fun view => { view with selected, confirming, error } }

def restore (c : Checkpoints) : Checkpoints :=
  match c.view with
  | none => c
  | some view =>
      if view.restoring then c
      else
        match view.confirmingCheckpoint.filter view.restorable with
        | none => c
        | some checkpoint =>
            let job := { checkout := view.checkout, request := .restore checkpoint.id }
            match c.lane job.checkout.host with
            | some lane =>
                ({ c with view := some { view with restoring := true, error := none } }.accepts
                  job).put job.checkout.host { lane with queue := job :: lane.queue }
            | none =>
                { c with
                  view := some
                    { view with
                      restoring := false
                      error := some "Too many hosts are busy with checkpoints." } }

def stamp (c : Checkpoints) (now : ℕ) : Checkpoints :=
  { c with lastStamp := max now (c.lastStamp + 1) }

def stampText (c : Checkpoints) : String :=
  .ofList ((Nat.toDigits 10 c.lastStamp).leftpad 16 '0')

end Checkpoints

def Lane.receive (lane : Lane) : Lane × Option (Job × Answer) :=
  match lane.worker, lane.running with
  | some worker, some job =>
      match worker.tryRecv with
      | .ok answer worker => ({ lane with worker := some worker, running := none }, some (job, answer))
      | .empty => (lane, none)
      | .disconnected =>
          ({ lane with worker := none, running := none }, some (job, job.request.failed .worker))
  | _, _ => (lane, none)

structure Meets where
  now : ℕ
  spawn : Option String
  dies : Bool

def Lane.employ (lane : Lane) (meets : Meets) : Except Error Worker :=
  match lane.worker with
  | some worker => .ok worker
  | none =>
      match meets.spawn with
      | none => .ok {}
      | some cause => .error (.thread cause)

def View.choose (view : View) : View :=
  match view.wanted, view.listing with
  | some wanted, .ready list =>
      match list.findIdx? fun checkpoint => checkpoint.id = wanted with
      | some index => { view with wanted := none, selected := some index }
      | none =>
          { view with wanted := none, error := some s!"Checkpoint {wanted} is not among these." }
  | _, _ => { view with wanted := none }

def Listing.count : Listing → ℕ
  | .ready list => list.length
  | _ => 0

def Listing.of : Except Error (List Checkpoint) → Listing
  | .ok list => .ready list
  | .error error => .failed (describe error)

def View.listed (view : View) (result : Except Error (List Checkpoint)) : View :=
  let listing := Listing.of result
  let view :=
    { view with listing, selected := view.selected.filter (· < listing.count) }.choose
  if view.confirmingCheckpoint = none ∧ view.restoring = false then
    { view with confirming := none }
  else view

def View.restored (view : View) : Except Error Unit → View
  | .ok () => { view with restoring := false, confirming := none, selected := none }
  | .error error => { view with restoring := false, error := some (describe error) }

namespace Checkpoints

def viewed (c : Checkpoints) (checkout : Checkout) : Option View :=
  c.view.filter fun view => view.checkout = checkout

def answers (c : Checkpoints) (job : Job) (answer : Answer) : Checkpoints :=
  { c with ledger.answered := c.ledger.answered ++ [(job, answer)] }

def restoredView (c : Checkpoints) (checkout : Checkout) (result : Except Error Unit) :
    Checkpoints :=
  match c.viewed checkout with
  | some view => { c with view := some (view.restored result) }.list checkout
  | none => c

def apply (c : Checkpoints) (job : Job) (answer : Answer) : Checkpoints × Bool × List Restored :=
  let c := c.answers job answer
  match answer with
  | .captured result =>
      match result, c.viewed job.checkout with
      | .ok (some _), some _ => (c.list job.checkout, false, [])
      | _, _ => (c, false, [])
  | .listed result =>
      match c.viewed job.checkout with
      | none => (c, false, [])
      | some view => ({ c with view := some (view.listed result) }, true, [])
  | .restored result => (c.restoredView job.checkout result, true, [⟨job.checkout, result⟩])

def applyAll (s : Checkpoints × Bool × List Restored) (answers : List (Job × Answer)) :
    Checkpoints × Bool × List Restored :=
  answers.foldl
    (fun s p =>
      let (c, changed, restored) := s.1.apply p.1 p.2
      (c, s.2.1 || changed, s.2.2 ++ restored))
    s

def received (c : Checkpoints) : Checkpoints :=
  { c with lanes := Register.relabel (fun lane => lane.receive.1) c.lanes }

def arrived (c : Checkpoints) : List (Job × Answer) :=
  c.lanes.filterMap fun e => e.2.receive.2

def idle (c : Checkpoints) : List Host :=
  (c.lanes.filter fun e => e.2.running.isNone && !e.2.queue.isEmpty).map Prod.fst

def hands (c : Checkpoints) : Checkpoints :=
  { c with ledger.handed := c.ledger.handed ++ [c.lastStamp] }

def send (c : Checkpoints) (host : Host) (lane : Lane) (job : Job) (queue : List Job)
    (worker : Worker) : Checkpoints :=
  match worker.trySend (job, c.stampText) with
  | .ok worker => c.hands.put host { worker := some worker, queue, running := some job }
  | .full => c.put host { lane with worker := some worker, queue := job :: queue }
  | .disconnected => c.put host { lane with worker := none, queue := job :: queue }

def start (meets : Host → Meets) (s : Checkpoints × List (Job × Answer)) (host : Host) :
    Checkpoints × List (Job × Answer) :=
  let c := s.1.stamp (meets host).now
  match Register.lookup c.lanes host with
  | none => (c, s.2)
  | some lane =>
      match lane.queue with
      | [] => (c, s.2)
      | job :: queue =>
          match lane.employ (meets host) with
          | .error error =>
              (c.put host { lane with queue }, s.2 ++ [(job, job.request.failed error)])
          | .ok worker =>
              (c.send host lane job queue
                (if (meets host).dies then worker.moves .die else worker), s.2)

def retained (c : Checkpoints) : Checkpoints :=
  { c with lanes := c.lanes.filter fun e => e.2.running.isSome || !e.2.queue.isEmpty }

def poll (c : Checkpoints) (meets : Host → Meets) : Checkpoints × Bool × List Restored :=
  let (applied, changed, restored) := applyAll (c.received, false, []) c.arrived
  let (started, failures) := applied.idle.foldl (start meets) (applied, [])
  let (ended, changed, restored) := applyAll (started, changed, restored) failures
  (ended.retained, changed, restored)

end Checkpoints

inductive Act where
  | observe (endpoint : String) (host : Host) (stored : ℕ) (snapshot : ClientShellSnapshot)
  | retainEndpoints (keep : String → Bool)
  | openView (checkout : Checkout) (title workspaceId : String)
  | want (id : String)
  | close
  | edit (selected : Option ℕ) (confirming error : Option String)
  | restore
  | poll (meets : Host → Meets)
  | worker (host : Host) (act : WorkerAct)
  | rehash (key : Host → ℕ)

namespace Checkpoints

def polled (c : Checkpoints) (meets : Host → Meets) : Checkpoints :=
  let (c, _, restored) := c.poll meets
  { c with ledger.reported := c.ledger.reported ++ restored }

def works (c : Checkpoints) (host : Host) (act : WorkerAct) : Checkpoints :=
  match Register.lookup c.lanes host with
  | some lane => c.put host { lane with worker := lane.worker.map fun worker => worker.moves act }
  | none => c

def next (c : Checkpoints) : Act → Checkpoints
  | .observe endpoint host stored snapshot => c.observe endpoint host stored snapshot
  | .retainEndpoints keep => c.retainEndpoints keep
  | .openView checkout title workspaceId => c.openView checkout title workspaceId
  | .want id => c.want id
  | .close => c.close
  | .edit selected confirming error => c.edit selected confirming error
  | .restore => c.restore
  | .poll meets => c.polled meets
  | .worker host act => c.works host act
  | .rehash key => { c with lanes := c.lanes.mergeSort fun e e' => key e.1 ≤ key e'.1 }

def after (acts : List Act) : Checkpoints := acts.foldl next {}

end Checkpoints

end Sheprd.Vcs
