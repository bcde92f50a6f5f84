import Sheprd.Acp.Projector
import Sheprd.Chat.Wire

namespace Sheprd.Acp

open Sheprd.Lib Sheprd.Lib.Exec Sheprd.Chat

def logCount : ℕ := 8192
def logBytes : ℕ := 32 * 1024 * 1024
def handledCount : ℕ := 256
def maxEntries : ℕ := 2000
def maxTranscriptText : ℕ := 2 * 1024 * 1024
def maxTranscriptMedia : ℕ := 8 * 1024 * 1024

inductive RequestId where
  | number (id : ℤ)
  | string (id : String)
  | null
  deriving DecidableEq

structure Accepts where
  embedded : Bool
  image : Bool

structure Prepared where
  block : Wire.ContentBlock
  image : Option Image

structure World where
  takes : ℕ → Bool
  agentFails : ℕ → Option String
  now : ℕ → ℕ
  readable : ℕ → Attachment → Bool
  prepare : ℕ → Attachment → Accepts → Prepared
  linked : String → List String
  picture : ℕ → String → Option Image
  ofTool : ℕ → Tool → List ToolContent

structure Config where
  agent : String
  cwd : String
  exitWithAgent : Bool
  history : Option Transcript
  load : Option String
  loginHint : Option String
  pane : Option String
  requireLoad : Bool

inductive Activity where
  | idle
  | working
  | blocked
  deriving DecidableEq

inductive Update where
  | activity (activity : Activity)
  | opened (id : String)
  | prompt (text : String)

inductive Pending where
  | handshake
  | newSession
  | loadSession
  | prompt
  | setMode (mode : String)
  | setOption

inductive AgentRequest where
  | handshake
  | newSession (cwd : String)
  | loadSession (id cwd : String)
  | prompt (session : String) (blocks : List Wire.ContentBlock)
  | setMode (session mode : String)
  | setOption (session id : String) (value : OptionValue)

inductive PermissionOutcome where
  | selected (option : String)
  | cancelled

inductive Outbound where
  | request (id : ℤ) (request : AgentRequest)
  | cancel (session : String)
  | permission (id : RequestId) (outcome : PermissionOutcome)
  | methodNotFound (id : RequestId)
  | invalidParams (id : RequestId)

structure Subscriber where
  conn : ℕ
  isLocal : Bool
  outbox : ℕ

structure Asked where
  options : List String
  request : RequestId

structure Pictures where
  message : Option EntryId
  tools : Finset String

structure Refusal where
  line : Outbound
  running : Bool

structure Client where
  resumed : Option Cursor
  sent : List ServerMessage

structure Session where
  accepts : Accepts
  acpSession : Option String
  activity : Option Activity
  asked : Dict PermissionId Asked
  config : Config
  epoch : Uuid
  handled : List (CommandId × Option Rejection)
  log : List (ℕ × Change)
  logBytes : ℕ
  nextPermission : ℕ
  nextRequest : ℤ
  outbox : List Outbound
  pending : Dict ℤ Pending
  pictures : Pictures
  projector : Projector
  ready : Bool
  reports : List Update
  seq : ℕ
  subscribers : List Subscriber
  transcript : Transcript
  turn : Option ℤ
  tick : ℕ
  clients : List Client
  shown : List Transcript
  emitted : List (Transcript × Change)
  refused : List Refusal

inductive Fault where
  | depth
  | index

abbrev Acting := Exec Fault Session

section Sizes

def sumOf {α : Type} (f : α → ℕ) (l : List α) : ℕ := (l.map f).sum

def contentSize : ToolContent → ℕ
  | .text text => text.utf8ByteSize
  | .diff new old path =>
      new.utf8ByteSize + old.elim 0 String.utf8ByteSize + path.utf8ByteSize
  | .terminal id => id.utf8ByteSize
  | .image _ => 0

def entrySize (entry : Entry) : ℕ :=
  match entry.kind with
  | .notice answers details _ text =>
      text.utf8ByteSize + details.elim 0 String.utf8ByteSize +
        sumOf (fun a : QuestionAnswer => a.question.utf8ByteSize + a.answer.utf8ByteSize) answers
  | .tool tool =>
      tool.title.utf8ByteSize + sumOf String.utf8ByteSize tool.locations +
        sumOf contentSize tool.content
  | .turn _ => 32
  | kind => kind.text.elim 0 String.utf8ByteSize

def contentMedia : ToolContent → ℕ
  | .image image => image.data.utf8ByteSize
  | _ => 0

def entryMedia (entry : Entry) : ℕ :=
  match entry.kind with
  | .image _ image => image.data.utf8ByteSize
  | .tool tool => sumOf contentMedia tool.content
  | _ => 0

def changeSize : Change → ℕ
  | .push entry => entrySize entry + entryMedia entry
  | .replace entry => entrySize entry + entryMedia entry
  | .append _ text => text.utf8ByteSize
  | _ => 64

def dropWhileOver : List Entry → ℕ → ℕ → ℕ → ℕ
  | entry :: next :: rest, text, media, drop =>
      if maxTranscriptText < text ∨ maxTranscriptMedia < media then
        dropWhileOver (next :: rest) (text - entrySize entry) (media - entryMedia entry) (drop + 1)
      else drop
  | _, _, _, drop => drop

def keepFrom (entries : List Entry) : ℕ :=
  let drop := entries.length - maxEntries
  let kept := entries.drop drop
  dropWhileOver kept (sumOf entrySize kept) (sumOf entryMedia kept) drop

def trimLog (size : ℕ) : List (ℕ × Change) → ℕ → List (ℕ × Change) × ℕ
  | [], bytes => ([], bytes)
  | old :: log, bytes =>
      if (old :: log).length = logCount ∨ logBytes < bytes + size then
        trimLog size log (bytes - changeSize old.2)
      else (old :: log, bytes)

end Sizes

namespace Session

def cursor (s : Session) : Cursor := ⟨s.epoch, s.seq⟩

def remoteClients (s : Session) : ℕ :=
  min (s.subscribers.filter fun subscriber => !subscriber.isLocal).length (2 ^ 32 - 1)

def logged (change : Change) (s : Session) : Session :=
  let size := changeSize change
  let (log, bytes) := trimLog size s.log s.logBytes
  { s with log := log ++ [(s.seq, change)], logBytes := bytes + size }

def applied (change : Change) (transcript : Transcript) (s : Session) : Session :=
  { s with
    transcript
    projector := match change with
      | .truncate before => s.projector.forgetBefore before
      | _ => s.projector
    seq := s.seq + 1
    shown := s.shown ++ [transcript]
    emitted := s.emitted ++ [(s.transcript, change)] }

def new (config : Config) (epoch : Uuid) : Session :=
  let start := Transcript.new config.agent
  let transcript := config.history.elim start fun history =>
    { start with
      entries := history.entries
      truncated := history.truncated
      usage := history.usage }
  { accepts := ⟨false, false⟩
    acpSession := none
    activity := none
    asked := ∅
    config
    epoch
    handled := []
    log := []
    logBytes := 0
    nextPermission := 0
    nextRequest := 0
    outbox := []
    pending := ∅
    pictures := ⟨none, ∅⟩
    projector := transcript.lastEntryId.elim .default .after
    ready := false
    reports := []
    seq := 0
    subscribers := []
    transcript
    turn := none
    tick := 0
    clients := []
    shown := [transcript]
    emitted := []
    refused := [] }

end Session

section Emit

variable (world : World)

def ask {α : Type} (f : ℕ → α) : Acting α := do
  let s ← get
  set { s with tick := s.tick + 1 }
  return f s.tick

def project {α : Type} (f : Projector → α × Projector) : Acting α := do
  let s ← get
  set { s with projector := (f s.projector).2 }
  return (f s.projector).1

def tellHerdr (update : Update) : Acting Unit :=
  modify fun s => { s with reports := s.reports ++ [update] }

def Client.push (message : ServerMessage) (client : Client) : Client :=
  { client with sent := client.sent ++ [message] }

def trySend (outbox : ℕ) (message : ServerMessage) : Acting Bool := do
  let taken ← ask world.takes
  when taken (modify fun s => { s with clients := s.clients.modify outbox (Client.push message) })
  return taken

def sendAll (message : ServerMessage) : List Subscriber → Acting (List Subscriber)
  | [] => return []
  | subscriber :: rest => do
      let taken ← trySend world subscriber.outbox message
      let kept ← sendAll message rest
      return if taken then subscriber :: kept else kept

def publish (change : Change) : Acting Unit := do
  modify (Session.logged change)
  let s ← get
  let kept ← sendAll world (.change change s.cursor) s.subscribers
  modify fun s => { s with subscribers := kept }

def reportActivity : Acting Unit := do
  let s ← get
  let activity : Activity := if s.transcript.isBlocked then .blocked
    else if s.transcript.status = .working then .working
    else .idle
  when (decide (s.activity ≠ some activity)) do
    modify fun s => { s with activity := some activity }
    tellHerdr (.activity activity)

def bound (emit : Change → Acting Unit) : Acting Unit := do
  let s ← get
  let drop := keepFrom s.transcript.entries
  when (decide (0 < drop)) do
    let entry ← require s.transcript.entries[drop]? .index
    emit (.truncate entry.id)

def showLinked (emit : Change → Acting Unit) : List String → Acting Bool
  | [] => return false
  | path :: paths => do
      match ← ask (fun tick => world.picture tick path) with
      | none => showLinked emit paths
      | some image => do
          let picture ← project (Projector.image .agent image)
          emit picture
          let _ ← showLinked emit paths
          return true

def linkedIn (s : Session) (message : EntryId) : List String :=
  match (s.transcript.entry message).map Entry.kind with
  | some (.agent text) => world.linked text
  | _ => []

def Entry.isAgent (entry : Entry) : Bool :=
  match entry.kind with
  | .agent _ => true
  | _ => false

def closeMessage (emit : Change → Acting Unit) (entry : Entry) : Acting Entry := do
  let s ← get
  match s.pictures.message with
  | none => return entry
  | some message => do
      set { s with pictures := { s.pictures with message := none } }
      let added ← showLinked world emit (linkedIn world s message)
      if added then do
        let id ← project (Projector.renumber entry.id)
        return { entry with id }
      else return entry

def picturesBefore (emit : Change → Acting Unit) : Change → Acting Change
  | .push entry => do
      let s ← get
      if s.pictures.message = some entry.id then return .push entry
      else do
        let entry ← closeMessage world emit entry
        when (Entry.isAgent entry) (modify fun s =>
          { s with pictures := { s.pictures with message := some entry.id } })
        return .push entry
  | change => return change

def Entry.withImages (images : List ToolContent) (entry : Entry) : Entry :=
  match entry.kind with
  | .tool tool => { entry with kind := .tool { tool with content := tool.content ++ images } }
  | _ => entry

def finishedCall : Change → Option (Entry × Tool)
  | .push entry => match entry.kind with
      | .tool tool => if tool.status = .completed then some (entry, tool) else none
      | _ => none
  | .replace entry => match entry.kind with
      | .tool tool => if tool.status = .completed then some (entry, tool) else none
      | _ => none
  | _ => none

def picturesAfter (emit : Change → Acting Unit) (change : Change) : Acting Unit :=
  match finishedCall change with
  | none => pure ()
  | some (entry, tool) => do
      let s ← get
      when (decide (tool.callId ∉ s.pictures.tools)) do
        modify fun s => { s with
          pictures := { s.pictures with tools := insert tool.callId s.pictures.tools } }
        let images ← ask (fun tick => world.ofTool tick tool)
        when (!images.isEmpty) (emit (.replace (Entry.withImages images entry)))

def touchesEntries : Change → Bool
  | .push _ => true
  | .append _ _ => true
  | .replace _ => true
  | _ => false

def afterApply (emit : Change → Acting Unit) (change : Change) : Acting Unit := do
  let before := (← get).remoteClients
  publish world change
  when (touchesEntries change) (bound emit)
  let count := (← get).remoteClients
  when (decide (count ≠ before)) (emit (.clients count))
  reportActivity
  picturesAfter world emit change

def applyChange (emit : Change → Acting Unit) (change : Change) : Acting Unit := do
  let s ← get
  match exec (Transcript.apply change) s.transcript with
  | (.error _, transcript) => set { s with transcript }
  | (.ok _, transcript) => do
      set (s.applied change transcript)
      afterApply world emit change

def emitBody (emit : Change → Acting Unit) (change : Change) : Acting Unit := do
  let change ← picturesBefore world emit change
  applyChange world emit change

def emitTo : ℕ → Change → Acting Unit
  | 0, _ => throw .depth
  | depth + 1, change => emitBody world (emitTo depth) change

def emit (change : Change) : Acting Unit := do
  let s ← get
  emitTo world (s.subscribers.length + 3) change

end Emit

end Sheprd.Acp
