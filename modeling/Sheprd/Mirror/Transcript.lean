import Sheprd.Acp.Session
import Sheprd.Mirror.Records

namespace Sheprd.Mirror

open Sheprd.Lib Sheprd.Lib.Exec Sheprd.Chat

def u64Max : ℕ := 2 ^ 64 - 1
def tail : ℕ := 8 * 1024 * 1024
def maxRecord : ℕ := 1024 * 1024
def maxBlocks : ℕ := 1024
def maxId : ℕ := 512
def maxCwd : ℕ := 4096
def maxName : ℕ := 64
def newline : UInt8 := 10
def questionTool : String := "request_user_input_async"

structure QuestionKey where
  call : String
  index : ℕ
  deriving DecidableEq

structure Projection where
  answered : Dict QuestionKey QuestionAnswer
  background : Background
  names : Dict String String
  transcript : Transcript
  tools : Dict String ℕ

inductive Fault where
  | overflow
  | index

abbrev Projecting := Exec Fault Projection

def entryId (base offset : ℕ) : Projecting EntryId :=
  require (if base + offset ≤ u64Max then some (base + offset) else none) .overflow

namespace Projection

def truncated (b : Bool) (p : Projection) : Projection :=
  { p with transcript := { p.transcript with truncated := p.transcript.truncated || b } }

def note (b : Bool) : Projecting Unit := modify (truncated b)

def clip (text : String) (limit : ℕ) : Projecting String := do
  note (decide (limit < text.utf8ByteSize))
  return limited text limit

def textOf (out : String) : List Value → Projecting String
  | [] => pure out
  | block :: blocks =>
    if maxText ≤ out.utf8ByteSize then do
      note true
      return out
    else do
      let out := if out.isEmpty then out else out ++ "\n"
      let more ← clip (string block "text") (maxText - out.utf8ByteSize)
      textOf (out ++ more) blocks

def text (value : Value) : Projecting String :=
  match value with
  | .string text => clip text maxText
  | .array blocks => do
    note (decide (maxBlocks < blocks.length))
    textOf "" ((blocks.take maxBlocks).filter textBlock)
  | _ => pure ""

def pushed (id : EntryId) (kind : EntryKind) (p : Projection) : Projection :=
  { p with transcript := { p.transcript with entries := p.transcript.entries ++ [⟨id, kind⟩] } }

def push (id : EntryId) (kind : EntryKind) : Projecting Unit := modify (pushed id kind)

def message (id : EntryId) (role : Role) (text : String) : Projecting Unit :=
  if text.isEmpty then pure ()
  else
    push id (match role with
      | .user => .user text 0
      | .agent => .agent text
      | .thought => .thought text)

def tool (readers : Readers) (id : EntryId) (call name : String) (input : Value) :
    Projecting Unit :=
  if call.isEmpty || name.isEmpty || decide (maxId < call.utf8ByteSize) then pure ()
  else do
    let described := describe readers name input
    let text ← clip (input.asStr.getD (.ofList (Value.print input))) maxText
    modify fun p => { p with tools := p.tools.insert call p.transcript.entries.length }
    push id (.tool
      { callId := call
        content := [.text text]
        kind := described.kind
        locations := described.locations
        parent := none
        startedMs := none
        status := .pending
        title := described.title })

def resulted (status : ToolStatus) (output : String) (tool : Tool) : Tool :=
  { tool with
    status
    content := if output.isEmpty then tool.content else tool.content.take 1 ++ [.text output] }

def modifyEntry (index : ℕ) (f : Tool → Tool) (p : Projection) : Projection :=
  { p with
    transcript := { p.transcript with
      entries := p.transcript.entries.modify index fun entry =>
        match entry.kind with
        | .tool tool => { entry with kind := .tool (f tool) }
        | _ => entry } }

def output (call : String) (output : Value) (status : ToolStatus) : Projecting Unit := do
  match (← get).tools.lookup call with
  | none => pure ()
  | some index => do
    let output ← text output
    let _ ← require (← get).transcript.entries[index]? .index
    modify (modifyEntry index (resulted status output))

def session (id cwd : String) : Projecting Unit :=
  if id.isEmpty then pure ()
  else
    modify fun p => { p with
      transcript := { p.transcript with
        session := some
          { id := limited id maxId
            cwd := if cwd.isEmpty then none else some (limited cwd maxCwd)
            title := none } } }

def reportedOption (category : OptionCategory) (id value : String) : Projecting Unit :=
  if value.isEmpty then pure ()
  else
    let option : ConfigOption := ⟨category, none, id, .select [] (limited value maxTitle), id⟩
    modify fun p => { p with
      transcript := { p.transcript with
        options :=
          match p.transcript.options.findIdx? fun item => decide (item.id = id) with
          | some index => p.transcript.options.set index option
          | none => p.transcript.options ++ [option] } }

end Projection

namespace Projection

section Activities

variable (readers : Readers)

def timestamp (record : Value) : Option ℕ :=
  (readers.timestamp (string record "timestamp")).bind fun time =>
    if 0 ≤ time then some time.toNat else none

def toolTitled (p : Projection) (call : String) : Option String := do
  let index ← p.tools.lookup call
  let entry ← p.transcript.entries[index]?
  match entry.kind with
  | .tool tool => some tool.title
  | _ => none

def reportedAt (call : String) (report : Acp.Report) (now : ℕ) (p : Projection) : Projection :=
  match Acp.recordActivity p.transcript call ((p.toolTitled call).getD "") report now with
  | none => p
  | some change => { p with transcript := (exec (Transcript.apply change) p.transcript).2 }

def report (call : String) (report : Acp.Report) (record : Value) : Projecting Unit :=
  match timestamp readers record with
  | none => pure ()
  | some now => modify (reportedAt call report now)

def activityStarted (call name : String) (input record : Value) : Projecting Unit := do
  match (← get).tools.lookup call with
  | none => pure ()
  | some index => do
    when (decide (name.utf8ByteSize ≤ maxName)) do
      modify fun p => { p with names := p.names.insert call name }
    let (tag, background) := (← get).background.started call name input none
    modify fun p => { p with background }
    modify (modifyEntry index tag.mark)
    tag.activity.forM fun activity => report readers call activity record

def activityResult (call : String) (failed : Bool) (output : Value) (results : ℕ) (record : Value) :
    Projecting Unit := do
  match (← get).names.lookup call with
  | none => pure ()
  | some name => do
    modify fun p => { p with names := p.names.erase call }
    let structured := (record.get "toolUseResult").filter fun _ => decide (results = 1)
    let ((own, other), background) := (← get).background.result call name failed output structured
    modify fun p => { p with background }
    own.forM fun activity => report readers call activity record
    other.forM fun (call, activity) => report readers call activity record

def activityNotified (record : Value) (content : String) : Projecting Unit :=
  if string (index record "origin") "kind" ≠ "task-notification" then pure ()
  else
    match taskNotification content with
    | none => pure ()
    | some notification => do
      let (other, background) := (← get).background.notified notification
      modify fun p => { p with background }
      other.forM fun (call, activity) => report readers call activity record

end Activities

section Claude

variable (readers : Readers)

def claudeMessage (id : EntryId) (role : Role) (record : Value) (content : String) :
    Projecting Unit := do
  when (decide (role = .user)) (activityNotified readers record content)
  match if role = .user then harnessNotice record content else none with
  | some notice => do
    note (decide (maxText < content.utf8ByteSize))
    push id notice
  | none => do
    let content ← clip content maxText
    message id role content

def claudeBlock (id : EntryId) (role : Role) (record : Value) (results : ℕ) (block : Value) :
    Projecting Unit :=
  match string block "type", role with
  | "text", role => claudeMessage readers id role record (string block "text")
  | "thinking", .agent => do
    let thought ← clip (string block "thinking") maxText
    message id .thought thought
  | "tool_use", .agent => do
    let call := string block "id"
    let name := string block "name"
    tool readers id call name (index block "input")
    activityStarted readers call name (index block "input") record
  | "tool_result", .user => do
    let call := string block "tool_use_id"
    let failed := decide ((index block "is_error").asBool = some true)
    output call (index block "content") (if failed then .failed else .completed)
    activityResult readers call failed (index block "content") results record
  | _, _ => pure ()

def claudeBlocks (base : ℕ) (role : Role) (record : Value) (results : ℕ) :
    ℕ → List Value → Projecting Unit
  | _, [] => pure ()
  | index, block :: blocks => do
    let id ← entryId base index
    claudeBlock readers id role record results block
    claudeBlocks base role record results (index + 1) blocks

def claudeContent (base : ℕ) (role : Role) (record : Value) : Value → Projecting Unit
  | .string content => claudeMessage readers base role record content
  | .array blocks => do
    note (decide (maxBlocks < blocks.length))
    claudeBlocks readers base role record blocks.length 0 (blocks.take maxBlocks)
  | _ => pure ()

def claude (base : ℕ) (record : Value) : Projecting Unit :=
  match Role.of (string record "type") with
  | none => pure ()
  | some role =>
    if (Mirror.index record "isSidechain").asBool = some true then pure ()
    else do
      session (string record "sessionId") (string record "cwd")
      when (decide (role = .agent)) do
        reportedOption .model "model" (string (Mirror.index record "message") "model")
      claudeContent readers base role record (Mirror.index (Mirror.index record "message") "content")

end Claude

end Projection

end Sheprd.Mirror
