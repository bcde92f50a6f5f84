import Sheprd.Acp.Projector
import Sheprd.Lib.JsonText

namespace Sheprd.Mirror

open Sheprd.Lib Sheprd.Chat

section Words

def stripPrefix (mark text : String) : Option String :=
  if mark.toList.isPrefixOf text.toList then
    some (.ofList (text.toList.drop mark.toList.length))
  else none

def stripSuffix (mark text : String) : Option String :=
  if mark.toList.isSuffixOf text.toList then
    some (.ofList (text.toList.take (text.toList.length - mark.toList.length)))
  else none

def splitOnceFrom (mark : List Char) : List Char → Option (List Char × List Char)
  | [] => if mark.isEmpty then some ([], []) else none
  | c :: rest =>
    if mark.isPrefixOf (c :: rest) then some ([], (c :: rest).drop mark.length)
    else (splitOnceFrom mark rest).map fun (front, back) => (c :: front, back)

def splitOnce (mark text : String) : Option (String × String) :=
  (splitOnceFrom mark.toList text.toList).map fun (front, back) => (.ofList front, .ofList back)

def containsAny (marks : List Char) (text : String) : Bool := text.toList.any (· ∈ marks)

def string (value : Value) (key : String) : String := ((value.get key).bind Value.asStr).getD ""

def index (value : Value) (key : String) : Value := (value.get key).getD .null

end Words

def maxTracked : ℕ := 256

structure Track where
  detached : Bool
  kind : ActivityKind

structure Background where
  running : Dict String Track
  tasks : Dict String String
  waiting : Dict String String

abbrev Elsewhere := String × Acp.Report

def Report.new (kind : ActivityKind) (state : ActivityState) : Acp.Report := ⟨none, kind, none, state⟩

def state (status : String) : Option ActivityState :=
  if status = "completed" then some .finished
  else if status = "failed" then some .failed
  else if status = "killed" ∨ status = "stopped" then some .killed
  else none

def element (text name : String) : Option String := do
  let (_, after) ← splitOnce ("<" ++ name ++ ">") text
  let (value, _) ← splitOnce ("</" ++ name ++ ">") after
  let value := Text.trim value
  if containsAny ['<', '>'] value then none else some value

structure TaskNotification where
  task : String
  call : Option String
  status : String
  summary : Option String

def taskNotification (text : String) : Option TaskNotification := do
  let inner ← stripPrefix "<task-notification>" (Text.trim text)
  let inner ← stripSuffix "</task-notification>" inner
  let task ← element inner "task-id"
  let status ← element inner "status"
  return ⟨task, element inner "tool-use-id", status, element inner "summary"⟩

def idAfter (text mark : String) : Option String := do
  let (_, rest) ← splitOnce mark text
  let id := (rest.toList.takeWhile fun c => c.isAlphanum || c ∈ ['_', '-']).take 128
  if id.isEmpty then none else some (.ofList id)

def textOf : Value → String
  | .string text => text
  | .array blocks =>
    String.intercalate "\n" (blocks.filterMap fun block => (block.get "text").bind Value.asStr)
  | _ => ""

namespace Background

def empty : Background := ⟨∅, ∅, ∅⟩

def track (call : String) (kind : ActivityKind) (b : Background) : Bool × Background :=
  if maxTracked ≤ b.running.entries.length then (false, b)
  else (true, { b with running := b.running.insert call ⟨false, kind⟩ })

def detach (call task : String) (b : Background) : Background :=
  let running := match b.running.lookup call with
    | some track => b.running.insert call { track with detached := true }
    | none => b.running
  let tasks :=
    if maxTracked ≤ b.tasks.entries.length then
      Dict.filter (fun _ call => decide (call ∈ running)) b.tasks
    else b.tasks
  { b with
    running
    tasks := if tasks.entries.length < maxTracked then tasks.insert task call else tasks }

def finish (call : String) (failed : Bool) (b : Background) : Option Acp.Report × Background :=
  match b.running.lookup call with
  | none => (none, b)
  | some track =>
    (some (Report.new track.kind (if failed then .failed else .finished)),
      { b with running := b.running.erase call })

def finishTask (task : String) (state : ActivityState) (detail : Option String) (b : Background) :
    Option Elsewhere × Background :=
  match b.tasks.lookup task with
  | none => (none, b)
  | some call =>
    let b := { b with tasks := b.tasks.erase task }
    match b.running.lookup call with
    | none => (none, b)
    | some track =>
      (some (call, { Report.new track.kind state with detail }),
        { b with running := b.running.erase call })

def startKind (name : String) (input : Value) : Option ActivityKind :=
  if name ∈ ["Agent", "Task"] then some .subagent
  else if name = "Bash" ∧ ((input.get "run_in_background").bind Value.asBool) = some true then
    some .shell
  else none

def await (call name : String) (input : Value) (b : Background) : Background :=
  let field := fun key => (input.get key).bind Value.asStr
  if name ∈ ["TaskStop", "KillShell", "KillBash", "TaskOutput", "BashOutput"] then
    match ((field "task_id").or (field "shell_id")).or (field "bash_id") with
    | some task =>
      if b.waiting.entries.length < maxTracked then { b with waiting := b.waiting.insert call task }
      else b
    | none => b
  else b

def started (call name : String) (input : Value) (parent : Option String) (b : Background) :
    Acp.Tag × Background :=
  let b := b.await call name input
  match startKind name input with
  | none => (⟨none, parent⟩, b)
  | some kind =>
    let (tracked, b) := b.track call kind
    let label := if kind = .shell then (input.get "command").bind Value.asStr else none
    (⟨if tracked then some { Report.new kind .running with label } else none, parent⟩, b)

def awaited (task name : String) (failed : Bool) (text : String) (b : Background) :
    Option Elsewhere × Background :=
  let ended := if failed then none
    else if name ∈ ["TaskStop", "KillShell", "KillBash"] then some .killed
    else (element text "status").bind state
  match ended with
  | none => (none, b)
  | some ended =>
    b.finishTask task ended ((element text "exit_code").map fun code => "Exited " ++ code)

def shellResult (call : String) (failed : Bool) (text : String) (structured : Option Value)
    (b : Background) : Option Acp.Report × Background :=
  let task := ((structured.bind fun result => (result.get "backgroundTaskId").bind Value.asStr)).or
    (idAfter text "Command running in background with ID: ")
  match task.filter fun _ => !failed with
  | none => b.finish call failed
  | some task =>
    -- A command that ran too long is moved to the background without asking for it.
    if call ∈ b.running then (none, b.detach call task)
    else
      let (tracked, b) := b.track call .shell
      if tracked then (some (Report.new .shell .running), b.detach call task) else (none, b)

def agentResult (call : String) (failed : Bool) (text : String) (structured : Option Value)
    (b : Background) : Option Acp.Report × Background :=
  let launched := (structured.any fun result =>
      ((result.get "isAsync").bind Value.asBool) = some true ||
        ((result.get "status").bind Value.asStr) = some "async_launched") ||
    "Async agent launched".toList.isPrefixOf text.toList
  let agent := ((structured.bind fun result => (result.get "agentId").bind Value.asStr)).or
    (idAfter text "agentId: ")
  match agent.filter fun _ => launched && !failed with
  | some agent => (none, b.detach call agent)
  | none => b.finish call failed

def result (call name : String) (failed : Bool) (output : Value) (structured : Option Value)
    (b : Background) : (Option Acp.Report × Option Elsewhere) × Background :=
  let text := textOf output
  match b.waiting.lookup call with
  | some task =>
    let (other, b) := { b with waiting := b.waiting.erase call }.awaited task name failed text
    ((none, other), b)
  | none =>
    if name = "Bash" then
      let (own, b) := b.shellResult call failed text structured
      ((own, none), b)
    else if name ∈ ["Agent", "Task"] ∧ call ∈ b.running then
      let (own, b) := b.agentResult call failed text structured
      ((own, none), b)
    else ((none, none), b)

def notified (notification : TaskNotification) (b : Background) : Option Elsewhere × Background :=
  match state notification.status with
  | none => (none, b)
  | some ended =>
    match (notification.call.filter fun call => decide (call ∈ b.running)).or
        (b.tasks.lookup notification.task) with
    | none => (none, b)
    | some call =>
      let b := { b with tasks := b.tasks.erase notification.task }
      match b.running.lookup call with
      | none => (none, b)
      | some track =>
        (some (call, { Report.new track.kind ended with detail := notification.summary }),
          { b with running := b.running.erase call })

end Background

end Sheprd.Mirror

namespace Sheprd.Mirror

open Sheprd.Lib Sheprd.Lib.Exec Sheprd.Chat

def maxText : ℕ := 128 * 1024
def maxTitle : ℕ := 256
def maxSummary : ℕ := 160
def maxPath : ℕ := 4096

inductive TranscriptAgent where
  | claude
  | codex

def TranscriptAgent.displayName : TranscriptAgent → String
  | .claude => "Claude"
  | .codex => "Codex"

inductive Role where
  | user
  | agent
  | thought
  deriving DecidableEq

def Role.of (role : String) : Option Role :=
  if role = "user" then some .user else if role = "assistant" then some .agent else none

def Role.author : Role → Option Author
  | .user => some .user
  | .agent => some .agent
  | .thought => none

structure Reply where
  answer : String
  question : String
  questionItemId : String

structure Readers where
  value : List UInt8 → Option Value
  replies : String → Option (List Reply)
  item : String → Option (String × String × ℕ)
  answers : Value → Option (List QuestionAnswer)
  timestamp : String → Option ℤ

def Readers.fromStr (readers : Readers) (text : String) : Option Value :=
  readers.value text.toUTF8.toList

def limited (text : String) (limit : ℕ) : String := Text.truncate limit text

def codexSession (payload : Value) : Option String :=
  ((payload.get "id").or (payload.get "session_id")).bind Value.asStr

def textBlocks : List String := ["text", "input_text", "output_text", "summary_text"]

def textBlock (block : Value) : Bool := string block "type" ∈ textBlocks

section Notices

def cut : String := "\n… (source details truncated)"

def details (content : String) : String :=
  if maxText < content.utf8ByteSize then limited content (maxText - cut.utf8ByteSize) ++ cut
  else content

def notice (text : String) (content : Option String) (answers : List QuestionAnswer) : EntryKind :=
  .notice answers (content.map details) .info text

def source (text content : String) : EntryKind := notice text (some content) []

def compacted (message : String) : EntryKind :=
  notice "Context compacted" (if message.isEmpty then none else some message) []

def answered (answers : List QuestionAnswer) (content : String) : EntryKind :=
  notice (if answers.length = 1 then "Question answered" else "Questions answered") (some content)
    answers

def firstLine (content : String) : Option String :=
  (Text.lines content).find? fun line => !(Text.trim line).isEmpty

def taskSummary (content : String) : Option String := do
  let content ← stripPrefix "<task-notification>" (Text.trim content)
  let content ← stripSuffix "</task-notification>" content
  let (_, after) ← splitOnce "<summary>" content
  let (summary, _) ← splitOnce "</summary>" after
  if containsAny ['<', '>'] summary then none else some summary

def words : List Char → List (List Char)
  | [] => [[]]
  | c :: rest =>
    if Text.isWhitespace c then [] :: words rest
    else
      match words rest with
      | [] => [[c]]
      | word :: more => (c :: word) :: more

def compact (text : String) : String :=
  let parts := (words text.toList).filter fun word => !word.isEmpty
  let summary := String.ofList ((List.intercalate [' '] parts).filter fun c => !Text.isControl c)
  if maxSummary < summary.utf8ByteSize then limited summary maxSummary ++ "…" else summary

def harness (record : Value) (content : String) : Option (String × Option String) :=
  let system := string record "promptSource" = "system" ∨
    (index record "isMeta").asBool = some true
  if string (index record "origin") "kind" = "task-notification" then
    some ("Task notification", taskSummary content)
  else if system ∧ string record "turnOrigin" = "scheduled" ∧
      ¬(string record "scheduledTaskId").isEmpty then
    some ("Scheduled reminder", firstLine content)
  else if system then some ("System activity", firstLine content)
  else none

def harnessNotice (record : Value) (content : String) : Option EntryKind :=
  if content.isEmpty then none
  else
    (harness record content).map fun (label, summary) =>
      let summary := (summary.map compact).getD ""
      source (if summary.isEmpty then label else label ++ " · " ++ summary) content

end Notices

section Describing

structure Described where
  kind : ToolKind
  locations : List String
  title : String

def commandTitle (command : String) : String :=
  let lines := Text.lines command
  let first := "`" ++ lines.headD "" ++ "`"
  match lines.length - 1 with
  | 0 => first
  | 1 => first ++ " (+1 more line)"
  | more => first ++ " (+" ++ toString more ++ " more lines)"

def arguments (readers : Readers) (input : Value) : Value :=
  match input with
  | .string raw =>
    if raw.utf8ByteSize ≤ maxText then
      match readers.fromStr raw with
      | some (.object fields) => .object fields
      | _ => input
    else input
  | _ => input

def oneLine (text : String) : String :=
  let line := (limited text maxTitle).toList.map fun c => if Text.isControl c then ' ' else c
  limited (.ofList line) maxTitle

def toolTitle (short : String) (field : List String → Option String) :
    Option (ToolKind × Option String) :=
  let path := field ["file_path", "notebook_path", "path"]
  let titled := fun (verb : String) (subject : Option String) => subject.map fun s => verb ++ " " ++ s
  if short ∈ ["Bash", "exec_command", "shell", "shell_command"] then
    some (.execute, (field ["cmd", "command"]).map commandTitle)
  else if short ∈ ["Read", "read_file", "view_image"] then some (.read, titled "Read" path)
  else if short ∈ ["Write", "write_file"] then some (.edit, titled "Write" path)
  else if short ∈ ["Edit", "MultiEdit", "NotebookEdit"] then some (.edit, titled "Edit" path)
  else if short = "apply_patch" then some (.edit, some "Apply patch")
  else if short = "Grep" then some (.search, titled "Search for" (field ["pattern"]))
  else if short = "Glob" then some (.search, titled "Find" (field ["pattern"]))
  else if short = "WebSearch" then
    some (.search, titled "Search the web for" (field ["query"]))
  else if short = "WebFetch" then some (.fetch, titled "Fetch" (field ["url"]))
  else if short ∈ ["Task", "Agent", "spawn_agent"] then
    some (.subagent, field ["description", "task_name"])
  else none

def describe (readers : Readers) (name : String) (input : Value) : Described :=
  let input := arguments readers input
  let field := fun (keys : List String) =>
    (keys.findSome? fun key => (input.get key).bind Value.asStr).filter fun value =>
      !(Text.trim value).isEmpty
  let short := ((stripPrefix "functions." name).or (stripPrefix "collaboration." name)).getD name
  match toolTitle short field with
  | none => ⟨.other, [], limited name maxTitle⟩
  | some (kind, title) =>
    let locations := (field ["file_path", "notebook_path", "path"]).filter fun path =>
      decide (path.utf8ByteSize ≤ maxPath) && !path.toList.any Text.isControl
    ⟨kind, locations.toList, oneLine (title.getD name)⟩

end Describing

end Sheprd.Mirror
