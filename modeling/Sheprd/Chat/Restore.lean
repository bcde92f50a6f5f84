import Mathlib.Data.String.Basic
import Sheprd.Lib.Text
import Sheprd.Lib.Rounds

namespace Sheprd.Chat.Restore

open Lib

def version : ℕ := 1

def maxRecordSize : ℕ := 8 * 1024

def maxRecords : ℕ := 256

def maxEntries : ℕ := 4096

def maxSessionId : ℕ := 200

def maxPaneId : ℕ := 128

def maxBootId : ℕ := 128

inductive Agent where
  | claude | codex | copilot | gemini | opencode | pi
  deriving DecidableEq

namespace Agent

def all : List Agent := [claude, codex, copilot, gemini, opencode, pi]

def name : Agent → String
  | claude => "claude"
  | codex => "codex"
  | copilot => "copilot"
  | gemini => "gemini"
  | opencode => "opencode"
  | pi => "pi"

def parse (name : String) : Option Agent := all.find? fun agent => agent.name == name

end Agent

def isEndpoint (value : String) : Bool :=
  value.utf8ByteSize = 32 && value.toList.all fun c => c.isDigit || ('a' ≤ c && c ≤ 'f')

structure EndpointId where
  text : String
  digits : isEndpoint text = true
  deriving DecidableEq

def EndpointId.parse (value : String) : Option EndpointId :=
  if h : isEndpoint value = true then some ⟨value, h⟩ else none

inductive Error where
  | agent | boot | endpoint | io | json | pane | path | session | size
  | version (found : ℕ)
  deriving DecidableEq

structure Record where
  adapter : Bool
  agent : Agent
  cwd : String
  endpoint : EndpointId
  pane : String
  session : String
  socket : String
  deriving DecidableEq

structure Stored where
  adapter : Bool
  agent : String
  cwd : String
  endpoint : String
  pane : String
  session : String
  socket : String
  version : ℕ

def sessionIdIsPlain (id : String) : Bool :=
  !id.isEmpty && id.utf8ByteSize ≤ maxSessionId && id.toList.head? != some '-' &&
    id.toList.all fun c => c.isAlphanum || c ∈ ['.', '_', ':', '@', '+', '-']

def isAbsolute (path : String) : Bool := path.toList.head? = some '/'

namespace Record

def validate (record : Record) : Except Error Unit := do
  if sessionIdIsPlain record.session = false then throw .session
  if record.pane.isEmpty || maxPaneId < record.pane.utf8ByteSize ||
      record.pane.toList.any Text.isControl then throw .pane
  if isAbsolute record.cwd = false || isAbsolute record.socket = false then throw .path

def ofStored (stored : Stored) : Except Error Record := do
  if stored.version ≠ Restore.version then throw (.version stored.version)
  let some agent := Agent.parse stored.agent | throw .agent
  let some endpoint := EndpointId.parse stored.endpoint | throw .endpoint
  let record : Record := ⟨stored.adapter, agent, stored.cwd, endpoint, stored.pane, stored.session,
    stored.socket⟩
  record.validate
  return record

end Record

section Names

def rsplitFileAtDot (name : String) : Option String × Option String :=
  if name = ".." then (some name, none)
  else
    match Text.splitOnce '.' name.toList.reverse with
    | none => (none, some name)
    | some (after, before) =>
        if before = [] then (some name, none)
        else (some (.ofList before.reverse), some (.ofList after.reverse))

def extension (name : String) : Option String :=
  (rsplitFileAtDot name).1.bind fun _ => (rsplitFileAtDot name).2

def fileStem (name : String) : Option String := (rsplitFileAtDot name).1.or (rsplitFileAtDot name).2

def recordPath (id : EndpointId) : String := id.text ++ ".json"

def seenPath (id : EndpointId) : String := id.text ++ ".seen"

def recordId (name : String) : Option EndpointId :=
  if extension name = some "json" then (fileStem name).bind EndpointId.parse else none

end Names

section Files

variable (fromSlice : ByteArray → Option Stored) (file : String → Option ByteArray)

def readBounded (path : String) : Except Error ByteArray :=
  match file path with
  | none => .error .io
  | some bytes => if maxRecordSize < bytes.size then .error .size else .ok bytes

def Record.read (path : String) : Except Error Record := do
  let bytes ← readBounded file path
  match fromSlice bytes with
  | none => .error .json
  | some stored => Record.ofStored stored

def readSeen (id : EndpointId) : Option String :=
  ((readBounded file (seenPath id)).toOption.bind String.fromUTF8?).filter fun boot =>
    !boot.isEmpty && boot.utf8ByteSize ≤ maxBootId

structure Listing where
  records : List (Record × Option String)
  next : Option EndpointId
  total : ℕ

def recordIds (names : List String) : List EndpointId :=
  ((names.take maxEntries).filterMap recordId).insertionSort fun a b => a.text ≤ b.text

def readRecord (id : EndpointId) : Option (Record × Option String) :=
  (Record.read fromSlice file (recordPath id)).toOption.map fun record =>
    (record, readSeen file record.endpoint)

def list (names : List String) (after : Option EndpointId) : Listing :=
  let ids := recordIds names
  let start := Rounds.start EndpointId.text ids (after.map EndpointId.text)
  let count := min ids.length maxRecords
  let window := Rounds.window ids start count
  let next := if maxRecords < ids.length then window.getLast? else none
  ⟨window.filterMap (readRecord fromSlice file), next, ids.length⟩

def follow : List (List String) → Option EndpointId → List Listing
  | [], _ => []
  | names :: calls, after =>
      let listing := list fromSlice file names after
      listing ::
        match listing.next with
        | some next => follow calls (some next)
        | none => []

end Files

end Sheprd.Chat.Restore
