import Sheprd.Acp.Wire
import Sheprd.Chat.Change
import Sheprd.Lib.Dict

namespace Sheprd.Acp

open Sheprd.Lib Sheprd.Chat

def maxActivitiesTracked : ℕ := 2 * maxActivities
def maxEntryText : ℕ := 256 * 1024
def truncatedMark : String := "\n… (truncated)"
def maxSteps : ℕ := 64
def maxSkipped : ℕ := 1024
def maxOptions : ℕ := 64
def maxChoices : ℕ := 256
def maxPlan : ℕ := 256
def maxImageData : ℕ := 5 * 1024 * 1024

def clip (taken : ℕ) (text : String) : Option String :=
  if maxEntryText < taken then none
  else
    let room := maxEntryText - taken
    if room < truncatedMark.utf8ByteSize + 4 then none
    else if text.utf8ByteSize ≤ room then some text
    else some (Text.truncate (room - truncatedMark.utf8ByteSize) text ++ truncatedMark)

def bounded (text : String) : String := (clip 0 text).getD ""

section Media

def ImageType.mime : ImageType → String
  | .gif => "image/gif"
  | .jpeg => "image/jpeg"
  | .png => "image/png"
  | .webp => "image/webp"

def ImageType.fromMime (mime : String) : Option ImageType :=
  let essence := Text.trim (.ofList ((Text.splitOn [';'] mime.toList).headD []))
  ([.gif, .jpeg, .png, .webp].find? fun kind => Text.eqIgnoreAsciiCase (ImageType.mime kind) essence).or
    (if Text.eqIgnoreAsciiCase essence "image/jpg" then some .jpeg else none)

def Image.new (mime data : String) : Option Image :=
  match ImageType.fromMime mime with
  | none => none
  | some kind =>
      if !data.isEmpty && decide (data.utf8ByteSize ≤ maxImageData) &&
          data.toList.all (fun c => c.isAlphanum || c ∈ ['+', '/', '=']) then some ⟨data, kind⟩
      else none

def media : Wire.ContentBlock → Option Image
  | .image mimeType data => Image.new mimeType data
  | _ => none

def blockText : Wire.ContentBlock → String
  | .text text => text
  | .image .. => "[image]"
  | .audio => "[audio]"
  | .resourceLink name uri => "[" ++ name ++ "](" ++ uri ++ ")"
  | .resource (.text text) => text
  | .resource (.blob uri) => "[" ++ uri ++ "]"
  | .resource .other => "[resource]"
  | .other => "[content]"

end Media

section Tools

def toolKind : Wire.ToolKind → ToolKind
  | .read => .read
  | .edit => .edit
  | .delete => .delete
  | .move => .move
  | .search => .search
  | .execute => .execute
  | .think => .think
  | .fetch => .fetch
  | .switchMode => .switchMode
  | .other => .other

def toolStatus : Wire.ToolCallStatus → ToolStatus
  | .inProgress => .inProgress
  | .completed => .completed
  | .failed => .failed
  | .pending => .pending

def toolContent : Wire.ToolCallContent → ToolContent
  | .content content =>
      match media content with
      | some image => .image image
      | none => .text (bounded (blockText content))
  | .diff newText oldText path => .diff (bounded newText) (oldText.map bounded) path
  | .terminal terminalId => .terminal terminalId
  | .other => .text "[content]"

def locations (found : List Wire.ToolCallLocation) : List String :=
  found.map fun location =>
    match location.line with
    | some line => location.path ++ ":" ++ toString line
    | none => location.path

def applyCall (call : Wire.ToolCall) (tool : Tool) : Tool :=
  { tool with
    title := call.title
    kind := toolKind call.kind
    status := toolStatus call.status
    content := call.content.map toolContent
    locations := locations call.locations }

def applyFields (fields : Wire.ToolCallUpdateFields) (tool : Tool) : Tool :=
  { tool with
    title := fields.title.getD tool.title
    kind := (fields.kind.map toolKind).getD tool.kind
    status := (fields.status.map toolStatus).getD tool.status
    content := (fields.content.map fun content => content.map toolContent).getD tool.content
    locations := (fields.locations.map locations).getD tool.locations }

def blankTool (callId : String) : Tool :=
  ⟨callId, [], .other, [], none, none, .pending, callId⟩

end Tools

section Settings

def choice (group : Option String) (option : Wire.SelectOption) : Choice :=
  ⟨option.description.map bounded, group, option.value, bounded option.name⟩

def choices : Wire.SelectOptions → Option (List Choice)
  | .ungrouped options => some (options.map (choice none))
  | .grouped groups => some (groups.flatMap fun (name, options) => options.map (choice (some name)))
  | .other => none

def optionKind : Wire.SessionConfigKind → Option OptionKind
  | .select currentValue options =>
      (choices options).map fun choices => .select (choices.take maxChoices) currentValue
  | .boolean currentValue => some (.toggle currentValue)
  | .other => none

def configOption (option : Wire.SessionConfigOption) : Option ConfigOption :=
  (optionKind option.kind).map fun kind =>
    ⟨option.category, option.description.map bounded, option.id, kind, bounded option.name⟩

def options (decode : Wire.Decoders) : Option Value → List ConfigOption
  | some (.array items) => ((items.filterMap decode.configOption).filterMap configOption).take maxOptions
  | _ => []

def planChange (entries : List PlanEntry) : Change :=
  .plan (entries.map fun entry => { entry with content := bounded entry.content })

def slashCommand (command : Wire.AvailableCommand) : SlashCommand :=
  ⟨command.description, command.hint, command.name⟩

end Settings

section Activities

namespace Tag

def default : Tag := ⟨none, none⟩

def read (decode : Wire.Decoders) (metadata : Option Value) : Tag :=
  ((metadata.bind fun metadata => metadata.get "herdr").bind decode.tag).getD default

def orElse (tag other : Tag) : Tag := if tag = default then other else tag

end Tag

def activityText (text : String) : String :=
  Text.truncate maxActivityText (Text.trim ((Text.lines text).headD ""))

def Tag.mark (tag : Tag) (tool : Tool) : Tool :=
  let tool := if tag.activity.any fun report => decide (report.kind = .subagent) then
    { tool with kind := .subagent } else tool
  match tag.parent with
  | some parent => { tool with parent := some (activityText parent) }
  | none => tool

def reported (known : Option Activity) (callId title : String) (report : Report) (now : ℕ) :
    Activity where
  callId := callId
  detail := (report.detail.map activityText).or (known.bind fun known => known.detail)
  finishedMs := if report.state = .running then none else some now
  kind := report.kind
  label := (report.label.map activityText).getD
    (known.elim (activityText title) fun known => known.label)
  startedMs := known.elim now fun known => known.startedMs
  state := report.state

def recordActivity (t : Transcript) (callId title : String) (report : Report) (now : ℕ) :
    Option Change :=
  let known := t.activity callId
  if maxActivityText < callId.utf8ByteSize then none
  else if known.any fun known => !known.isRunning then none
  else if known.isNone && decide (report.state ≠ .running) then none
  else if known.isNone && decide (maxActivities ≤ t.activities.length) &&
      t.activities.all Activity.isRunning then none
  else
    let activity := reported known callId title report now
    if some activity = known then none else some (.activity activity)

def stepActivity (t : Transcript) (parent title : String) : Option Change :=
  ((t.activity parent).filter fun known => known.isRunning).bind fun known =>
    let detail := activityText title
    if known.detail = some detail then none
    else some (.activity { known with detail := some detail })

def killAll (t : Transcript) (now : ℕ) : List Change :=
  (t.activities.filter Activity.isRunning).map fun activity =>
    .activity { activity with finishedMs := some now, state := .killed }

def claudeCodeTag (metadata input : Option Value) (status : Option Wire.ToolCallStatus) : Tag :=
  match metadata.bind fun metadata => metadata.get "claudeCode" with
  | none => Tag.default
  | some code =>
      let parent := (code.get "parentToolUseId").bind Value.asStr
      let name := (code.get "toolName").bind Value.asStr
      let subagent := decide (name = some "Agent" ∨ name = some "Task")
      let background :=
        decide (((input.bind fun input => input.get "run_in_background").bind Value.asBool) =
          some true ∨
        (((code.get "toolResponse").bind fun response => response.get "isAsync").bind
          Value.asBool) = some true)
      let state := match status with
        | some .completed => ActivityState.finished
        | some .failed => .failed
        | _ => .running
      ⟨if subagent && !background then some ⟨none, .subagent, none, state⟩ else none, parent⟩

end Activities

section Todos

def listKind (kind : Wire.ToolKind) : Bool := decide (kind = .other ∨ kind = .think)

def unwritten (input : Option Value) : Bool := input.all Value.isEmptyObject

def listed (input : Option Value) : Bool := input.any fun input => (input.get "todos").isSome

def isTodoTool (name : Option String) (title : String) (kind : Wire.ToolKind)
    (input : Option Value) : Bool :=
  let known := fun shown =>
    ["todowrite", "update_todo"].any fun tool => Text.eqIgnoreAsciiCase shown tool
  listKind kind &&
    match name with
    | some name => known name && (listed input || unwritten input)
    | none => known title && listed input

def staysTodoTool (kind : Option Wire.ToolKind) (input : Option Value) : Bool :=
  kind.all listKind && (unwritten input || listed input)

def todoStatus (name : String) : Option PlanStatus :=
  if name = "pending" then some .pending
  else if name = "in_progress" then some .inProgress
  else if name = "completed" then some .completed
  else none

def todoEntry (todo : Value) : Option PlanEntry :=
  let name := (todo.get "status").bind Value.asStr
  if name = some "cancelled" then none
  else ((todo.get "content").bind Value.asStr).map fun content =>
    ⟨content, .medium, (name.bind todoStatus).getD .pending⟩

def checklistItem (line : String) : Option PlanEntry := do
  let line := Text.trimStart line.toList
  let rest ← (Text.stripPrefix ['-', '*', '+'] line).or
    (Text.stripPrefix ['.', ')'] (line.dropWhile Char.isDigit))
  let rest ← Text.stripPrefix ['['] (Text.trimStart rest)
  let (mark, content) ← Text.splitOnce ']' rest
  let mark := Text.trim (.ofList mark)
  let status ← if mark = "" then some PlanStatus.pending
    else if mark = "x" ∨ mark = "X" then some .completed
    else none
  let content := Text.trim (.ofList content)
  if content.isEmpty then none else some ⟨content, .medium, status⟩

def todoPlan (input : Value) : Option (List PlanEntry) :=
  match input.get "todos" with
  | some (.array todos) => some ((todos.filterMap todoEntry).take maxPlan)
  | some (.string text) => some (((Text.lines text).filterMap checklistItem).take maxPlan)
  | _ => none

end Todos

inductive Stream where
  | user
  | agent
  | thought
  deriving DecidableEq

structure Streaming where
  entry : EntryId
  message : Option String
  stream : Stream

structure Projector where
  next : ℕ
  streaming : Option Streaming
  planned : Bool
  skipped : Dict String String
  steps : Dict String ℕ
  todos : Finset String
  tools : Dict String EntryId

namespace Projector

def default : Projector := ⟨0, none, false, ∅, ∅, ∅, ∅⟩

def after (last : EntryId) : Projector := { default with next := last }

def close (p : Projector) : Projector := { p with streaming := none }

def push (kind : EntryKind) (p : Projector) : Change × Projector :=
  (.push ⟨p.next + 1, kind⟩, { p.close with next := p.next + 1 })

def notice (level : NoticeLevel) (text : String) : Projector → Change × Projector :=
  push (.notice [] none level (bounded text))

def turn (summary : TurnSummary) : Projector → Change × Projector := push (.turn summary)

def image (author : Author) (image : Image) : Projector → Change × Projector :=
  push (.image author image)

def prompt (text : String) (files : ℕ) : Projector → Change × Projector :=
  push (.user (bounded text) files)

def renumber (old : EntryId) (p : Projector) : EntryId × Projector :=
  let new := p.next + 1
  (new, { p with
    next := new
    streaming := p.streaming.map fun s => if s.entry = old then { s with entry := new } else s
    tools := Dict.mapValues (fun id => if id = old then new else id) p.tools })

def streamKind (text : String) : Stream → EntryKind
  | .user => .user text 0
  | .agent => .agent text
  | .thought => .thought text

def text (t : Transcript) (stream : Stream) (message : Option String) (text : String)
    (p : Projector) : Option Change × Projector :=
  if text.isEmpty then (none, p)
  else
    match p.streaming.filter fun s => decide (s.stream = stream ∧ s.message = message ∧
        t.lastEntryId = some s.entry) with
    | some s =>
        let taken := ((t.entry s.entry).bind fun entry => entry.kind.text).elim 0 String.utf8ByteSize
        ((clip taken text).map fun text => .append s.entry text, p)
    | none =>
        let id := p.next + 1
        (some (.push ⟨id, streamKind (bounded text) stream⟩),
          { p with next := id, streaming := some ⟨id, message, stream⟩ })

def known (t : Transcript) (callId : String) (p : Projector) : Option (EntryId × Tool) :=
  ((p.tools.lookup callId).bind fun id => t.entry id).bind fun entry =>
    match entry.kind with
    | .tool tool => some (entry.id, tool)
    | _ => none

def tool (t : Transcript) (callId : String) (update : Tool → Tool) (p : Projector) :
    Change × Projector :=
  match p.known t callId with
  | some (id, tool) => (.replace ⟨id, .tool (update tool)⟩, p)
  | none =>
      let id := p.next + 1
      (.push ⟨id, .tool (update (blankTool callId))⟩,
        { p.close with next := id, tools := p.tools.insert callId id })

def forgetBefore (before : EntryId) (p : Projector) : Projector :=
  { p with tools := Dict.filter (fun _ id => decide (before ≤ id)) p.tools }

def skip (t : Transcript) (call parent : String) (p : Projector) : Projector :=
  let running := fun parent => (t.activity parent).any Activity.isRunning
  let p := if maxSkipped ≤ p.skipped.entries.length then
      { p with skipped := Dict.filter (fun _ parent => running parent) p.skipped }
    else p
  if p.skipped.entries.length < maxSkipped then
    { p with skipped := p.skipped.insert call parent } else p

def admitStep (t : Transcript) (parent : String) (p : Projector) : Bool × Projector :=
  let p := if maxActivitiesTracked < p.steps.entries.length then
      { p with steps := Dict.retain (fun call => (t.activity call).isSome) p.steps }
    else p
  let count := (p.steps.lookup parent).getD 0 + 1
  (decide (count ≤ maxSteps), { p with steps := p.steps.insert parent count })

def callShown : Change → Option Tool
  | .push ⟨_, .tool tool⟩ => some tool
  | .replace ⟨_, .tool tool⟩ => some tool
  | _ => none

def begun (now : ℕ) (tool : Tool) : Tool :=
  if tool.status = .pending ∨ tool.status = .inProgress then
    { tool with startedMs := some (tool.startedMs.getD now) } else tool

def showCall (t : Transcript) (callId : String) (tag : Tag) (now : ℕ) (update : Tool → Tool)
    (p : Projector) : List Change × Option Tool × Projector :=
  let step := if callId ∈ p.tools then none else tag.parent
  let (admitted, p) := if callId ∈ p.skipped then (false, p)
    else step.elim (true, p) fun parent => p.admitStep t parent
  if admitted then
    let (change, p) := p.tool t callId fun tool => begun now (tag.mark (update tool))
    ([change], callShown change, p)
  else
    let found := update (blankTool callId)
    let p := if found.status = .completed ∨ found.status = .failed then
        { p with skipped := p.skipped.erase callId }
      else step.elim p fun parent => p.skip t callId parent
    ([], some found, p)

def tagged (t : Transcript) (callId : String) (tag : Tag) (now : ℕ) (update : Tool → Tool)
    (p : Projector) : List Change × Projector :=
  let (changes, tool, p) := p.showCall t callId tag now update
  match tool with
  | none => (changes, p)
  | some tool =>
      (changes ++
        (tag.activity.bind fun report => recordActivity t callId tool.title report now).toList ++
        (tag.parent.bind fun parent => stepActivity t parent tool.title).toList, p)

def todoChange (input : Option Value) (p : Projector) : List Change :=
  (((if p.planned then none else input).bind todoPlan).map planChange).toList

def chunk (t : Transcript) (stream : Stream) (chunk : Wire.ContentChunk) (p : Projector) :
    Option Change × Projector :=
  match media chunk.content, stream with
  | some picture, .user => (p.image .user picture).map some id
  | some picture, .agent => (p.image .agent picture).map some id
  | _, _ => p.text t stream chunk.messageId (blockText chunk.content)

def toolCall (decode : Wire.Decoders) (t : Transcript) (call : Wire.ToolCall) (now : ℕ)
    (p : Projector) : List Change × Projector :=
  let tag := (Tag.read decode call.metadata).orElse (claudeCodeTag call.metadata call.rawInput none)
  if tag = Tag.default ∧ p.todos.card < maxSkipped ∧
      isTodoTool call.name call.title call.kind call.rawInput then
    (p.todoChange call.rawInput, { p with todos := insert call.toolCallId p.todos })
  else p.tagged t call.toolCallId tag now (applyCall call)

def shownCallUpdate (t : Transcript) (update : Wire.ToolCallUpdate) (tag : Tag) (now : ℕ)
    (p : Projector) : List Change × Projector :=
  let callId := update.toolCallId
  let shown := (p.tools.lookup callId).any fun id => (t.entry id).isSome
  match (if shown then none else tag.activity), t.activity callId with
  | some report, some known => ((recordActivity t callId known.label report now).toList, p)
  | _, _ => p.tagged t callId tag now (applyFields update.fields)

def toolCallUpdate (decode : Wire.Decoders) (t : Transcript) (update : Wire.ToolCallUpdate)
    (now : ℕ) (p : Projector) : List Change × Projector :=
  let fields := update.fields
  let tag := (Tag.read decode update.metadata).orElse
    (claudeCodeTag update.metadata fields.rawInput fields.status)
  if update.toolCallId ∈ p.todos then
    let stays := decide (tag = Tag.default) && staysTodoTool fields.kind fields.rawInput
    let p := if !stays || decide (fields.status = some .completed ∨ fields.status = some .failed) then
      { p with todos := p.todos.erase update.toolCallId } else p
    if stays then (p.todoChange fields.rawInput, p) else p.shownCallUpdate t update tag now
  else p.shownCallUpdate t update tag now

def noticeLevel : Wire.NoticeSeverity → NoticeLevel
  | .warning => .warning
  | .error => .error
  | .info => .info

def update (decode : Wire.Decoders) (t : Transcript) (update : Wire.SessionUpdate) (now : ℕ)
    (p : Projector) : List Change × Projector :=
  match update with
  | .userMessageChunk chunk => (p.chunk t .user chunk).map Option.toList id
  | .agentMessageChunk chunk => (p.chunk t .agent chunk).map Option.toList id
  | .agentThoughtChunk chunk => (p.chunk t .thought chunk).map Option.toList id
  | .toolCall call => p.toolCall decode t call now
  | .toolCallUpdate update => p.toolCallUpdate decode t update now
  | .plan entries => ([planChange entries], { p with planned := true })
  | .availableCommandsUpdate commands => ([.commands (commands.map slashCommand)], p)
  | .currentModeUpdate id => ((t.modes.map fun _ => Change.currentMode id).toList, p)
  | .sessionInfoUpdate title =>
      ((t.session.map fun session =>
        Change.session (some { session with title := title.updateTo session.title })).toList, p)
  | .usageUpdate usage => ([.usage (some usage)], p)
  | .notice severity title description =>
      let text := description.elim title fun description => title ++ "\n" ++ description
      (p.notice (noticeLevel severity) text).map (fun change => [change]) id
  | .other => ([], p)

end Projector

end Sheprd.Acp
