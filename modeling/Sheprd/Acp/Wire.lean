import Sheprd.Chat.Model
import Sheprd.Lib.Json
import Sheprd.Lib.Text

namespace Sheprd.Acp

open Sheprd.Lib Sheprd.Chat

namespace Wire

inductive ResourceContents where
  | text (text : String)
  | blob (uri : String)
  | other

inductive ContentBlock where
  | text (text : String)
  | image (mimeType data : String)
  | audio
  | resourceLink (name uri : String)
  | resource (resource : ResourceContents)
  | other

structure ContentChunk where
  content : ContentBlock
  messageId : Option String

inductive ToolKind where
  | read
  | edit
  | delete
  | move
  | search
  | execute
  | think
  | fetch
  | switchMode
  | other
  deriving DecidableEq

inductive ToolCallStatus where
  | pending
  | inProgress
  | completed
  | failed
  deriving DecidableEq

inductive ToolCallContent where
  | content (content : ContentBlock)
  | diff (newText : String) (oldText : Option String) (path : String)
  | terminal (terminalId : String)
  | other

structure ToolCallLocation where
  path : String
  line : Option ℕ

structure ToolCall where
  toolCallId : String
  name : Option String
  title : String
  kind : ToolKind
  status : ToolCallStatus
  content : List ToolCallContent
  locations : List ToolCallLocation
  rawInput : Option Value
  metadata : Option Value

structure ToolCallUpdateFields where
  title : Option String
  kind : Option ToolKind
  status : Option ToolCallStatus
  content : Option (List ToolCallContent)
  locations : Option (List ToolCallLocation)
  rawInput : Option Value

structure ToolCallUpdate where
  toolCallId : String
  fields : ToolCallUpdateFields
  metadata : Option Value

structure AvailableCommand where
  name : String
  description : String
  hint : Option String

inductive MaybeUndefined (α : Type) where
  | undefined
  | null
  | value (value : α)

def MaybeUndefined.updateTo {α : Type} (new : MaybeUndefined α) (old : Option α) : Option α :=
  match new with
  | undefined => old
  | null => none
  | value a => some a

inductive NoticeSeverity where
  | info
  | warning
  | error

inductive SessionUpdate where
  | userMessageChunk (chunk : ContentChunk)
  | agentMessageChunk (chunk : ContentChunk)
  | agentThoughtChunk (chunk : ContentChunk)
  | toolCall (call : ToolCall)
  | toolCallUpdate (update : ToolCallUpdate)
  | plan (entries : List PlanEntry)
  | availableCommandsUpdate (commands : List AvailableCommand)
  | currentModeUpdate (currentModeId : String)
  | sessionInfoUpdate (title : MaybeUndefined String)
  | usageUpdate (usage : Usage)
  | notice (severity : NoticeSeverity) (title : String) (description : Option String)
  | other

structure SessionNotification where
  sessionId : String
  update : SessionUpdate

structure PermissionOption where
  optionId : String
  name : String
  kind : PermissionKind
  metadata : Option Value

structure RequestPermissionRequest where
  sessionId : String
  toolCall : ToolCallUpdate
  options : List PermissionOption

structure SelectOption where
  value : String
  name : String
  description : Option String

inductive SelectOptions where
  | ungrouped (options : List SelectOption)
  | grouped (groups : List (String × List SelectOption))
  | other

inductive SessionConfigKind where
  | select (currentValue : String) (options : SelectOptions)
  | boolean (currentValue : Bool)
  | other

structure SessionConfigOption where
  category : OptionCategory
  description : Option String
  id : String
  kind : SessionConfigKind
  name : String

structure InitializeResponse where
  embeddedContext : Bool
  image : Bool
  loadSession : Bool

structure NewSessionResponse where
  sessionId : String
  modes : Option Modes

inductive StopReason where
  | endTurn
  | cancelled
  | maxTokens
  | maxTurnRequests
  | refusal
  | other

structure Error where
  authRequired : Bool
  message : String

end Wire

structure Report where
  detail : Option String
  kind : ActivityKind
  label : Option String
  state : ActivityState
  deriving DecidableEq

structure Tag where
  activity : Option Report
  parent : Option String
  deriving DecidableEq

namespace Wire

structure Decoders where
  initialized : Value → Except String InitializeResponse
  newSession : Value → Except String NewSessionResponse
  loadSession : Value → Option (Option Modes)
  prompt : Value → Option StopReason
  tokens : Value → Option Tokens
  notification : Value → Option SessionNotification
  permission : Value → Option RequestPermissionRequest
  configOption : Value → Option SessionConfigOption
  tag : Value → Option Tag

end Wire

end Sheprd.Acp
