import Sheprd.Lib.Search

namespace Sheprd.Chat

open Sheprd.Lib

abbrev Uuid := BitVec 128
abbrev EntryId := ℕ
abbrev PermissionId := ℕ
abbrev CommandId := Uuid

def usizeMax : ℕ := 2 ^ 64 - 1

def saturatingAdd (a b : ℕ) : ℕ := min (a + b) usizeMax

inductive Author where
  | user
  | agent

inductive ImageType where
  | gif
  | jpeg
  | png
  | webp

structure Image where
  data : String
  kind : ImageType

structure QuestionAnswer where
  question : String
  answer : String
  deriving DecidableEq

inductive NoticeLevel where
  | info
  | warning
  | error

inductive ToolKind where
  | read
  | edit
  | delete
  | move
  | search
  | execute
  | think
  | fetch
  | switchMode
  | subagent
  | other

inductive ToolStatus where
  | pending
  | inProgress
  | completed
  | failed
  deriving DecidableEq

inductive ToolContent where
  | text (text : String)
  | diff (new : String) (old : Option String) (path : String)
  | image (image : Image)
  | terminal (id : String)

structure Tool where
  callId : String
  content : List ToolContent
  kind : ToolKind
  locations : List String
  parent : Option String
  startedMs : Option ℕ
  status : ToolStatus
  title : String

inductive TurnEnd where
  | done
  | cancelled
  | limit
  | refused
  | failed
  | other

structure Tokens where
  cached : ℕ
  input : ℕ
  output : ℕ
  thought : ℕ
  total : ℕ

structure TurnSummary where
  durationMs : ℕ
  endedMs : Option ℕ
  ending : TurnEnd
  tokens : Option Tokens

inductive EntryKind where
  | user (text : String) (files : ℕ)
  | agent (text : String)
  | thought (text : String)
  | image (author : Author) (image : Image)
  | tool (tool : Tool)
  | turn (summary : TurnSummary)
  | notice (answers : List QuestionAnswer) (details : Option String) (level : NoticeLevel)
      (text : String)

structure Entry where
  id : EntryId
  kind : EntryKind

inductive PermissionKind where
  | allowOnce
  | allowAlways
  | rejectOnce
  | rejectAlways
  | other
  deriving DecidableEq

structure PermissionOption where
  id : String
  kind : PermissionKind
  name : String

structure Permission where
  callId : Option String
  id : PermissionId
  options : List PermissionOption
  title : String

inductive PlanPriority where
  | high
  | low
  | medium

inductive PlanStatus where
  | inProgress
  | completed
  | pending

structure PlanEntry where
  content : String
  priority : PlanPriority
  status : PlanStatus

structure Mode where
  description : Option String
  id : String
  name : String

structure Modes where
  available : List Mode
  current : String

structure Attachment where
  path : String

structure Queued where
  attachments : List Attachment
  id : CommandId
  text : String

structure SessionInfo where
  cwd : Option String
  id : String
  title : Option String

structure SlashCommand where
  description : String
  hint : Option String
  name : String

structure Cost where
  currency : String
  micros : ℕ

structure Usage where
  cost : Option Cost
  size : ℕ
  used : ℕ

structure Turn where
  startedMs : ℕ

inductive OptionCategory where
  | mode
  | model
  | modelConfig
  | thoughtLevel
  | other

structure Choice where
  description : Option String
  group : Option String
  id : String
  name : String

inductive OptionKind where
  | select (choices : List Choice) (current : String)
  | toggle (current : Bool)

structure ConfigOption where
  category : OptionCategory
  description : Option String
  id : String
  kind : OptionKind
  name : String

inductive OptionValue where
  | choice (id : String)
  | toggle (value : Bool)

inductive ActivityKind where
  | subagent
  | shell
  | other
  deriving DecidableEq

inductive ActivityState where
  | running
  | failed
  | killed
  | finished
  deriving DecidableEq

structure Activity where
  callId : String
  detail : Option String
  finishedMs : Option ℕ
  kind : ActivityKind
  label : String
  startedMs : ℕ
  state : ActivityState
  deriving DecidableEq

inductive Status where
  | starting
  | idle
  | working
  | failed (message : String)
  | exited (message : String)
  deriving DecidableEq

structure Transcript where
  activities : List Activity
  agent : String
  autoAccept : Bool
  clients : ℕ
  commands : List SlashCommand
  entries : List Entry
  modes : Option Modes
  options : List ConfigOption
  permissions : List Permission
  plan : List PlanEntry
  queued : List Queued
  readOnly : Bool
  session : Option SessionInfo
  status : Status
  truncated : Bool
  turn : Option Turn
  usage : Option Usage

def maxActivities : ℕ := 32
def maxActivityText : ℕ := 1024
def maxQuestionAnswers : ℕ := 32
def maxQuestionText : ℕ := 128 * 1024

namespace Activity

def isRunning (a : Activity) : Bool := decide (a.state = .running)

def fits (a : Activity) : Bool :=
  ([some a.callId, some a.label, a.detail].filterMap id).all fun text =>
    decide (text.utf8ByteSize ≤ maxActivityText)

end Activity

namespace EntryKind

def text : EntryKind → Option String
  | user text _ => some text
  | agent text => some text
  | thought text => some text
  | notice _ _ _ text => some text
  | image .. => none
  | tool _ => none
  | turn _ => none

def pushStr (more : String) : EntryKind → Option EntryKind
  | user text files => some (user (text ++ more) files)
  | agent text => some (agent (text ++ more))
  | thought text => some (thought (text ++ more))
  | notice answers details level text => some (notice answers details level (text ++ more))
  | image .. => none
  | tool _ => none
  | turn _ => none

end EntryKind

def textWithin : ℕ → List QuestionAnswer → Bool
  | _, [] => true
  | bytes, answer :: answers =>
      let bytes := saturatingAdd (saturatingAdd bytes answer.question.utf8ByteSize)
        answer.answer.utf8ByteSize
      decide (bytes ≤ maxQuestionText) && textWithin bytes answers

def validQuestionAnswers (answers : List QuestionAnswer) : Bool :=
  decide (answers.length ≤ maxQuestionAnswers) && textWithin 0 answers

namespace Status

def acceptsPrompts : Status → Bool
  | idle => true
  | working => true
  | starting => true
  | _ => false

end Status

namespace Permission

def allowOption (p : Permission) : Option PermissionOption :=
  [PermissionKind.allowOnce, .allowAlways].findSome? fun kind =>
    p.options.find? fun option => decide (option.kind = kind)

end Permission

namespace ConfigOption

def accepts (o : ConfigOption) (value : OptionValue) : Bool :=
  match o.kind, value with
  | .select choices _, .choice id => choices.any fun choice => decide (choice.id = id)
  | .toggle _, .toggle _ => true
  | _, _ => false

end ConfigOption

namespace Transcript

def new (agent : String) : Transcript where
  activities := []
  agent := agent
  autoAccept := false
  clients := 0
  commands := []
  entries := []
  modes := none
  options := []
  permissions := []
  plan := []
  queued := []
  readOnly := false
  session := none
  status := .starting
  truncated := false
  turn := none
  usage := none

def position (t : Transcript) (id : EntryId) : Option ℕ :=
  (binarySearchByKey (fun entry : Entry => entry.id) id t.entries).toOption

def entry (t : Transcript) (id : EntryId) : Option Entry :=
  (t.position id).bind fun index => t.entries[index]?

def lastEntryId (t : Transcript) : Option EntryId := t.entries.getLast?.map fun entry => entry.id

def isBlocked (t : Transcript) : Bool := !t.permissions.isEmpty

def activity (t : Transcript) (callId : String) : Option Activity :=
  t.activities.find? fun activity => decide (activity.callId = callId)

lemma position_found {t : Transcript} {id : EntryId} {i : ℕ} (h : t.position id = some i) :
    ∃ entry, t.entries[i]? = some entry ∧ entry.id = id := by
  rw [position] at h
  cases hs : binarySearchByKey (fun entry : Entry => entry.id) id t.entries with
  | error k => simp [hs, Except.toOption] at h
  | ok j =>
    have hj : j = i := by simpa [hs, Except.toOption] using h
    obtain ⟨entry, he, hc⟩ := binarySearchBy_found hs
    exact ⟨entry, hj ▸ he, compare_eq_iff_eq.mp hc⟩

end Transcript

end Sheprd.Chat
