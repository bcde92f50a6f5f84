import Sheprd.Chat.Model
import Sheprd.Lib.Exec

namespace Sheprd.Chat

open Sheprd.Lib Sheprd.Lib.Exec

inductive Error where
  | activityLimit
  | activityText
  | duplicatePermission (id : PermissionId)
  | entryOrder (id last : EntryId)
  | noModes
  | notText (id : EntryId)
  | questionAnswersLimit (id : EntryId)
  | unknownEntry (id : EntryId)
  | unknownPermission (id : PermissionId)

inductive Change where
  | push (entry : Entry)
  | append (id : EntryId) (text : String)
  | replace (entry : Entry)
  | truncate (before : EntryId)
  | status (status : Status)
  | permissionAsked (permission : Permission)
  | permissionResolved (id : PermissionId)
  | plan (plan : List PlanEntry)
  | modes (modes : Option Modes)
  | currentMode (id : String)
  | options (options : List ConfigOption)
  | turn (turn : Option Turn)
  | queue (queued : List Queued)
  | clients (count : ℕ)
  | session (session : Option SessionInfo)
  | commands (commands : List SlashCommand)
  | usage (usage : Option Usage)
  | autoAccept (on : Bool)
  | activity (activity : Activity)

def Entry.overlongAnswers (entry : Entry) : Bool :=
  match entry.kind with
  | .notice answers _ _ _ => !validQuestionAnswers answers
  | _ => false

def Entry.isTurn (entry : Entry) : Bool :=
  match entry.kind with
  | .turn _ => true
  | _ => false

def Change.overlongAnswers : Change → Option EntryId
  | push entry => if entry.overlongAnswers then some entry.id else none
  | replace entry => if entry.overlongAnswers then some entry.id else none
  | _ => none

namespace Transcript

abbrev Applying := Exec Error Transcript

def record (activity : Activity) : Applying Unit := do
  refuse (¬activity.fits) .activityText
  let t ← get
  match t.activities.findIdx? fun known => decide (known.callId = activity.callId) with
  | some index => modify fun t => { t with activities := t.activities.set index activity }
  | none => do
      when (decide (maxActivities ≤ t.activities.length)) do
        let ended ← require (t.activities.findIdx? fun known => !known.isRunning) .activityLimit
        modify fun t => { t with activities := t.activities.eraseIdx ended }
      modify fun t => { t with activities := t.activities ++ [activity] }

def pushEntry (entry : Entry) : Applying Unit := do
  let t ← get
  match t.lastEntryId.filter fun last => decide (entry.id ≤ last) with
  | some last => throw (.entryOrder entry.id last)
  | none => modify fun t => { t with entries := t.entries ++ [entry] }

def appendText (id : EntryId) (text : String) : Applying Unit := do
  let t ← get
  let index ← require (t.position id) (.unknownEntry id)
  let kind ← require (t.entries[index]?.bind fun entry => entry.kind.pushStr text) (.notText id)
  modify fun t => { t with entries := t.entries.modify index fun entry => { entry with kind } }

def replaceEntry (entry : Entry) : Applying Unit := do
  let t ← get
  let index ← require (t.position entry.id) (.unknownEntry entry.id)
  modify fun t => { t with entries := t.entries.set index entry }

def truncateBefore (before : EntryId) : Applying Unit := do
  let t ← get
  let keep := partitionPoint (fun entry : Entry => decide (entry.id < before)) t.entries
  when (decide (0 < keep)) do
    modify fun t => { t with entries := t.entries.drop keep, truncated := true }

def askPermission (permission : Permission) : Applying Unit := do
  let t ← get
  refuse (t.permissions.any fun known => decide (known.id = permission.id))
    (.duplicatePermission permission.id)
  modify fun t => { t with permissions := t.permissions ++ [permission] }

def resolvePermission (id : PermissionId) : Applying Unit := do
  let t ← get
  let index ← require (t.permissions.findIdx? fun permission => decide (permission.id = id))
    (.unknownPermission id)
  modify fun t => { t with permissions := t.permissions.eraseIdx index }

def setCurrentMode (id : String) : Applying Unit := do
  let t ← get
  let modes ← require t.modes .noModes
  modify fun t => { t with modes := some { modes with current := id } }

def applyFitting : Change → Applying Unit
  | .push entry => pushEntry entry
  | .append id text => appendText id text
  | .replace entry => replaceEntry entry
  | .truncate before => truncateBefore before
  | .status status => modify fun t => { t with status }
  | .permissionAsked permission => askPermission permission
  | .permissionResolved id => resolvePermission id
  | .plan plan => modify fun t => { t with plan }
  | .modes modes => modify fun t => { t with modes }
  | .currentMode id => setCurrentMode id
  | .options options => modify fun t => { t with options }
  | .turn turn => modify fun t => { t with turn }
  | .queue queued => modify fun t => { t with queued }
  | .clients count => modify fun t => { t with clients := count }
  | .session session => modify fun t => { t with session }
  | .commands commands => modify fun t => { t with commands }
  | .usage usage => modify fun t => { t with usage }
  | .autoAccept on => modify fun t => { t with autoAccept := on }
  | .activity activity => record activity

def apply (change : Change) : Applying Unit :=
  match change.overlongAnswers with
  | some id => throw (.questionAnswersLimit id)
  | none => applyFitting change

def applyAll (changes : List Change) (t : Transcript) : Transcript :=
  changes.foldl (fun t change => (exec (apply change) t).2) t

end Transcript

end Sheprd.Chat
