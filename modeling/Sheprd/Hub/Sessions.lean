import Sheprd.Chat.Restore
import Sheprd.Lib.Json
import Sheprd.Lib.Text
import Sheprd.Protocol.Wire

namespace Sheprd.Hub.Sessions

open Sheprd.Lib Sheprd.Chat.Restore Sheprd.Protocol

def maxChats : ℕ := 64

def sessionPrefix : List Char := "herdr:".toList

def idKeys : List String := ["pane_id", "tab_id", "target_pane_id", "workspace_id"]

structure Chat where
  pane : String
  tab : String
  endpoint : EndpointId
  agent : Option String
  title : String
  status : AgentStatus

structure TerminalAgent where
  name : Option String
  status : AgentStatus
  pane : String
  title : Option String
  changedMs : Option ℕ

structure TerminalPane where
  pane : String
  label : Option String
  cwd : Option String
  focused : Bool

structure Terminal where
  tab : String
  label : String
  cwd : Option String
  panes : List TerminalPane
  zoomed : Bool
  agent : Option TerminalAgent

structure Workspace where
  id : String
  label : String
  branch : Option String
  cwd : String
  worktree : Option ClientShellWorktree
  session : Option String
  chats : List Chat
  terminals : List Terminal

structure Layout where
  connected : Bool
  boot : String
  working : ℕ
  workspaces : List Workspace

def Layout.chats (layout : Layout) : List Chat := layout.workspaces.flatMap Workspace.chats

def tag (name id : String) : String :=
  .ofList (sessionPrefix ++ name.toList ++ ':' :: id.toList)

def prefixTerminal (name : String) (terminal : Terminal) : Terminal :=
  { terminal with
    tab := tag name terminal.tab
    panes := terminal.panes.map fun pane => { pane with pane := tag name pane.pane }
    agent := terminal.agent.map fun agent => { agent with pane := tag name agent.pane } }

def prefixWorkspace (name : String) (workspace : Workspace) : Workspace :=
  { workspace with
    id := tag name workspace.id
    chats := workspace.chats.map fun chat =>
      { chat with pane := tag name chat.pane, tab := tag name chat.tab }
    terminals := workspace.terminals.map (prefixTerminal name) }

def prefixLayout (layout : Layout) (name : String) : Layout :=
  { layout with workspaces := layout.workspaces.map (prefixWorkspace name) }

def truncateChats : List Workspace → ℕ → Option (List Workspace × ℕ)
  | [], room => some ([], room)
  | workspace :: workspaces, room => do
      let workspace := { workspace with chats := workspace.chats.take room }
      if room < workspace.chats.length then none
      let (workspaces, room) ← truncateChats workspaces (room - workspace.chats.length)
      return (workspace :: workspaces, room)

def mergeSession (merged : Layout × ℕ) (session : String × Layout) : Option (Layout × ℕ) := do
  let (merged, room) := merged
  let layout := prefixLayout session.2 session.1
  let (workspaces, room) ← truncateChats layout.workspaces room
  return ({ merged with
    connected := merged.connected || layout.connected
    working := merged.working + layout.working
    workspaces := merged.workspaces ++ workspaces }, room)

def merge (base : Layout) (sessions : List (String × Layout)) : Option Layout :=
  (sessions.foldlM mergeSession (base, maxChats - base.chats.length)).map Prod.fst

inductive Error where
  | response

structure Reading where
  owner : Option String
  primary : Bool
  stripped : Value

def readId (params : Value) (reading : Reading) (key : String) : Except Error Reading :=
  match (params.get key).bind Value.asStr with
  | none => .ok reading
  | some id =>
    match id.toList.dropPrefix? sessionPrefix with
    | none => .ok { reading with primary := true }
    | some rest =>
      match (Text.splitOnce ':' rest).filter fun (name, id) => name ≠ [] && id ≠ [] with
      | none => .error .response
      | some (name, id) =>
        if reading.owner.any (· ≠ .ofList name) then .error .response
        else .ok { reading with
          owner := some (.ofList name)
          stripped := reading.stripped.replace key (.string (.ofList id)) }

def owner (params : Value) : Except Error (Option (String × Value)) := do
  let reading ← idKeys.foldlM (readId params) ⟨none, false, params⟩
  match reading.owner with
  | some name => if reading.primary then .error .response else .ok (some (name, reading.stripped))
  | none => .ok none

def prefixId (name key : String) : Value → Option Value
  | .string id => if id ≠ "" ∧ key ∈ idKeys then some (.string (tag name id)) else none
  | _ => none

mutual

def prefixAnswer (name : String) : Value → Value
  | .array items => .array (prefixItems name items)
  | .object fields => .object (prefixFields name fields)
  | other => other

def prefixItems (name : String) : List Value → List Value
  | [] => []
  | item :: items => prefixAnswer name item :: prefixItems name items

def prefixFields (name : String) : List (String × Value) → List (String × Value)
  | [] => []
  | (key, value) :: fields =>
      (key, (prefixId name key value).getD (prefixAnswer name value)) :: prefixFields name fields

end

end Sheprd.Hub.Sessions
