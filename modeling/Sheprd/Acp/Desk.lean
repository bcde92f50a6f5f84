import Sheprd.Acp.Handlers
import Sheprd.Lib.Run

namespace Sheprd.Acp

open Sheprd.Lib Sheprd.Chat

def Pending.isPrompt : Pending → Bool
  | .prompt => true
  | _ => false

def Pending.opens : Pending → Bool
  | .handshake => true
  | .newSession => true
  | .loadSession => true
  | _ => false

def Outbound.promptBlocks : Outbound → Option (List Wire.ContentBlock)
  | .request _ (.prompt _ blocks) => some blocks
  | _ => none

def Outbound.answers : Outbound → Option RequestId
  | .permission id _ => some id
  | .invalidParams id => some id
  | _ => none

structure Desk where
  acpSession : Option String
  asked : Dict PermissionId Asked
  handled : List (CommandId × Option Rejection)
  nextPermission : ℕ
  nextRequest : ℤ
  outbox : List Outbound
  pending : Dict ℤ Pending
  permissions : List PermissionId
  queued : List Queued
  ready : Bool
  running : Bool
  status : Status
  turn : Option ℤ

def Session.desk (s : Session) : Desk where
  acpSession := s.acpSession
  asked := s.asked
  handled := s.handled
  nextPermission := s.nextPermission
  nextRequest := s.nextRequest
  outbox := s.outbox
  pending := s.pending
  permissions := s.transcript.permissions.map fun permission => permission.id
  queued := s.transcript.queued
  ready := s.ready
  running := s.transcript.turn.isSome
  status := s.transcript.status
  turn := s.turn

def Carries (world : World) (prompt : Queued) (blocks : List Wire.ContentBlock) : Prop :=
  ∃ accepts, ∃ prepared : List Prepared,
    List.Forall₂ (fun attachment p => ∃ tick, p = world.prepare tick attachment accepts)
      prompt.attachments prepared ∧
    blocks = (if (Text.trim prompt.text).isEmpty then [] else [Wire.ContentBlock.text prompt.text]) ++
      prepared.map Prepared.block

inductive Act where
  | beside
  | ask (request : RequestId)
  | refuse (request : RequestId)
  | answer
  | fail
  | accept (prompt : Queued)
  | deliver (prompt : Queued)
  | takeBack (id : CommandId)
  | clear
  | endTurn
  | exit
  | opened
  | reply (id : ℤ)
  | ack

namespace Desk

def shows (d : Desk) : Change → Desk
  | .status status => { d with status }
  | .permissionAsked permission =>
      if permission.id ∈ d.permissions then d
      else { d with permissions := d.permissions ++ [permission.id] }
  | .permissionResolved id => { d with permissions := d.permissions.erase id }
  | .turn turn => { d with running := turn.isSome }
  | .queue queued => { d with queued }
  | _ => d

def prompts (d : Desk) : List (List Wire.ContentBlock) := d.outbox.filterMap Outbound.promptBlocks

def answered (d : Desk) (request : RequestId) : ℕ := (d.outbox.filterMap Outbound.answers).count request

def waiting (d : Desk) (request : RequestId) : ℕ :=
  (d.asked.entries.map fun entry => entry.2.request).count request

structure Unopened (d : Desk) : Prop where
  ready : d.ready = false
  pending : ∀ id kind, d.pending.lookup id = some kind → kind.isPrompt = false ∧ kind.opens = false

def failed (message : String) (d : Desk) : Desk := { d with status := .failed message, queued := [] }

def tell (lines : List Outbound) (d : Desk) : Desk := { d with outbox := d.outbox ++ lines }

def calls (call : AgentRequest) (kind : Pending) (d : Desk) : Desk :=
  { d with
    nextRequest := d.nextRequest + 1
    outbox := d.outbox ++ [.request (d.nextRequest + 1) call]
    pending := d.pending.insert (d.nextRequest + 1) kind }

def begins (d : Desk) : Desk :=
  { d with turn := some d.nextRequest, running := true, status := .working }

def ends (d : Desk) : Desk :=
  { d with
    turn := none
    running := false
    status := if d.status = .working then .idle else d.status }

def settle (permission : PermissionId) (lines : List Outbound) (d : Desk) : Desk :=
  { d with
    asked := d.asked.erase permission
    outbox := d.outbox ++ lines
    permissions := d.permissions.erase permission }

def asks (request : RequestId) (options : List String) (d : Desk) : Desk :=
  { d with
    nextPermission := d.nextPermission + 1
    asked := d.asked.insert (d.nextPermission + 1) ⟨options, request⟩
    permissions := if d.nextPermission + 1 ∈ d.permissions then d.permissions
      else d.permissions ++ [d.nextPermission + 1] }

def exits (message : String) (d : Desk) : Desk :=
  { d with
    asked := ∅
    permissions := []
    turn := none
    ready := false
    running := false
    queued := []
    status := .exited message }

inductive Step (world : World) (d : Desk) : Act → Desk → Prop
  | named (id : String) : Step world d .beside { d with acpSession := some id }
  | tell {lines : List Outbound} (plain : ∀ line ∈ lines, line.promptBlocks = none)
      (unasked : ∀ line ∈ lines, line.answers = none) : Step world d .beside (d.tell lines)
  | numbered : Step world d .beside { d with nextRequest := d.nextRequest + 1 }
  | calls {call : AgentRequest} {kind : Pending} (other : kind.isPrompt = false)
      (plain : ∀ id, (Outbound.request id call).promptBlocks = none)
      (opening : kind.opens = true → d.Unopened)
      (loading : kind = .loadSession → d.acpSession.isSome = true) :
      Step world d .beside (d.calls call kind)
  | ask (request : RequestId) (options : List String) :
      Step world d (.ask request) (d.asks request options)
  | refuse (request : RequestId) : Step world d (.refuse request) (d.tell [.invalidParams request])
  | answer {permission : PermissionId} {asked : Asked} {lines : List Outbound}
      (found : d.asked.lookup permission = some asked)
      (told : lines = [] ∨ ∃ outcome, lines = [.permission asked.request outcome]) :
      Step world d .answer (d.settle permission lines)
  | fail (message : String) : Step world d .fail (d.failed message)
  | accept (prompt : Queued) :
      Step world d (.accept prompt) { d with queued := d.queued ++ [prompt] }
  | deliver {prompt : Queued} {queued : List Queued} {session : String}
      {blocks : List Wire.ContentBlock} (first : d.queued = prompt :: queued)
      (free : d.turn = none) (ready : d.ready = true) (carries : Carries world prompt blocks) :
      Step world d (.deliver prompt)
        { (d.calls (.prompt session blocks) .prompt).begins with queued := queued }
  | takeBack {i : ℕ} {prompt : Queued} (found : d.queued[i]? = some prompt) :
      Step world d (.takeBack prompt.id) { d with queued := d.queued.eraseIdx i }
  | clear : Step world d .clear { d with queued := [] }
  | endTurn {id : ℤ} (current : d.turn = some id) (answered : d.pending.lookup id = none) :
      Step world d .endTurn d.ends
  | exit (message : String) : Step world d .exit (d.exits message)
  | opened (unopened : d.Unopened) (named : d.acpSession.isSome = true) :
      Step world d .opened { d with ready := true, status := .idle }
  | reply (id : ℤ) : Step world d (.reply id) { d with pending := d.pending.erase id }
  | ack (handled : List (CommandId × Option Rejection)) : Step world d .ack { d with handled }

end Desk

end Sheprd.Acp
