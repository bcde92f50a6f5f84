import Sheprd.Chat.Change

namespace Sheprd.Chat

open Sheprd.Lib Sheprd.Lib.Exec

def version : ℕ := 1
def maxPromptSize : ℕ := 256 * 1024
def maxAttachments : ℕ := 10

structure Cursor where
  epoch : Uuid
  seq : ℕ
  deriving DecidableEq

inductive Command where
  | prompt (text : String) (attachments : List Attachment)
  | cancel
  | answer (option : String) (permission : PermissionId)
  | setMode (id : String)
  | setOption (id : String) (value : OptionValue)
  | unqueue (id : CommandId)
  | setAutoAccept (on : Bool)

inductive Rejection where
  | emptyPrompt
  | promptTooLong
  | notReady
  | notWorking
  | unknownPermission
  | unknownOption
  | unknownMode
  | unknownSetting
  | unknownQueued
  | agentUnavailable
  | tooManyAttachments
  | queueFull
  | unknownFile
  | unsupported
  deriving DecidableEq

inductive ByeReason where
  | version (supported : ℕ)
  | exiting
  | handshake

inductive ServerMessage where
  | welcome (agent : String) (pane : Option String) (version : ℕ)
  | snapshot (cursor : Cursor) (transcript : Transcript)
  | change (change : Change) (cursor : Cursor)
  | ack (id : CommandId) (rejected : Option Rejection)
  | bye (reason : ByeReason)

def ServerMessage.cursor : ServerMessage → Option Cursor
  | .snapshot cursor _ => some cursor
  | .change _ cursor => some cursor
  | _ => none

end Sheprd.Chat
