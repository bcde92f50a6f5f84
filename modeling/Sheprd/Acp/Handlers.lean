import Sheprd.Acp.Feed

namespace Sheprd.Acp

open Sheprd.Lib Sheprd.Lib.Exec Sheprd.Chat

def maxQueued : ℕ := 32
def maxQueuedText : ℕ := 1024 * 1024
def attached : String := "📎 "

inductive Inbound where
  | request (id : RequestId) (method : String) (params : Value)
  | notification (method : String) (params : Value)
  | response (id : RequestId) (result : Except Wire.Error Value)
  | closed (error : Option String)

structure Attach where
  conn : ℕ
  isLocal : Bool
  since : Option Cursor

inductive Input where
  | agent (inbound : Inbound)
  | agentExited (code : Option ℤ) (stderr : List String)
  | attach (attach : Attach)
  | command (command : Command) (conn : ℕ) (id : CommandId)
  | detach (conn : ℕ)
  | shutdown
  | unsupported (conn : ℕ) (id : CommandId)

inductive Flow where
  | goOn
  | exit
  deriving DecidableEq

section Clients

variable (world : World)

def emitAll : List Change → Acting Unit
  | [] => pure ()
  | change :: changes => do
      emit world change
      emitAll changes

def emitProjected (f : Projector → Change × Projector) : Acting Unit := do
  let change ← project f
  emit world change

def setStatus (status : Status) : Acting Unit := do
  let s ← get
  when (decide (s.transcript.status ≠ status)) (emit world (.status status))

def queueChanged (queued : List Queued) : Acting Unit := emit world (.queue queued)

def clearQueue : Acting Unit := do
  let s ← get
  when (!s.transcript.queued.isEmpty) (queueChanged world [])

def fail (message : String) : Acting Unit := do
  emitProjected world (Projector.notice .error message)
  setStatus world (.failed message)
  clearQueue world

def sendEach (outbox : ℕ) : List ServerMessage → Acting Bool
  | [] => return true
  | message :: messages => do
      let taken ← trySend world outbox message
      if taken then sendEach outbox messages else return false

def announceClients : Acting Unit := do
  let s ← get
  emit world (.clients s.remoteClients)

def subscribe (a : Attach) (outbox : ℕ) : Acting Unit := do
  modify fun s => { s with subscribers := s.subscribers ++ [⟨a.conn, a.isLocal, outbox⟩] }
  when (!a.isLocal) (announceClients world)

def attach (a : Attach) : Acting Unit := do
  let s ← get
  let outbox := s.clients.length
  let resumed := a.since.filter s.feed.reachesBack
  set { s with clients := s.clients ++ [Client.mk resumed []] }
  let welcomed ← trySend world outbox (.welcome s.config.agent s.config.pane version)
  when welcomed do
    let sent ← sendEach world outbox (s.feed.opening resumed)
    when sent (subscribe world a outbox)

def detach (conn : ℕ) : Acting Unit := do
  let before := (← get).remoteClients
  modify fun s => { s with
    subscribers := s.subscribers.filter fun subscriber => decide (subscriber.conn ≠ conn) }
  let count := (← get).remoteClients
  when (decide (count ≠ before)) (announceClients world)

def bye (reason : ByeReason) : Acting Unit := do
  let s ← get
  let _ ← sendAll world (.bye reason) s.subscribers
  modify fun s => { s with subscribers := [] }

def sendTo (conn : ℕ) (message : ServerMessage) : Acting Unit := do
  let s ← get
  match s.subscribers.find? fun subscriber => decide (subscriber.conn = conn) with
  | none => pure ()
  | some subscriber => do
      let taken ← trySend world subscriber.outbox message
      when (!taken) (detach world conn)

def ack (conn : ℕ) (id : CommandId) (rejected : Option Rejection) : Acting Unit := do
  modify fun s => { s with
    handled := (if s.handled.length = handledCount then s.handled.drop 1 else s.handled) ++
      [(id, rejected)] }
  sendTo world conn (.ack id rejected)

end Clients

section Agent

variable (world : World) (decode : Wire.Decoders)

def toAgent (line : Outbound) : Acting (Option String) := do
  let failed ← ask world.agentFails
  when failed.isNone (modify fun s => { s with outbox := s.outbox ++ [line] })
  when failed.isSome (modify fun s =>
    { s with refused := s.refused ++ [⟨line, s.transcript.turn.isSome⟩] })
  return failed

def request (call : AgentRequest) (pending : Pending) : Acting Bool := do
  modify fun s => { s with nextRequest := s.nextRequest + 1 }
  let id := (← get).nextRequest
  match ← toAgent world (.request id call) with
  | none => do
      modify fun s => { s with pending := s.pending.insert id pending }
      return true
  | some error => do
      fail world error
      return false

def Attachment.name (a : Attachment) : String :=
  ((Text.splitOn ['/', '\\'] a.path.toList).reverse.find? fun part => !part.isEmpty).elim a.path
    String.ofList

def shownPrompt (text : String) (attachments : List Attachment) : String :=
  attachments.foldl (fun shown attachment =>
    (if shown.isEmpty then shown else shown ++ "\n") ++ attached ++ Attachment.name attachment) text

def prepareAll (accepts : Accepts) : List Attachment → Acting (List Prepared)
  | [] => return []
  | attachment :: attachments => do
      let prepared ← ask (fun tick => world.prepare tick attachment accepts)
      let rest ← prepareAll accepts attachments
      return prepared :: rest

def showPrepared : List Prepared → Acting Unit
  | [] => pure ()
  | prepared :: rest => do
      prepared.image.forM fun image => emitProjected world (Projector.image .user image)
      showPrepared rest

def beginTurn (shown : String) : Acting Unit := do
  tellHerdr (.prompt shown)
  modify fun s => { s with turn := some s.nextRequest }
  let now ← ask world.now
  emit world (.turn (some ⟨now⟩))
  setStatus world .working

def sendPrompt (text : String) (attachments : List Attachment) : Acting Unit := do
  let s ← get
  match s.acpSession with
  | none => pure ()
  | some session => do
      let prepared ← prepareAll world s.accepts attachments
      let shown := shownPrompt text attachments
      emitProjected world (Projector.prompt shown attachments.length)
      showPrepared world prepared
      let blocks := (if (Text.trim text).isEmpty then [] else [Wire.ContentBlock.text text]) ++
        prepared.map Prepared.block
      let sent ← request world (.prompt session blocks) .prompt
      when sent (beginTurn world shown)

def nextQueued : Acting Unit := do
  let s ← get
  when (s.turn.isNone && s.ready) do
    match s.transcript.queued with
    | [] => pure ()
    | next :: queued => do
        queueChanged world queued
        sendPrompt world next.text next.attachments

def resolve (permission : PermissionId) (option : Option String) : Acting Unit := do
  let s ← get
  match s.asked.lookup permission with
  | none => pure ()
  | some asked => do
      set { s with asked := s.asked.erase permission }
      let outcome := option.elim PermissionOutcome.cancelled .selected
      let failed ← toAgent world (.permission asked.request outcome)
      failed.forM (fail world)
      emit world (.permissionResolved permission)

def resolveEach : List PermissionId → Acting Unit
  | [] => pure ()
  | permission :: permissions => do
      resolve world permission none
      resolveEach permissions

def resolveAll : Acting Unit := do
  let s ← get
  resolveEach world (s.asked.keys.mergeSort fun a b => decide (a ≤ b))

def autoAnswer (permission : PermissionId) : Acting Unit := do
  let s ← get
  when s.transcript.autoAccept do
    let allowed := (s.transcript.permissions.find? fun asked => decide (asked.id = permission)).bind
      Permission.allowOption
    allowed.forM fun option => resolve world permission (some option.id)

def load (response : Wire.InitializeResponse) : Acting Unit := do
  let s ← get
  match s.config.load with
  | none => do
      let _ ← request world (.newSession s.config.cwd) .newSession
  | some id =>
      if response.loadSession then do
        modify fun s => { s with acpSession := some id }
        let _ ← request world (.loadSession id s.config.cwd) .loadSession
      else if s.config.requireLoad then
        fail world (s.config.agent ++ " cannot continue session " ++ id ++
          ", so no new session was started.")
      else do
        emitProjected world (Projector.notice .warning
          "This agent cannot continue a session; starting a new one.")
        let _ ← request world (.newSession s.config.cwd) .newSession

def initialized (result : Except Wire.Error Value) : Acting Unit :=
  match result.map decode.initialized with
  | .error error => fail world ("The agent refused the handshake: " ++ error.message)
  | .ok (.error error) => fail world ("The agent's handshake was invalid: " ++ error)
  | .ok (.ok response) => do
      modify fun s => { s with accepts := ⟨response.embeddedContext, response.image⟩ }
      load world response

def openFailure (s : Session) (error : Wire.Error) : String :=
  if error.authRequired then
    match s.config.loginHint with
    | some hint => s.config.agent ++ " needs you to sign in: " ++ hint
    | none => s.config.agent ++ " needs you to sign in first."
  else "Could not start the session: " ++ error.message

def ready (id : String) (modes : Option Modes) (settings : List ConfigOption) : Acting Unit := do
  modify fun s => { s with ready := true }
  tellHerdr (.opened id)
  let s ← get
  emit world (.session (some ⟨some s.config.cwd, id, none⟩))
  modes.forM fun modes => emit world (.modes (some modes))
  when (!settings.isEmpty) (emit world (.options settings))
  modify fun s => { s with projector := s.projector.close }
  setStatus world .idle
  nextQueued world

def readyWith (modes : Option Modes) (settings : List ConfigOption) : Acting Unit := do
  let s ← get
  match s.acpSession with
  | none => pure ()
  | some id => ready world id modes settings

def sessionOpened (loaded : Bool) (result : Except Wire.Error Value) : Acting Unit := do
  let s ← get
  match result with
  | .error error => fail world (openFailure s error)
  | .ok value =>
      let settings := options decode (value.get "configOptions")
      let rest := value.remove "configOptions"
      if loaded then readyWith world ((decode.loadSession rest).getD none) settings
      else
        match decode.newSession rest with
        | .error error => fail world ("The agent's session was invalid: " ++ error)
        | .ok response => do
            modify fun s => { s with acpSession := some response.sessionId }
            readyWith world response.modes settings

def turnEnd : Wire.StopReason → TurnEnd
  | .endTurn => .done
  | .cancelled => .cancelled
  | .maxTokens => .limit
  | .maxTurnRequests => .limit
  | .refusal => .refused
  | .other => .other

def turnOutcome (result : Except Wire.Error Value) : TurnEnd × Option Tokens × Option String :=
  match result with
  | .error error => (.failed, none, some error.message)
  | .ok value =>
      match decode.prompt value with
      | none => (.other, none, none)
      | some reason => (turnEnd reason, (value.get "usage").bind decode.tokens, none)

def startedMs : Option Turn → Acting ℕ
  | some turn => return turn.startedMs
  | none => ask world.now

def turnEnded (id : ℤ) (result : Except Wire.Error Value) : Acting Unit := do
  let s ← get
  when (decide (s.turn = some id)) do
    set { s with turn := none }
    resolveAll world
    modify fun s => { s with projector := s.projector.close }
    let (ending, tokens, error) := turnOutcome decode result
    error.forM fun error => emitProjected world (Projector.notice .error error)
    let running := (← get).transcript.turn
    let started ← startedMs world running
    let ended ← ask world.now
    emitProjected world (Projector.turn ⟨ended - started, some ended, ending, tokens⟩)
    emit world (.turn none)
    let status := (← get).transcript.status
    when (decide (status = .working)) (setStatus world .idle)
    nextQueued world

def response (id : ℤ) (pending : Pending) (result : Except Wire.Error Value) : Acting Unit :=
  match pending with
  | .handshake => initialized world decode result
  | .newSession => sessionOpened world decode false result
  | .loadSession => sessionOpened world decode true result
  | .prompt => turnEnded world decode id result
  | .setOption =>
      match result with
      | .ok value =>
          match value.get "configOptions" with
          | some settings => emit world (.options (options decode (some settings)))
          | none => pure ()
      | .error error => emitProjected world
          (Projector.notice .warning ("Could not change the setting: " ++ error.message))
  | .setMode mode =>
      match result with
      | .ok _ => emit world (.currentMode mode)
      | .error error => emitProjected world
          (Projector.notice .warning ("Could not change mode: " ++ error.message))

def sessionUpdate (params : Value) : Acting Unit := do
  let s ← get
  let ours := ((params.get "sessionId").bind Value.asStr).any fun id =>
    decide (s.acpSession = some id)
  let update := params.get "update"
  if ours && decide (((update.bind fun update => update.get "sessionUpdate").bind Value.asStr) =
      some "config_option_update") then
    emit world (.options (options decode (update.bind fun update => update.get "configOptions")))
  else
    match decode.notification params with
    | none => pure ()
    | some notification =>
        when (decide (s.acpSession = some notification.sessionId)) do
          let now ← ask world.now
          let changes ← project (Projector.update decode s.transcript notification.update now)
          emitAll world changes

def permissionOption (option : Wire.PermissionOption) : PermissionOption where
  id := option.optionId
  kind := if ((option.metadata.bind fun metadata => metadata.get "herdr.manual").bind Value.asBool) =
    some true then .other else option.kind
  name := option.name

def askPermission (id : RequestId) (request : Wire.RequestPermissionRequest) : Acting Unit := do
  let s ← get
  let callId := request.toolCall.toolCallId
  let fields := request.toolCall.fields
  let tool ← project (Projector.tool s.transcript callId (applyFields fields))
  let title := (fields.title.or ((Projector.callShown tool).map fun tool => tool.title)).getD
    "The agent asks for permission"
  emit world tool
  modify fun s => { s with nextPermission := s.nextPermission + 1 }
  let permission := (← get).nextPermission
  let offered := request.options.map permissionOption
  modify fun s => { s with
    asked := s.asked.insert permission ⟨offered.map fun option => option.id, id⟩ }
  emit world (.permissionAsked ⟨some callId, permission, offered, title⟩)
  autoAnswer world permission

def agentRequest (id : RequestId) (method : String) (params : Value) : Acting Unit := do
  let s ← get
  if method ≠ "session/request_permission" then do
    let _ ← toAgent world (.methodNotFound id)
  else
    match (decode.permission params).filter fun request =>
        decide (s.acpSession = some request.sessionId) with
    | some request => askPermission world id request
    | none => do
        let _ ← toAgent world (.invalidParams id)

def agent (inbound : Inbound) : Acting Unit :=
  match inbound with
  | .response (.number id) result => do
      let s ← get
      match s.pending.lookup id with
      | none => pure ()
      | some pending => do
          set { s with pending := s.pending.erase id }
          response world decode id pending result
  | .response _ _ => pure ()
  | .notification method params =>
      when (decide (method = "session/update")) (sessionUpdate world decode params)
  | .request id method params => agentRequest world decode id method params
  | .closed (some error) => fail world error
  | .closed none => pure ()

def exitMessage (agent : String) : Option ℤ → String
  | some 0 => agent ++ " exited."
  | some code => agent ++ " exited with status " ++ toString code ++ "."
  | none => agent ++ " was stopped."

def exited (code : Option ℤ) (stderr : List String) : Acting Unit := do
  let s ← get
  let summary := exitMessage s.config.agent code
  let message := if stderr.isEmpty ∨ code = some 0 then summary
    else summary ++ "\n" ++ String.intercalate "\n" stderr
  set { s with asked := ∅ }
  emitAll world (s.transcript.permissions.map fun permission => .permissionResolved permission.id)
  modify fun s => { s with turn := none, ready := false }
  let running := (← get).transcript.turn
  when running.isSome (emit world (.turn none))
  clearQueue world
  let now ← ask world.now
  let gone := killAll (← get).transcript now
  emitAll world gone
  emitProjected world (Projector.notice (if code = some 0 then .info else .error) message)
  setStatus world (.exited summary)

end Agent

section Commands

variable (world : World)

def allReadable : List Attachment → Acting Bool
  | [] => return true
  | attachment :: attachments => do
      let readable ← ask (fun tick => world.readable tick attachment)
      if readable then allReadable attachments else return false

def promptRefused (s : Session) (readable : Bool) (text : String) : Option Rejection :=
  let waiting := sumOf (fun queued : Queued => queued.text.utf8ByteSize) s.transcript.queued
  if !readable then some .unknownFile
  else if maxPromptSize < text.utf8ByteSize then some .promptTooLong
  else if !s.transcript.status.acceptsPrompts then some .notReady
  else if (s.turn.isSome || !s.ready) && (decide (maxQueued ≤ s.transcript.queued.length) ||
      decide (maxQueuedText < waiting + text.utf8ByteSize)) then some .queueFull
  else none

def acceptPrompt (id : CommandId) (text : String) (attachments : List Attachment) :
    Acting (Option Rejection) := do
  let s ← get
  if s.turn.isSome || !s.ready then do
    queueChanged world (s.transcript.queued ++ [⟨attachments, id, text⟩])
    return none
  else do
    sendPrompt world text attachments
    return none

def prompt (id : CommandId) (text : String) (attachments : List Attachment) :
    Acting (Option Rejection) := do
  if (Text.trim text).isEmpty ∧ attachments.isEmpty then return some .emptyPrompt
  else if maxAttachments < attachments.length then return some .tooManyAttachments
  else do
    let readable ← allReadable world attachments
    let s ← get
    match promptRefused s readable text with
    | some rejection => return some rejection
    | none => acceptPrompt world id text attachments

def cancelTurn (s : Session) : Acting (Option Rejection) :=
  match s.turn, s.acpSession with
  | some _, some session => do
      match ← toAgent world (.cancel session) with
      | some error => do
          fail world error
          return some .agentUnavailable
      | none => return none
  | _, _ => return none

def cancel : Acting (Option Rejection) := do
  let s ← get
  if s.turn.isNone && s.transcript.queued.isEmpty then return some .notWorking
  else do
    clearQueue world
    resolveAll world
    cancelTurn world (← get)

def answer (permission : PermissionId) (option : String) : Acting (Option Rejection) := do
  let s ← get
  match s.asked.lookup permission with
  | none => return some .unknownPermission
  | some asked =>
      if option ∈ asked.options then do
        resolve world permission (some option)
        return none
      else return some .unknownOption

def requested (call : AgentRequest) (pending : Pending) : Acting (Option Rejection) := do
  let sent ← request world call pending
  return if sent then none else some .agentUnavailable

def setMode (mode : String) : Acting (Option Rejection) := do
  let s ← get
  match s.acpSession with
  | none => return some .notReady
  | some session =>
      if s.transcript.modes.any fun modes => modes.available.any fun known => decide (known.id = mode)
      then requested world (.setMode session mode) (.setMode mode)
      else return some .unknownMode

def setOption (id : String) (value : OptionValue) : Acting (Option Rejection) := do
  let s ← get
  match s.acpSession with
  | none => return some .notReady
  | some session =>
      if s.transcript.options.any fun option => decide (option.id = id) && option.accepts value
      then requested world (.setOption session id value) .setOption
      else return some .unknownSetting

def autoAnswerEach : List PermissionId → Acting Unit
  | [] => pure ()
  | permission :: permissions => do
      autoAnswer world permission
      autoAnswerEach permissions

def setAutoAccept (on : Bool) : Acting (Option Rejection) := do
  let s ← get
  when (decide (s.transcript.autoAccept ≠ on)) (emit world (.autoAccept on))
  when on do
    let waiting := (← get).transcript.permissions
    autoAnswerEach world (waiting.map fun permission => permission.id)
  return none

def unqueue (id : CommandId) : Acting (Option Rejection) := do
  let s ← get
  match s.transcript.queued.findIdx? fun queued => decide (queued.id = id) with
  | none => return some .unknownQueued
  | some index => do
      emit world (.queue (s.transcript.queued.eraseIdx index))
      return none

def carryOutCommand (id : CommandId) : Command → Acting (Option Rejection)
  | .prompt text attachments => prompt world id text attachments
  | .cancel => cancel world
  | .answer option permission => answer world permission option
  | .setMode mode => setMode world mode
  | .setOption id value => setOption world id value
  | .unqueue id => unqueue world id
  | .setAutoAccept on => setAutoAccept world on

def command (conn : ℕ) (id : CommandId) (c : Command) : Acting Unit := do
  let s ← get
  match s.handled.find? fun handled => decide (handled.1 = id) with
  | some (_, rejected) => sendTo world conn (.ack id rejected)
  | none => do
      let rejected ← carryOutCommand world id c
      ack world conn id rejected

end Commands

section Run

variable (world : World) (decode : Wire.Decoders)

def start : Acting Unit := do
  let _ ← request world .handshake .handshake
  reportActivity

def handle (input : Input) : Acting Flow :=
  match input with
  | .agent inbound => do
      agent world decode inbound
      return .goOn
  | .agentExited code stderr => do
      exited world code stderr
      let s ← get
      if s.config.exitWithAgent then do
        bye world .exiting
        return .exit
      else return .goOn
  | .attach a => do
      attach world a
      return .goOn
  | .command c conn id => do
      command world conn id c
      return .goOn
  | .detach conn => do
      detach world conn
      return .goOn
  | .unsupported conn id => do
      ack world conn id (some .unsupported)
      return .goOn
  | .shutdown => do
      bye world .exiting
      return .exit

def notices : List (NoticeLevel × String) → Acting Unit
  | [] => pure ()
  | (level, text) :: rest => do
      emitProjected world (Projector.notice level text)
      notices rest

def handleAll : List Input → Acting Unit
  | [] => pure ()
  | input :: inputs => do
      let flow ← handle world decode input
      if flow = .exit then pure () else handleAll inputs

def runSession (found : List (NoticeLevel × String)) (inputs : List Input) : Acting Unit := do
  notices world found
  start world
  handleAll world decode inputs

end Run

end Sheprd.Acp
