import Sheprd.Client.PartialInput

namespace Sheprd.Client

open Sheprd.Lib Sheprd.Lib.Exec Sheprd.Protocol

def commandTimeout : ℕ := 60000
def handshakeTimeout : ℕ := 10000
def quietPing : ℕ := 5000
def pingTimeout : ℕ := 10000

inductive Queued where
  | message (bootId : String) (bytes : List UInt8) (inputPane : Option String)
      (request : Option PendingRequest)
  | clipboard (bootId : String) (reservedAt : ℕ)

def Queued.command : Queued → Command
  | message bootId bytes inputPane request => ⟨bootId, bytes, inputPane, request, none, ⟨0, none⟩⟩
  | clipboard bootId reservedAt => ⟨bootId, [], none, none, some ⟨reservedAt, ⟨0, none⟩⟩, ⟨0, none⟩⟩

inductive Write where
  | took (count : ℕ)
  | retry
  | failed

inductive Published where
  | bytes (bytes : List UInt8)
  | empty
  | disconnected

structure Attempt where
  now : ℕ
  stop : Bool
  incoming : Option Queued
  readable : Bool
  write : Write
  cancelled : Bool
  published : Published

structure Pass where
  now : ℕ
  stop : Bool
  liveness : Bool
  ping : Write
  cancelled : Bool
  attempts : List Attempt
  ready : Bool
  arrivals : List Arrival

inductive Act where
  | sent (id : String)
  | resent (id : String)
  | answered (id : String)

structure Worker where
  connection : Connection
  link : Link
  queued : Option Command
  log : List Act

abbrev Work := Exec Error Worker

inductive Turn where
  | again
  | done
  | stopped

structure Setup where
  windows : Bool
  liveness : ℕ
  partialFrame : ℕ

def ClientEvent.asResponse : ClientEvent → Option String
  | .response requestId _ => some requestId
  | _ => none

def responses (emitted : List Emission) : List String :=
  emitted.filterMap fun e => e.event.asResponse

namespace Session

def rejectionReason (s : Session) (command : Command) : Option Error :=
  if s.snapshot.all (fun snapshot => decide (snapshot.bootId ≠ command.bootId)) then
    some .commandBoot
  else
    match command.request with
    | none => none
    | some request =>
        if s.welcome.all (fun w => !request.method.advertisedIn w.methods) then
          some .unsupportedMethod
        else if decide (request.method = .clientShellSurfaceSet) &&
            s.welcome.all (fun w => !supportsSurfaceInterest w) then
          some .unsupportedSurfaceInterest
        else none

def pipelines (s : Session) (command : Command) : Bool :=
  s.pipelineBarriers && s.barrier.isNone &&
    command.request.any (fun request => decide (request.method = .clientShellSurfaceSet)) &&
    s.pending.any fun pending =>
      decide (pending.method ∈ [Method.paneFocus, .tabFocus, .workspaceFocus])

def resendReady (s : Session) : Bool := s.pending.isNone && s.barrier.any fun b => b.refused

def requestDeadline (s : Session) : Option ℕ :=
  ((s.pending.toList ++ s.barrier.toList.map Barrier.pending).map
    fun p => p.started + commandTimeout).min?

def checkTimeouts (s : Session) (now : ℕ) : Except Error Unit :=
  if s.snapshot.isNone && decide (s.started + handshakeTimeout ≤ now) then .error .handshakeTimeout
  else if s.requestDeadline.any fun due => decide (due ≤ now) then .error .requestTimeout
  else .ok ()

end Session

namespace Health

def deadline (h : Health) : ℕ := h.ping.elim (h.received + quietPing) Prod.snd

def probe (h : Health) (now timeout : ℕ) : Bool × Health :=
  match h.ping with
  | some (sent, due) => (false, { h with ping := some (sent, min due (now + timeout)) })
  | none => (true, { h with ping := some (now, now + timeout) })

def tick (h : Health) (now : ℕ) : Except Error (Bool × Health) :=
  if now < h.deadline then .ok (false, h)
  else if h.ping.isSome then .error .healthTimeout
  else .ok (true, { h with ping := some (now, now + pingTimeout) })

end Health

def ImageWriter.writeSome (writer : ImageWriter) (now : ℕ) (bytes : List UInt8) (write : Write) :
    Except Error (Bool × ImageWriter) :=
  let started := some (writer.started.getD now)
  match write with
  | .failed => .error .io
  | .retry => .ok (decide (writer.offset = bytes.length), { writer with started })
  | .took count =>
      let n := min count (min bytes.length (writer.offset + 64 * 1024) - writer.offset)
      if n = 0 then .error .io
      else .ok (decide (writer.offset + n = bytes.length), ⟨writer.offset + n, started⟩)

def ImageWriter.expired (writer : ImageWriter) (now : ℕ) : Bool :=
  writer.started.any fun started => decide (started + commandTimeout ≤ now)

section Loop

variable (setup : Setup) (parse : Parsers) (sink : List Emission → ClientEvent → Option Error)

def onConnection {α : Type} (m : Handling α) : Work α := fun w =>
  ((exec m w.connection).1, { w with connection := (exec m w.connection).2 })

def onSession (f : Session → Session) : Work Unit := onConnection (update f)

def writeAll (write : Write) : Work Unit :=
  match write with
  | .took _ => pure ()
  | _ => throw .io

def requeue (command : Command) : Work Turn := do
  modify fun w => { w with queued := some command }
  return .done

def writeInput (a : Attempt) (command : Command) : Work Turn := do
  let (finished, written) ← lift id (command.written.writeSome a.now command.bytes a.write)
  if finished then return .again else requeue { command with written }

def writeImage (a : Attempt) (command : Command) (image : ImageSlot) (bytes : List UInt8) :
    Work Turn := do
  refuse (image.writer.expired a.now) (.clipboard .writeTimeout)
  let (finished, writer) ← lift id (image.writer.writeSome a.now bytes a.write)
  if finished then return .done
  else requeue { command with bytes, image := some { image with writer } }

def attemptImage (a : Attempt) (command : Command) (image : ImageSlot) : Work Turn := do
  if a.cancelled then do
    refuse (0 < image.writer.offset) (.clipboard .cancelled)
    return .again
  else if !command.bytes.isEmpty then writeImage a command image command.bytes
  else
    match a.published with
    | .bytes bytes => writeImage a command image bytes
    | .disconnected => return .again
    | .empty =>
        if image.reservedAt + commandTimeout ≤ a.now then do
          onConnection (emit sink (.commandRejected none (.clipboard .preparationTimeout)))
          return .again
        else requeue command

def send (a : Attempt) (command : Command) : Work Turn := do
  writeAll a.write
  match command.request with
  | none => return .again
  | some request => do
      let pending : Pending := ⟨request.id, request.method, [], a.now⟩
      onSession fun s =>
        if s.pending.isSome then { s with barrier := some ⟨pending, command.bytes, none, false⟩ }
        else { s with pending := some pending }
      modify fun w => { w with log := w.log ++ [.sent request.id] }
      return .again

def attempt (a : Attempt) (command : Command) : Work Turn := do
  let w ← get
  let s := w.connection.session
  if command.image.isNone && command.started then writeInput a command
  else if w.link.reader.started.isSome && !command.started &&
      (!s.permitsPartialInput setup.windows command w.link.reader a.now setup.partialFrame ||
        a.readable) then
    requeue command
  else
    match s.rejectionReason command with
    | some reason => do
        onConnection (emit sink (.commandRejected (command.request.map fun r => r.id) reason))
        return .again
    | none =>
        if command.request.isSome && (s.pending.isSome || s.barrier.isSome) &&
            !s.pipelines command then
          requeue command
        else
          match command.image with
          | some image => attemptImage sink a command image
          | none =>
              if w.link.reader.started.isSome || command.inputAttempted then writeInput a command
              else send a command

def resend (a : Attempt) (barrier : Barrier) : Work Turn := do
  onSession fun s => { s with barrier := none }
  if a.stop then return .stopped
  else do
    writeAll a.write
    onSession fun s => { s with pending := some { barrier.pending with started := a.now } }
    modify fun w => { w with log := w.log ++ [.resent barrier.pending.id] }
    return .again

def Worker.refusedBarrier (w : Worker) : Option Barrier :=
  if w.link.reader.started.isNone &&
      !w.queued.any (fun c => c.started || c.inputAttempted) &&
      w.connection.session.resendReady then w.connection.session.barrier
  else none

def turn (a : Attempt) : Work Turn := do
  let w ← get
  match w.refusedBarrier with
  | some barrier => resend a barrier
  | none =>
      match w.queued.or (a.incoming.map Queued.command) with
      | none => return .done
      | some command => do
          modify fun w => { w with queued := none }
          if a.stop then return .stopped else attempt setup sink a command

def batch : ℕ → List Attempt → Work Turn
  | 0, _ => return .done
  | _ + 1, [] => return .done
  | n + 1, a :: attempts => do
      match ← turn setup sink a with
      | .again => batch n attempts
      | other => return other

def probeHealth (p : Pass) (health : Health) : Work Unit := do
  let (probe, health) := if p.liveness then health.probe p.now setup.liveness else (false, health)
  let (quiet, health) ← lift id (health.tick p.now)
  onSession fun s => { s with health := some health }
  when (quiet || probe) (writeAll p.ping)

def checkPass (p : Pass) : Work Unit := do
  let w ← get
  lift id (w.connection.session.checkTimeouts p.now)
  refuse ((w.link.reader.deadline setup.partialFrame).any fun due => decide (due ≤ p.now))
    .partialFrameTimeout
  refuse (w.queued.any fun c => c.inputAttempted && c.written.expired p.now) .inputWriteTimeout
  refuse (w.queued.any fun c => c.image.any fun i => i.writer.expired p.now)
    (.clipboard .writeTimeout)
  refuse (p.cancelled && w.queued.any fun c => c.image.any fun i => decide (0 < i.writer.offset))
    (.clipboard .cancelled)
  match w.connection.session.health with
  | some health =>
      when (!w.queued.any fun c => c.started || c.inputAttempted) (probeHealth setup p health)
  | none => pure ()

def readMessage (p : Pass) : Work (Option ServerMessage) := do
  let w ← get
  let (result, link, _) ← require (w.link.pollBatch 128 p.arrivals) .panicked
  modify fun w => { w with link }
  match result with
  | .error .socketClosed =>
      throw (if w.connection.session.welcome.isNone && !w.connection.session.remote then
        .closedBeforeWelcome else .socketClosed)
  | .error e => throw e
  | .ok (some message) => return some message
  | .ok none => do
      when (decide (w.link.reader.bytes.length < link.reader.bytes.length))
        (onSession fun s => { s with health := s.health.map fun _ => ⟨p.now, none⟩ })
      return none

def handle (now : ℕ) (message : ServerMessage) : Work Unit := fun w =>
  let (result, connection) := exec (handleMessage parse sink now message) w.connection
  (result, { w with
    connection
    log := w.log ++
      (responses (connection.emitted.drop w.connection.emitted.length)).map Act.answered })

def receive (p : Pass) : Work Unit := do
  match ← readMessage p with
  | some message => handle parse sink p.now message
  | none => pure ()

def pass (p : Pass) : Work Bool := do
  if p.stop then return true
  else do
    checkPass setup p
    match ← batch setup sink 16 p.attempts with
    | .stopped => return true
    | _ => do
        when p.ready (receive parse sink p)
        return false

def runConnection : List Pass → Worker → Except Error Bool × Worker
  | [], w => (.ok false, w)
  | p :: passes, w =>
      match exec (pass setup parse sink p) w with
      | (.ok false, w') => runConnection passes w'
      | ended => ended

end Loop

def Worker.new (started : ℕ) (surfaceActive remote : Bool) (stream : List UInt8) : Worker :=
  ⟨⟨.new started surfaceActive remote, []⟩, ⟨.new, stream⟩, none, []⟩

end Sheprd.Client
