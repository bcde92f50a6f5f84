import Sheprd.Client.Event
import Sheprd.Lib.Exec

namespace Sheprd.Client

open Sheprd.Lib Sheprd.Lib.Exec Sheprd.Protocol

def endpointProtocolGeneration : UInt32 := 1
def endpointWelcomeKind : String := "endpoint.welcome.v1"
def snapshotCodecV1 : String := "shell.snapshot.v1"
def endpointSnapshotKind : String := snapshotCodecV1
def surfaceCodecV1 : String := "shell.surface.v1"
def inputCodecV1 : String := "shell.input.semantic.v1"
def blobCodecV1 : String := "shell.blob.v1"
def surfaceScrollKind : String := "endpoint.surface-scroll.v1"
def surfaceDeltaKind : String := "endpoint.surface-delta.v1"
def surfaceReuseKind : String := "endpoint.surface-reuse.v1"
def maxResponseBytes : ℕ := 8 * 1024 * 1024

structure Parsers where
  base64 : String → Option (List UInt8)
  welcome : String → Option EndpointServerWelcome
  snapshot : String → Option ClientShellSnapshot
  reuse : String → Option SurfaceReuse
  value : List UInt8 → Option Value

structure SurfaceEncodings where
  reuse : Bool
  delta : Bool
  scroll : Bool

structure Pending where
  id : String
  method : Method
  bytes : List UInt8
  started : ℕ

structure Barrier where
  pending : Pending
  request : List UInt8
  held : Option Value
  refused : Bool

structure Health where
  received : ℕ
  ping : Option (ℕ × ℕ)

structure Session where
  started : ℕ
  surfaceActive : Bool
  remote : Bool
  health : Option Health
  welcome : Option EndpointServerWelcome
  encodings : SurfaceEncodings
  snapshot : Option ClientShellSnapshot
  surface : Option PaneSurfaceFrame
  images : ImageStore
  pending : Option Pending
  barrier : Option Barrier
  pipelineBarriers : Bool

def Session.new (started : ℕ) (surfaceActive remote : Bool) : Session where
  started := started
  surfaceActive := surfaceActive
  remote := remote
  health := none
  welcome := none
  encodings := ⟨false, false, false⟩
  snapshot := none
  surface := none
  images := .empty
  pending := none
  barrier := none
  pipelineBarriers := false

structure Emission where
  held : Option ClientShellSnapshot
  event : ClientEvent

structure Connection where
  session : Session
  emitted : List Emission

abbrev Handling := Exec Error Connection

def advertises (welcome : EndpointServerWelcome) (capability : String) : Bool :=
  welcome.capabilities.any fun c => decide (c = capability)

def supportsSurfaceInterest (welcome : EndpointServerWelcome) : Bool :=
  ["surface_interest", "presentation_effects_fence"].all (advertises welcome) &&
    Method.clientShellSurfaceSet.advertisedIn welcome.methods

def surfaceEncodings (welcome : EndpointServerWelcome) : SurfaceEncodings :=
  ⟨advertises welcome "surface_reuse", advertises welcome "surface_delta",
    advertises welcome "surface_scroll"⟩

def verifiedOrdering (serverVersion : String) : Bool :=
  decide (serverVersion ∈ ["0.9.0", "0.9.1", "0.9.2", "0.9.3", "0.9.4", "0.9.5"])

def endpointBusy (response : Value) : Bool :=
  match (response.get "error").bind fun error => error.get "code" with
  | some (.string code) => decide (code = "endpoint_busy")
  | _ => false

def Barrier.awaits (b : Barrier) (requestId : String) : Bool :=
  decide (b.pending.id = requestId) && b.held.isNone && !b.refused

def Session.responseBytes (s : Session) : ℕ :=
  (s.pending.elim 0 fun p => p.bytes.length) + s.barrier.elim 0 fun b => b.pending.bytes.length

def update (f : Session → Session) : Handling Unit :=
  modify fun c => { c with session := f c.session }

section Handlers

variable (parse : Parsers) (sink : List Emission → ClientEvent → Option Error) (now : ℕ)

def emit (event : ClientEvent) : Handling Unit := do
  let c ← get
  match sink c.emitted event with
  | some error => throw error
  | none => set { c with emitted := c.emitted ++ [Emission.mk c.session.snapshot event] }

def acceptWelcome (w : EndpointServerWelcome) : Handling Unit := do
  refuse (w.generation ≠ endpointProtocolGeneration)
    (.endpointGeneration w.generation w.serverVersion)
  match w.error with
  | some error => throw (.welcomeRejected error.code error.message)
  | none => do
      refuse (w.snapshotCodec ≠ snapshotCodecV1 ∨ w.surfaceCodec ≠ surfaceCodecV1 ∨
        w.inputCodec ≠ inputCodecV1 ∨ w.blobCodec ≠ blobCodecV1) .incompatibleCodecs
      let c ← get
      refuse ((c.session.remote || !c.session.surfaceActive) && !supportsSurfaceInterest w)
        (.missingSurfaceInterest w.serverVersion)
      refuse (c.session.remote && !advertises w "health_check")
        (.missingHealthCheck w.serverVersion)
      update fun s => { s with
        health := if s.remote then some ⟨now, none⟩ else s.health
        encodings := surfaceEncodings w }
      emit sink (.connected w)
      update fun s => { s with
        pipelineBarriers := verifiedOrdering w.serverVersion
        welcome := some w }

def handshake (message : ServerMessage) : Handling Unit :=
  match message with
  | .endpointControl kind data => do
      refuse (kind ≠ endpointWelcomeKind) .welcomeKind
      let w ← require (parse.welcome data) .json
      acceptWelcome sink now w
  | .welcome _ _ _ => throw .legacyDaemon
  | _ => throw .expectedWelcome

def emitShown (current : PaneSurfaceFrame) : Handling Unit := do
  let c ← get
  let shown := c.session.images.showLatest
  update fun s => { s with images := shown.2 }
  when shown.1 (emit sink (.surfaceImages shown.2.images))
  emit sink (.surface current)

def acceptSnapshot (next : ClientShellSnapshot) : Handling Unit := do
  let c ← get
  refuse (next.bootId = "" ∨ c.session.snapshot.any (fun s =>
    decide (s.bootId ≠ next.bootId) || decide (next.revision < s.revision))) .snapshotIdentity
  update fun s => { s with snapshot := some next }
  emit sink (.snapshot next)
  when (c.session.snapshot.all fun s => decide (s.revision ≠ next.revision)) <|
    match c.session.surface.filter fun s => decide (s.projectionRevision = next.revision) with
    | some current => emitShown sink current
    | none => pure ()

def surfaceOutdated (next : PaneSurfaceFrame) (snapshot : ClientShellSnapshot)
    (surface : Option PaneSurfaceFrame) : Bool :=
  decide (next.bootId ≠ snapshot.bootId) ||
    surface.any fun old => decide (next.surfaceRevision ≤ old.surfaceRevision)

def acceptImages (store : ImageStore) (surface : PaneSurfaceFrame) (shown : Bool) :
    Bool × ImageStore :=
  let received := store.receive surface
  if shown then
    (received.1 || received.2.1.showLatest.1, received.2.1.showLatest.2)
  else (received.1, received.2.1)

def acceptSurface (surface : PaneSurfaceFrame) : Handling Unit := do
  let c ← get
  let s ← require c.session.snapshot .surfaceBeforeSnapshot
  refuse (surfaceOutdated surface s c.session.surface) .surfaceIdentity
  lift .protocol surface.frame.validate
  lift .protocol (surface.popup.elim (.ok ()) fun popup => popup.frame.validate)
  let next := (c.session.images.receive surface).2.2
  let shown := decide (next.projectionRevision = s.revision)
  let accepted := acceptImages c.session.images surface shown
  update fun s => { s with images := accepted.2 }
  when accepted.1 (emit sink (.surfaceImages accepted.2.images))
  when shown (emit sink (.surface next))
  update fun s => { s with surface := some next }

def emitPatched (current : PaneSurfaceFrame) : Handling Unit := do
  let c ← get
  when (c.session.snapshot.any fun s => decide (s.revision = current.projectionRevision))
    (emitShown sink current)

def patchSurface (apply : PaneSurfaceFrame → Option (Except Protocol.Error Unit × PaneSurfaceFrame)) :
    Handling Unit := do
  let c ← get
  let current ← require c.session.surface .patchBeforeBaseline
  let (result, patched) ← require (apply current) .panicked
  update fun s => { s with surface := some patched }
  lift .protocol result
  emitPatched sink patched

def acceptScroll (data : String) : Handling Unit := do
  let c ← get
  refuse (c.session.encodings.scroll = false) .surfaceEncodingNotNegotiated
  let scroll ← lift .protocol (decodeScroll parse.base64 data)
  patchSurface sink fun current => current.applyScrollPatch scroll

def acceptDelta (data : String) : Handling Unit := do
  let c ← get
  refuse (c.session.encodings.delta = false) .surfaceEncodingNotNegotiated
  let delta ← lift .protocol (decodeDelta parse.base64 data)
  let base ← require c.session.surface .encodedSurfaceBeforeBaseline
  let next ← require (delta.reconstruct base) .panicked
  let next ← lift .protocol next
  acceptSurface sink next

def acceptReuse (data : String) : Handling Unit := do
  let c ← get
  refuse (c.session.encodings.reuse = false) .surfaceEncodingNotNegotiated
  let reuse ← lift .protocol (decodeReuse parse.reuse data)
  let base ← require c.session.surface .encodedSurfaceBeforeBaseline
  let next ← lift .protocol (reuse.reconstruct base)
  acceptSurface sink next

def settleBarrier (b : Barrier) (bytes : List UInt8) (response : Value) : Handling Bool := do
  if endpointBusy response then do
    update fun s => { s with pipelineBarriers := false, barrier := some { b with refused := true } }
    return false
  else do
    let c ← get
    if c.session.pending.isSome then do
      update fun s => { s with
        barrier := some { b with pending := { b.pending with bytes }, held := some response } }
      return false
    else do
      update fun s => { s with barrier := none }
      return true

def deliverResponse (requestId : String) (response : Value) : Handling Unit := do
  emit sink (.response requestId response)
  let c ← get
  when c.session.pending.isNone <|
    match c.session.barrier with
    | some b =>
        match b.held with
        | some held => do
            update fun s => { s with barrier := none }
            emit sink (.response b.pending.id held)
        | none => pure ()
    | none => pure ()

def readResponse (requestId : String) (bytes : List UInt8) : Handling Value := do
  let response ← require (parse.value bytes) .json
  refuse ((response.get "id").bind Value.asStr ≠ some requestId) .responseId
  return response

def receiveForBarrier (b : Barrier) (requestId : String) (finalChunk : Bool)
    (data : List UInt8) : Handling Unit := do
  let bytes := b.pending.bytes ++ data
  update fun s => { s with barrier := some { b with pending := { b.pending with bytes } } }
  when finalChunk do
    let taken := { b with pending := { b.pending with bytes := [] } }
    update fun s => { s with barrier := some taken }
    let response ← readResponse parse requestId bytes
    let ready ← settleBarrier taken bytes response
    when ready (deliverResponse sink requestId response)

def receiveForPending (p : Pending) (requestId : String) (finalChunk : Bool)
    (data : List UInt8) : Handling Unit := do
  let bytes := p.bytes ++ data
  update fun s => { s with pending := some { p with bytes } }
  when finalChunk do
    update fun s => { s with pending := none }
    let response ← readResponse parse requestId bytes
    deliverResponse sink requestId response

def receiveChunk (bootId requestId : String) (finalChunk : Bool) (data : List UInt8) :
    Handling Unit := do
  let c ← get
  refuse (c.session.snapshot.all fun s => decide (s.bootId ≠ bootId)) .responseBoot
  refuse (maxResponseBytes - c.session.responseBytes < data.length) .responseLimit
  match c.session.barrier.filter fun b => b.awaits requestId with
  | some b => receiveForBarrier parse sink b requestId finalChunk data
  | none =>
      match c.session.pending.filter fun p => decide (p.id = requestId) with
      | some p => receiveForPending parse sink p requestId finalChunk data
      | none => throw .unsolicitedResponse

def handleControl (kind data : String) : Handling Unit :=
  if kind = endpointSnapshotKind then do
    let next ← require (parse.snapshot data) .json
    acceptSnapshot sink next
  else if kind = surfaceScrollKind then acceptScroll parse sink data
  else if kind = surfaceDeltaKind then acceptDelta parse sink data
  else if kind = surfaceReuseKind then acceptReuse parse sink data
  else pure ()

def handleWelcomed (message : ServerMessage) : Handling Unit :=
  match message with
  | .endpointControl kind data => handleControl parse sink kind data
  | .paneSurface next => acceptSurface sink next
  | .paneSurfacePatch patch => patchSurface sink fun current => current.applyPatch patch
  | .clientShellEndpointResponseChunk bootId requestId finalChunk data =>
      receiveChunk parse sink bootId requestId finalChunk data
  | .serverShutdown reason => throw (.serverShutdown (reason.getD "server shutdown"))
  | other => emit sink (.message other)

def handleMessage (message : ServerMessage) : Handling Unit := do
  update fun s => { s with health := s.health.map fun _ => ⟨now, none⟩ }
  let c ← get
  if c.session.welcome.isNone then handshake parse sink now message
  else handleWelcomed parse sink message

def handleMessages : List (ℕ × ServerMessage) → Connection → Except Error Unit × Connection
  | [], c => (.ok (), c)
  | (now, message) :: messages, c =>
      match exec (handleMessage parse sink now message) c with
      | (.ok (), c') => handleMessages messages c'
      | (.error e, c') => (.error e, c')

end Handlers

end Sheprd.Client
