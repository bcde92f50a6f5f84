import Sheprd.Lib.Bincode
import Sheprd.Protocol.Wire

namespace Sheprd.Protocol

open Sheprd.Lib.Bincode

def maxFrameSize : ℕ := 2 * 1024 * 1024
def maxGraphicsFrameSize : ℕ := 32 * 1024 * 1024

namespace Decode

def renderEncoding : Decoder RenderEncoding := do
  match (← u32).toNat with
  | 0 => return .semanticFrame
  | 1 => return .terminalAnsi
  | _ => failure

def cellData : Decoder CellData := do
  return ⟨← string, ← u32, ← u32, ← u16, ← bool, ← option u32⟩

def cursorState : Decoder CursorState := do
  return ⟨← u16, ← u16, ← bool, ← u8⟩

def frameData : Decoder FrameData := do
  return ⟨← vec cellData, ← u16, ← u16, ← option cursorState, ← vec string, ← vec u8⟩

def agentStatus : Decoder AgentStatus := do
  match (← u32).toNat with
  | 0 => return .idle
  | 1 => return .working
  | 2 => return .blocked
  | 3 => return .done
  | 4 => return .unknown
  | _ => failure

def productAnnouncement : Decoder ClientShellProductAnnouncement := do
  return ⟨← string, ← string, ← string, ← string, ← bool⟩

def releaseNotes : Decoder ClientShellReleaseNotes := do
  return ⟨← string, ← string, ← bool⟩

def commandAction : Decoder ClientShellCommandAction := do
  match (← u32).toNat with
  | 0 => return .shell
  | 1 => return .pane
  | 2 => return .popup
  | 3 => return .pluginAction
  | _ => return .unknown

def command : Decoder ClientShellCommand := do
  return ⟨← string, ← string, ← vec string, ← commandAction, ← option string⟩

def tabStatusSegment : Decoder ClientShellTabStatusSegment := do
  return ⟨← string, ← bool⟩

def worktree : Decoder ClientShellWorktree := do
  return ⟨← string, ← string, ← bool⟩

def workspace : Decoder ClientShellWorkspace := do
  return ⟨← string, ← string, ← string, ← u64, ← string, ← bool, ← option string,
    ← option (pair u64 u64), ← vec (pair string string), ← option worktree, ← bool, ← agentStatus⟩

def tab : Decoder ClientShellTab := do
  return ⟨← string, ← string, ← u64, ← string, ← bool, ← bool, ← bool, ← agentStatus⟩

def pane : Decoder ClientShellPane := do
  return ⟨← string, ← string, ← string, ← option string, ← option string, ← option string, ← bool,
    ← bool⟩

def agent : Decoder ClientShellAgent := do
  return ⟨← string, ← string, ← string, ← option string, ← option string, ← option string,
    ← option string, ← option string, ← option string, ← agentStatus, ← u64,
    ← vec (pair string string), ← vec (pair string string), ← bool⟩

def snapshot : Decoder ClientShellSnapshot := do
  return ⟨← string, ← u64, ← option string, ← option productAnnouncement, ← option string, ← string,
    ← option string, ← bool, ← bool, ← string, ← option releaseNotes, ← option string,
    ← option string, ← option string, ← vec tabStatusSegment, ← string, ← option string,
    ← vec string, ← vec workspace, ← vec tab, ← vec pane, ← vec agent, ← vec command⟩

def surfaceRect : Decoder SurfaceRect := do
  return ⟨← u16, ← u16, ← u16, ← u16⟩

def scrollMetrics : Decoder PaneSurfaceScrollMetrics := do
  return ⟨← u64, ← u64, ← u64⟩

def surfacePane : Decoder PaneSurfacePane := do
  return ⟨← string, ← u64, ← surfaceRect, ← surfaceRect, ← option surfaceRect,
    ← option scrollMetrics, ← bool, ← bool, ← bool, ← bool, ← u32, ← u32⟩

def splitDirection : Decoder PaneSurfaceSplitDirection := do
  match (← u32).toNat with
  | 0 => return .horizontal
  | 1 => return .vertical
  | _ => failure

def surfaceSplit : Decoder PaneSurfaceSplit := do
  return ⟨← splitDirection, ← u16, ← surfaceRect, ← surfaceRect, ← vec bool⟩

def graphicsTarget : Decoder SurfaceGraphicsTarget := do
  match (← u32).toNat with
  | 0 => return .pane (← string)
  | 1 => return .popup (← string)
  | _ => failure

def graphicsSource : Decoder SurfaceGraphicsSource := do
  match (← u32).toNat with
  | 0 => return .terminal (← graphicsTarget) (← u32)
  | 1 => return .paneLayer (← string) (← string)
  | _ => failure

def graphicsFormat : Decoder SurfaceGraphicsFormat := do
  match (← u32).toNat with
  | 0 => return .rgb
  | 1 => return .rgba
  | 2 => return .png
  | _ => failure

def assetKey : Decoder SurfaceGraphicsAssetKey := do
  return ⟨← graphicsSource, ← u32, ← u32, ← graphicsFormat, ← u64, ← u64⟩

def asset : Decoder SurfaceGraphicsAsset := do
  return ⟨← assetKey, ← vec u8⟩

def placement : Decoder SurfaceGraphicsPlacement := do
  return ⟨← assetKey, ← u32, ← u16, ← u16, ← u32, ← u32, ← u32, ← u32, ← u32, ← u32, ← u32, ← u32,
    ← i32, ← u32⟩

def scene : Decoder SurfaceGraphicsScene := do
  return ⟨← vec asset, ← vec placement, ← vec assetKey⟩

def popupSize : Decoder ClientShellPopupSize := do
  match (← u32).toNat with
  | 0 => return .cells (← u16)
  | 1 => return .percent (← u8)
  | _ => failure

def popupSurface : Decoder ClientShellPopupSurface := do
  return ⟨← string, ← string, ← option popupSize, ← option popupSize, ← frameData, ← bool, ← bool,
    ← u32, ← u32⟩

def paneSurfaceFrame : Decoder PaneSurfaceFrame := do
  return ⟨← string, ← u64, ← u64, ← frameData, ← vec surfacePane, ← vec surfaceSplit,
    ← option popupSurface, ← scene⟩

def patchRow : Decoder PaneSurfacePatchRow := do
  return ⟨← u16, ← u16, ← vec cellData⟩

def paneSurfacePatch : Decoder PaneSurfacePatch := do
  return ⟨← string, ← u64, ← u64, ← u64, ← vec patchRow, ← vec surfacePane, ← option cursorState⟩

def terminalFrame : Decoder TerminalFrame := do
  return ⟨← u64, ← u16, ← u16, ← bool, ← vec u8⟩

def notifyKind : Decoder NotifyKind := do
  match (← u32).toNat with
  | 0 => return .sound
  | 1 => return .toast
  | 2 => return .systemToast
  | _ => failure

def notificationKind : Decoder SemanticNotificationKind := do
  match (← u32).toNat with
  | 0 => return .needsAttention
  | 1 => return .finished
  | 2 => return .updateInstalled
  | 3 => return .custom
  | _ => failure

def notificationSound : Decoder SemanticNotificationSound := do
  match (← u32).toNat with
  | 0 => return .done
  | 1 => return .request
  | _ => failure

def toastPosition : Decoder ToastHerdrPosition := do
  match (← u32).toNat with
  | 0 => return .topLeft
  | 1 => return .topRight
  | 2 => return .bottomLeft
  | 3 => return .bottomRight
  | _ => failure

def semanticNotification : Decoder SemanticNotification := do
  return ⟨← notificationKind, ← string, ← option string, ← option notificationSound,
    ← option string, ← option string, ← option string, ← option string, ← option toastPosition⟩

def serverBody (tag : ℕ) : Decoder ServerMessage :=
  match tag with
  | 0 => return .welcome (← u32) (← renderEncoding) (← option string)
  | 1 => return .terminal (← terminalFrame)
  | 2 => return .graphics (← vec u8)
  | 3 => return .serverShutdown (← option string)
  | 4 => return .notify (← notifyKind) (← string) (← option string)
  | 5 => return .clipboard (← string)
  | 6 => return .windowTitle (← option string)
  | 7 => return .reloadSoundConfig
  | 8 => return .mouseCapture (← bool) (← bool)
  | 9 => return .terminalBell (← u16)
  | 10 => do
      return .graphicsFile (← string) (← u64) (← u32) (← u64) (← vec u8) (← string)
        (← option assetKey)
  | 11 => return .graphicsTransmissionRetired (← u64) (← u32)
  | 12 => return .clientShellSnapshot (← snapshot)
  | 13 => return .paneSurface (← paneSurfaceFrame)
  | 14 => return .semanticNotification (← semanticNotification)
  | 15 => return .clientShellError (← string)
  | 16 => return .directTerminalKeyboardProtocol (← u16) (← u8)
  | 17 => return .clientShellKeyboardReportAll (← bool)
  | 18 => return .clientShellEndpointResponseChunk (← string) (← string) (← bool) (← vec u8)
  | 19 => return .paneSurfacePatch (← paneSurfacePatch)
  | 20 => return .endpointControl (← string) (← string)
  | _ => failure

def serverMessage : Decoder ServerMessage := do
  serverBody (← u32).toNat

end Decode

def decodePayload {α : Type} (d : Decoder α) (payload : List UInt8) : Except Error α :=
  if payload.isEmpty || decide (maxGraphicsFrameSize < payload.length) then .error .frameLimit
  else
    match d ⟨payload, 0, maxGraphicsFrameSize⟩ with
    | none => .error .decode
    | some (message, rest) =>
        if rest.input.isEmpty then .ok message else .error .trailingBytes

def readMessage {α : Type} (d : Decoder α) (limit : ℕ) (input : List UInt8) :
    Except Error (α × List UInt8) :=
  if input.length < 4 then .error .io
  else
    let len := littleEndian (input.take 4)
    if len = 0 ∨ min limit maxGraphicsFrameSize < len then .error .frameLimit
    else if (input.drop 4).length < len then .error .io
    else do
      let message ← decodePayload d ((input.drop 4).take len)
      return (message, (input.drop 4).drop len)

end Sheprd.Protocol
