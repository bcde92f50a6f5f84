import Mathlib.Tactic

namespace Sheprd.Protocol

inductive RenderEncoding where
  | semanticFrame
  | terminalAnsi

structure CellData where
  symbol : String
  fg : UInt32
  bg : UInt32
  modifier : UInt16
  skip : Bool
  hyperlink : Option UInt32
  deriving DecidableEq

structure CursorState where
  x : UInt16
  y : UInt16
  visible : Bool
  shape : UInt8
  deriving DecidableEq

structure FrameData where
  cells : List CellData
  width : UInt16
  height : UInt16
  cursor : Option CursorState
  hyperlinks : List String
  graphics : List UInt8
  deriving DecidableEq

inductive AgentStatus where
  | idle
  | working
  | blocked
  | done
  | unknown

structure ClientShellProductAnnouncement where
  version : String
  id : String
  title : String
  body : String
  preview : Bool

structure ClientShellReleaseNotes where
  version : String
  body : String
  preview : Bool

inductive ClientShellCommandAction where
  | shell
  | pane
  | popup
  | pluginAction
  | unknown

structure ClientShellCommand where
  commandId : String
  bindingLabel : String
  bindingLabels : List String
  action : ClientShellCommandAction
  description : Option String

structure ClientShellTabStatusSegment where
  text : String
  accent : Bool

structure ClientShellWorktree where
  key : String
  label : String
  isLinkedWorktree : Bool

structure ClientShellWorkspace where
  workspaceId : String
  activeTabId : String
  newWorkspaceCwd : String
  number : UInt64
  label : String
  customLabel : Bool
  branch : Option String
  gitAheadBehind : Option (UInt64 × UInt64)
  tokens : List (String × String)
  worktree : Option ClientShellWorktree
  focused : Bool
  agentStatus : AgentStatus

structure ClientShellTab where
  tabId : String
  workspaceId : String
  number : UInt64
  label : String
  customLabel : Bool
  zoomed : Bool
  focused : Bool
  agentStatus : AgentStatus

structure ClientShellPane where
  paneId : String
  workspaceId : String
  tabId : String
  label : Option String
  cwd : Option String
  foregroundCwd : Option String
  focused : Bool
  rightClickPassthrough : Bool

structure ClientShellAgent where
  paneId : String
  workspaceId : String
  tabId : String
  name : Option String
  displayAgent : Option String
  agent : Option String
  title : Option String
  terminalTitle : Option String
  terminalTitleStripped : Option String
  agentStatus : AgentStatus
  stateChangeSeq : UInt64
  stateLabels : List (String × String)
  tokens : List (String × String)
  focused : Bool

structure ClientShellSnapshot where
  bootId : String
  revision : UInt64
  configDiagnostic : Option String
  productAnnouncement : Option ClientShellProductAnnouncement
  updateAvailable : Option String
  updateInstallCommand : String
  serverKeybindingsToml : Option String
  latestReleaseNotesAvailable : Bool
  integrationUpdatesAvailable : Bool
  worktreeDirectory : String
  releaseNotes : Option ClientShellReleaseNotes
  focusedWorkspaceId : Option String
  focusedTabId : Option String
  focusedPaneId : Option String
  tabBarRight : List ClientShellTabStatusSegment
  tabBarRightSeparator : String
  agentViewLabel : Option String
  agentOrder : List String
  workspaces : List ClientShellWorkspace
  tabs : List ClientShellTab
  panes : List ClientShellPane
  agents : List ClientShellAgent
  commands : List ClientShellCommand

structure SurfaceRect where
  x : UInt16
  y : UInt16
  width : UInt16
  height : UInt16
  deriving DecidableEq

structure PaneSurfaceScrollMetrics where
  offsetFromBottom : UInt64
  maxOffsetFromBottom : UInt64
  viewportRows : UInt64
  deriving DecidableEq

structure PaneSurfacePane where
  paneId : String
  contentRevision : UInt64
  rect : SurfaceRect
  innerRect : SurfaceRect
  scrollbarRect : Option SurfaceRect
  scroll : Option PaneSurfaceScrollMetrics
  focused : Bool
  mouseReporting : Bool
  sgrPixelMouse : Bool
  alternateScreenActive : Bool
  pixelWidth : UInt32
  pixelHeight : UInt32
  deriving DecidableEq

inductive PaneSurfaceSplitDirection where
  | horizontal
  | vertical
  deriving DecidableEq

structure PaneSurfaceSplit where
  direction : PaneSurfaceSplitDirection
  pos : UInt16
  area : SurfaceRect
  hitRect : SurfaceRect
  path : List Bool
  deriving DecidableEq

inductive SurfaceGraphicsTarget where
  | pane (paneId : String)
  | popup (terminalId : String)
  deriving DecidableEq

inductive SurfaceGraphicsSource where
  | terminal (target : SurfaceGraphicsTarget) (imageId : UInt32)
  | paneLayer (paneId layerId : String)
  deriving DecidableEq

inductive SurfaceGraphicsFormat where
  | rgb
  | rgba
  | png
  deriving DecidableEq

structure SurfaceGraphicsAssetKey where
  source : SurfaceGraphicsSource
  imageWidth : UInt32
  imageHeight : UInt32
  format : SurfaceGraphicsFormat
  dataLen : UInt64
  dataFingerprint : UInt64
  deriving DecidableEq

structure SurfaceGraphicsAsset where
  key : SurfaceGraphicsAssetKey
  data : List UInt8
  deriving DecidableEq

structure SurfaceGraphicsPlacement where
  asset : SurfaceGraphicsAssetKey
  logicalPlacementId : UInt32
  x : UInt16
  y : UInt16
  cols : UInt32
  rows : UInt32
  sourceX : UInt32
  sourceY : UInt32
  sourceWidth : UInt32
  sourceHeight : UInt32
  xOffset : UInt32
  yOffset : UInt32
  z : Int32
  scrollbackOffset : UInt32
  deriving DecidableEq

structure SurfaceGraphicsScene where
  assets : List SurfaceGraphicsAsset
  placements : List SurfaceGraphicsPlacement
  retainedAssets : List SurfaceGraphicsAssetKey
  deriving DecidableEq

inductive ClientShellPopupSize where
  | cells (count : UInt16)
  | percent (share : UInt8)
  deriving DecidableEq

structure ClientShellPopupSurface where
  terminalId : String
  title : String
  width : Option ClientShellPopupSize
  height : Option ClientShellPopupSize
  frame : FrameData
  mouseReporting : Bool
  sgrPixelMouse : Bool
  pixelWidth : UInt32
  pixelHeight : UInt32
  deriving DecidableEq

structure PaneSurfaceFrame where
  bootId : String
  projectionRevision : UInt64
  surfaceRevision : UInt64
  frame : FrameData
  panes : List PaneSurfacePane
  splits : List PaneSurfaceSplit
  popup : Option ClientShellPopupSurface
  graphics : SurfaceGraphicsScene
  deriving DecidableEq

structure PaneSurfacePatchRow where
  x : UInt16
  y : UInt16
  cells : List CellData
  deriving DecidableEq

structure PaneSurfacePatch where
  bootId : String
  projectionRevision : UInt64
  baseSurfaceRevision : UInt64
  surfaceRevision : UInt64
  rows : List PaneSurfacePatchRow
  panes : List PaneSurfacePane
  cursor : Option CursorState

structure TerminalFrame where
  seq : UInt64
  width : UInt16
  height : UInt16
  full : Bool
  bytes : List UInt8

inductive NotifyKind where
  | sound
  | toast
  | systemToast

inductive SemanticNotificationKind where
  | needsAttention
  | finished
  | updateInstalled
  | custom

inductive SemanticNotificationSound where
  | done
  | request

inductive ToastHerdrPosition where
  | topLeft
  | topRight
  | bottomLeft
  | bottomRight

structure SemanticNotification where
  kind : SemanticNotificationKind
  title : String
  body : Option String
  sound : Option SemanticNotificationSound
  agent : Option String
  workspaceId : Option String
  tabId : Option String
  paneId : Option String
  position : Option ToastHerdrPosition

inductive ServerMessage where
  | welcome (version : UInt32) (encoding : RenderEncoding) (error : Option String)
  | terminal (frame : TerminalFrame)
  | graphics (bytes : List UInt8)
  | serverShutdown (reason : Option String)
  | notify (kind : NotifyKind) (message : String) (body : Option String)
  | clipboard (data : String)
  | windowTitle (title : Option String)
  | reloadSoundConfig
  | mouseCapture (enabled sgrPixels : Bool)
  | terminalBell (count : UInt16)
  | graphicsFile (path : String) (expectedLen : UInt64) (imageId : UInt32) (transferId : UInt64)
      (leading : List UInt8) (control : String) (surfaceAsset : Option SurfaceGraphicsAssetKey)
  | graphicsTransmissionRetired (transferId : UInt64) (imageId : UInt32)
  | clientShellSnapshot (snapshot : ClientShellSnapshot)
  | paneSurface (surface : PaneSurfaceFrame)
  | semanticNotification (notification : SemanticNotification)
  | clientShellError (message : String)
  | directTerminalKeyboardProtocol (flags : UInt16) (modifyOtherKeysLevel : UInt8)
  | clientShellKeyboardReportAll (enabled : Bool)
  | clientShellEndpointResponseChunk (bootId requestId : String) (finalChunk : Bool)
      (data : List UInt8)
  | paneSurfacePatch (patch : PaneSurfacePatch)
  | endpointControl (kind data : String)

inductive Error where
  | io
  | encode
  | decode
  | frameLimit
  | emptyFrame
  | trailingBytes
  | cellCount
  | hyperlinkIndex
  | cursorBounds
  | patchIdentity
  | patchRowBounds
  | patchGeometry
  | patchCursorBounds
  | encodingLimit
  | encodingPayload
  | encodingJson
  | scrollCount
  | scrollTruncated
  | scrollPayload
  | scrollBounds
  | surfaceBaseline
  | deltaGridLimit
  | deltaMetadataCells
  | deltaSpan
  | deltaPopup
  deriving DecidableEq

def checkedSucc (n : UInt64) : Option UInt64 :=
  if n.toNat + 1 < 2 ^ 64 then some (n + 1) else none

lemma checkedSucc_eq_some {n m : UInt64} (h : checkedSucc n = some m) : m.toNat = n.toNat + 1 := by
  rw [checkedSucc] at h
  split at h
  · obtain rfl := Option.some.inj h
    rw [UInt64.toNat_add]
    simp only [UInt64.toNat_one]
    omega
  · exact absurd h (by simp)

end Sheprd.Protocol
