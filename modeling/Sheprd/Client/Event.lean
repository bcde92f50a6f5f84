import Sheprd.Client.SurfaceImages
import Sheprd.Lib.Json
import Sheprd.Protocol.SurfaceEncodings

namespace Sheprd.Client

open Sheprd.Lib Sheprd.Protocol

inductive Method where
  | clientShellSurfaceSet
  | commandInvoke
  | integrationInstall
  | integrationInstallV2
  | integrationList
  | integrationListV2
  | layoutSetSplitRatio
  | paneClear
  | paneClose
  | paneCopyMotion
  | paneCopySearch
  | paneEditScrollback
  | paneFocus
  | paneFocusDirection
  | paneInputSet
  | paneLinkActivate
  | paneLinkResolve
  | paneRename
  | paneResize
  | paneScroll
  | paneSelectionRead
  | paneSplit
  | paneSwap
  | paneZoom
  | productAnnouncementDismiss
  | releaseNotesDismiss
  | serverReloadConfig
  | tabClose
  | tabCreate
  | tabFocus
  | tabMove
  | tabRename
  | workspaceClose
  | workspaceCreate
  | workspaceFocus
  | workspaceMove
  | workspaceMoveBlock
  | workspaceRename
  | worktreeCreate
  | worktreeList
  | worktreeOpen
  | worktreeRemove
  deriving DecidableEq

namespace Method

def asStr : Method → String
  | .clientShellSurfaceSet => "client_shell.surface.set"
  | .commandInvoke => "command.invoke"
  | .integrationInstall => "integration.install"
  | .integrationInstallV2 => "integration.install.v2"
  | .integrationList => "integration.list"
  | .integrationListV2 => "integration.list.v2"
  | .layoutSetSplitRatio => "layout.set_split_ratio"
  | .paneClear => "pane.clear"
  | .paneClose => "pane.close"
  | .paneCopyMotion => "pane.copy_motion"
  | .paneCopySearch => "pane.copy_search"
  | .paneEditScrollback => "pane.edit_scrollback"
  | .paneFocus => "pane.focus"
  | .paneFocusDirection => "pane.focus_direction"
  | .paneInputSet => "pane.input.set"
  | .paneLinkActivate => "pane.link.activate"
  | .paneLinkResolve => "pane.link.resolve"
  | .paneRename => "pane.rename"
  | .paneResize => "pane.resize"
  | .paneScroll => "pane.scroll"
  | .paneSelectionRead => "pane.selection.read"
  | .paneSplit => "pane.split"
  | .paneSwap => "pane.swap"
  | .paneZoom => "pane.zoom"
  | .productAnnouncementDismiss => "product_announcement.dismiss"
  | .releaseNotesDismiss => "release_notes.dismiss"
  | .serverReloadConfig => "server.reload_config"
  | .tabClose => "tab.close"
  | .tabCreate => "tab.create"
  | .tabFocus => "tab.focus"
  | .tabMove => "tab.move"
  | .tabRename => "tab.rename"
  | .workspaceClose => "workspace.close"
  | .workspaceCreate => "workspace.create"
  | .workspaceFocus => "workspace.focus"
  | .workspaceMove => "workspace.move"
  | .workspaceMoveBlock => "workspace.move_block"
  | .workspaceRename => "workspace.rename"
  | .worktreeCreate => "worktree.create"
  | .worktreeList => "worktree.list"
  | .worktreeOpen => "worktree.open"
  | .worktreeRemove => "worktree.remove"

def advertisedIn (method : Method) (methods : List String) : Bool :=
  methods.any fun name => decide (name = method.asStr)

end Method

structure EndpointHandshakeError where
  code : String
  message : String

structure EndpointServerWelcome where
  generation : UInt32
  serverVersion : String
  snapshotCodec : String
  surfaceCodec : String
  inputCodec : String
  blobCodec : String
  methods : List String
  capabilities : List String
  error : Option EndpointHandshakeError

inductive ClipboardError where
  | writeTimeout
  | cancelled
  | preparationTimeout

inductive Error where
  | panicked
  | io
  | protocol (error : Protocol.Error)
  | json
  | clipboard (error : ClipboardError)
  | inputWriteTimeout
  | commandBoot
  | unsupportedMethod
  | unsupportedSurfaceInterest
  | cancelled
  | eventReceiverDropped
  | socketClosed
  | partialFrameTimeout
  | frameLength
  | healthTimeout
  | handshakeTimeout
  | requestTimeout
  | expectedWelcome
  | legacyDaemon
  | closedBeforeWelcome
  | endpointGeneration (generation : UInt32) (serverVersion : String)
  | welcomeKind
  | welcomeRejected (code message : String)
  | incompatibleCodecs
  | missingSurfaceInterest (serverVersion : String)
  | missingHealthCheck (serverVersion : String)
  | snapshotIdentity
  | surfaceBeforeSnapshot
  | surfaceIdentity
  | patchBeforeBaseline
  | encodedSurfaceBeforeBaseline
  | surfaceEncodingNotNegotiated
  | responseBoot
  | responseLimit
  | unsolicitedResponse
  | responseId
  | serverShutdown (reason : String)

inductive ClientEvent where
  | connected (welcome : EndpointServerWelcome)
  | snapshot (snapshot : ClientShellSnapshot)
  | surface (surface : PaneSurfaceFrame)
  | surfaceImages (images : SurfaceImages)
  | response (requestId : String) (response : Value)
  | commandRejected (requestId : Option String) (reason : Error)
  | message (message : ServerMessage)

end Sheprd.Client
