import Sheprd.Protocol.ScrollCorrect
import Sheprd.Protocol.Codec
import Sheprd.Protocol.SurfacePrefix
import Sheprd.Client.WorkerLaws
import Sheprd.Client.ImageRetention
import Sheprd.Client.Projection
import Sheprd.Chat.WellFormed
import Sheprd.Automation.PlanCanonical
import Sheprd.Acp.Handlers
import Sheprd.Acp.Refines
import Sheprd.Acp.Replica
import Sheprd.Acp.Bookkeeping
import Sheprd.Acp.Prompts
import Sheprd.Acp.Downgrade
import Sheprd.Terminal.Conservation
import Sheprd.Automation.TokensAgree
import Sheprd.Automation.CronRead
import Sheprd.Automate.Switch
import Sheprd.Automate.Slots
import Sheprd.Automate.Firings
import Sheprd.Automate.UsageKept
import Sheprd.FanOut.Aligned
import Sheprd.FanOut.Rewinds
import Sheprd.FanOut.Saved
import Sheprd.Core.Stream
import Sheprd.Core.Backend
import Sheprd.Core.Watching
import Sheprd.Core.Connection
import Sheprd.Auth.Approvals
import Sheprd.Auth.Owed
import Sheprd.Hub.View
import Sheprd.Auth.Devices
import Sheprd.Session.PaneEdits
import Sheprd.Core.Lines
import Sheprd.Protocol.DeltaCorrect
import Sheprd.Updater.ApplyCorrect
import Sheprd.Browser.Edits
import Sheprd.Updater.ArchiveSafe
import Sheprd.Updater.Offers
import Sheprd.Vcs.CheckpointsReached
import Sheprd.Orchestrator.Reached
import Sheprd.Automation.DueLatest
import Sheprd.Protocol.ScrollEncoding
import Sheprd.Acp.LogBounds
import Sheprd.Acp.Streamed
import Sheprd.Acp.Cards
import Sheprd.Chat.RestoreListed
import Sheprd.Auth.Limits
import Sheprd.Relay.Refills
import Sheprd.Push.Throttle
import Sheprd.Hub.SessionsRouted
import Sheprd.Ansi.Drawn
import Sheprd.Desktop.StateFile
import Sheprd.Desktop.PaneHistory
import Sheprd.Desktop.ProcessesListed
import Sheprd.Desktop.TextEditing
import Sheprd.Terminal.Selected
import Sheprd.Mirror.Ids
import Sheprd.Desktop.MutesKept
import Sheprd.Updater.GroupedNotes
import Sheprd.Terminal.CopyOrder
import Sheprd.Client.Uploaded
import Sheprd.Orchestrator.Keys
import Sheprd.Automation.Durations
import Sheprd.Review.SideBySide
import Sheprd.Review.Listing
import Sheprd.Review.Words
import Sheprd.Review.Anchors
import Sheprd.Review.ViewedKept
import Sheprd.Review.NamesKept
import Sheprd.Review.FileTreeRows
import Sheprd.Review.ContextRuns
import Sheprd.Session.PanesReopened
import Sheprd.Acp.Composer
