import Gcit.Library.Transition
import Gcit.Library.Channel
import Gcit.Library.OrderedMap
import Gcit.Library.Trace
import Gcit.Library.Lines
import Gcit.Library.Document
import Gcit.Library.Commits
import Gcit.Git.ObjectId
import Gcit.State.Apply
import Gcit.State.History
import Gcit.State.Runs
import Gcit.State.Writer
import Gcit.State.Load
import Gcit.State.WriterTracks
import Gcit.State.WriterRefinement
import Gcit.Git.Strategy
import Gcit.Poll.Executor
import Gcit.Poll.Fingerprint
import Gcit.Poll.Loop
import Gcit.Poll.Cooldown
import Gcit.Poll.Driver
import Gcit.Poll.TriggerOrder
import Gcit.Poll.Spacing
import Gcit.Flow.TriggerPath
import Gcit.Flow.NoLostTrigger
import Gcit.Flow.LastErrors
import Gcit.Mail.Mbox
import Gcit.Library.Json
import Gcit.Library.JsonText
import Gcit.Config.Types
import Gcit.Supervisor.Diff
import Gcit.Supervisor.Registry
import Gcit.Supervisor.Reload
import Gcit.Supervisor.Respawn
import Gcit.Supervisor.Daemon
import Gcit.Supervisor.PollTask
import Gcit.Supervisor.Change
import Gcit.Supervisor.Plan
import Gcit.Supervisor.Tokens
import Gcit.Supervisor.Generations
import Gcit.Supervisor.PendingExits
import Gcit.Supervisor.Drain
import Gcit.Supervisor.Stream
import Gcit.Supervisor.Seeds
import Gcit.Supervisor.Sources
import Gcit.Supervisor.Backoff
import Gcit.Supervisor.Effective
import Gcit.Library.Tape
import Gcit.Github.Error
import Gcit.Github.Dispatcher
import Gcit.Github.Correlator
import Gcit.Github.RateLimit
import Gcit.Github.RateLimitGate
import Gcit.Github.Classification
import Gcit.Github.QuotaGate
import Gcit.Github.Markers
import Gcit.Github.Scans
import Gcit.Github.CorrelatorClock
import Gcit.Github.Monitor
import Gcit.Flow.HandleTrigger
import Gcit.Flow.Retries
import Gcit.Flow.RetryBudget
import Gcit.Flow.OwnRun
import Gcit.Flow.Monitor
import Gcit.Supervisor.Refire
import Gcit.Supervisor.ActiveRuns
import Gcit.Supervisor.Credentials
import Gcit.Supervisor.Sharing
import Gcit.Supervisor.ReloadReply
import Gcit.Supervisor.TriggerCommand
import Gcit.Control.Status
import Gcit.Control.Server
import Gcit.Library.Validation
import Gcit.Library.Handlebars
import Gcit.Config.CredentialId
import Gcit.Config.Raw
import Gcit.Config.Cadence
import Gcit.Config.Template
import Gcit.Config.Destination
import Gcit.Config.Flow
import Gcit.Config.Validate
import Gcit.Notify.RenderContext
import Gcit.Notify.Rendering
import Gcit.Flow.FanOut
import Gcit.Cli.Manifest
import Gcit.Cli.Install
import Gcit.Cli.Uninstall
import Gcit.Cli.StaticUser
import Gcit.Github.ExhaustedWindow
import Gcit.Util.AtomicWrite
import Gcit.Git.RateBucket
import Gcit.Supervisor.Partition
import Gcit.Cli.Check
import Gcit.Library.Pages
import Gcit.Github.Pagination
import Gcit.Notify.EmbedLimits
import Gcit.Supervisor.Listing
import Gcit.Library.Uri
import Gcit.Github.RequestUris
import Gcit.Library.Paths
import Gcit.Cli.Confinement
import Gcit.Cli.FlatUninstall
import Gcit.Supervisor.Unchanged
import Gcit.Mail.HeaderBytes
import Gcit.Library.Exclusive
import Gcit.Mail.Notifier
import Gcit.Mail.Spool
import Gcit.Mail.Delivery
import Gcit.Supervisor.Lifetime
import Gcit.Supervisor.Shutdown
import Gcit.Supervisor.Succession
import Gcit.Library.Frames
import Gcit.Control.Exchange
import Gcit.Control.Client
import Gcit.Control.Gate
import Gcit.Library.JsonRead
import Gcit.Control.Protocol
import Gcit.Cli.Commands
import Gcit.Library.CappedRead
import Gcit.Git.Grokmirror
import Gcit.Poll.Mirror
import Gcit.Supervisor.Socket
import Gcit.Library.Unsigned
import Gcit.Discord.Webhook
import Gcit.Discord.Delivery
