import HerdrMobile.Lib.Run
import HerdrMobile.Lib.Channel
import HerdrMobile.Hub.Steps
import HerdrMobile.Hub.Links
import HerdrMobile.Hub.Forwarding
import HerdrMobile.Hub.Teardown
import HerdrMobile.Hub.Blocking
import HerdrMobile.Frame.Codec
import HerdrMobile.Frame.DartCodec
import HerdrMobile.Frame.RoundTrip
import HerdrMobile.Frame.Agreement
import HerdrMobile.App.Composer
import HerdrMobile.App.Exact
import HerdrMobile.Frame.Reassembly
import HerdrMobile.Host.Frames
import HerdrMobile.Host.HeldRuns
import HerdrMobile.App.Terminal
import HerdrMobile.App.Tree
import HerdrMobile.App.View
import HerdrMobile.Bridge.Active
import HerdrMobile.Bridge.Identity
import HerdrMobile.Bridge.Loops
import HerdrMobile.Bridge.Stop
import HerdrMobile.Host.Handover
import HerdrMobile.Host.Ipc
import HerdrMobile.Host.Reopen
import HerdrMobile.Host.Resubscribe
import HerdrMobile.Hub.Slots
import HerdrMobile.Hub.Generations
import HerdrMobile.Hub.Collapse
import HerdrMobile.Proto.Segments
import HerdrMobile.Proto.UriRoundTrip
import HerdrMobile.Proto.FrameRoundTrip
import HerdrMobile.Host.Credentials
import HerdrMobile.Host.KeyIdentity
import HerdrMobile.Bridge.Saved
import HerdrMobile.App.HandshakeRuns
import HerdrMobile.App.Enters
import HerdrMobile.App.Switch
import HerdrMobile.App.Matching
import HerdrMobile.App.Actions
import HerdrMobile.App.Connection
import HerdrMobile.App.Frames
import HerdrMobile.App.Overtaken
import HerdrMobile.App.Mirror
import HerdrMobile.App.Places
import HerdrMobile.App.FirstRun
import HerdrMobile.App.Gate
import HerdrMobile.App.PlainStoreRuns
import HerdrMobile.App.Retoggle
import HerdrMobile.App.AttemptCounts
import HerdrMobile.App.InputAgreement
import HerdrMobile.App.AckRuns
import HerdrMobile.Hub.Rates
import HerdrMobile.Host.Reads
import HerdrMobile.Host.Geometry
import HerdrMobile.Host.Supersede
import HerdrMobile.Host.Settle
import HerdrMobile.Host.KeyGrammar
import HerdrMobile.Lib.Latest
import HerdrMobile.Host.Outgoing
import HerdrMobile.Frame.Records
import HerdrMobile.Proto.Escapes
import HerdrMobile.App.SendQueue
import HerdrMobile.App.Wanted
import HerdrMobile.App.Owed
import HerdrMobile.Lib.Groups
import HerdrMobile.Host.Spaces
import HerdrMobile.Host.Wordlist
import HerdrMobile.Host.Serving
import HerdrMobile.Lib.Delimited
import HerdrMobile.Host.Lines
import HerdrMobile.App.Secrets
import HerdrMobile.App.Freeze
import HerdrMobile.Lib.Rfc3339
import HerdrMobile.App.Priority
import HerdrMobile.App.Notifications
import HerdrMobile.App.QuietHours
import HerdrMobile.App.Ends
import HerdrMobile.App.StaleSlot
import HerdrMobile.Lib.Observed
import HerdrMobile.App.Alerts
import HerdrMobile.App.OwnLog
import HerdrMobile.App.OwnCache
import HerdrMobile.App.OwnAlerts
import HerdrMobile.App.AlertIsolation
import HerdrMobile.Host.Progress
import HerdrMobile.App.Attempts
import HerdrMobile.App.HostSwitch
import HerdrMobile.App.DartUri
import HerdrMobile.App.Origins
import HerdrMobile.Lib.Splice
import HerdrMobile.App.CodeUnits
import HerdrMobile.App.ComposerEdit
import HerdrMobile.App.Chords
import HerdrMobile.Lib.Totals
import HerdrMobile.Hub.Counters
import HerdrMobile.Hub.Ledger
import HerdrMobile.Bridge.Control
import HerdrMobile.Bridge.Exchange
import HerdrMobile.Bridge.Endpoint
import HerdrMobile.Bridge.Popup
import HerdrMobile.Bridge.PopupSteps
import HerdrMobile.Bridge.PopupQuestions
import HerdrMobile.Bridge.PopupSelection
import HerdrMobile.Bridge.PopupExpiry
import HerdrMobile.Hub.Crowding
