import IronFix.Lib.Incremental
import IronFix.Transport.Recovery
import IronFix.Pipeline.Agreement
import IronFix.Pipeline.RoundTrip
import IronFix.TagValue.DecodeInto
import IronFix.Session.ReplayExact
import IronFix.Engine.HeaderAgreement
import IronFix.Engine.NoReuse
import IronFix.Engine.Throttle
import IronFix.Engine.CommandQueue
import IronFix.Engine.RegistryKept
import IronFix.Engine.OwedResetRuns
import IronFix.Engine.SendsKept
import IronFix.Engine.WatermarkKept
import IronFix.Session.Accounting
import IronFix.Session.GapKeeping
import IronFix.Session.ThrottleWakeup
import IronFix.Session.RecoveryRuns
import IronFix.Store.Answers
import IronFix.Fast.RoundTrip
import IronFix.Lib.Cursor
import IronFix.Lib.Radix
import IronFix.Fixp.RoundTrip
import IronFix.Fixp.Runs
import IronFix.Fixp.Ledger
import IronFix.Fixp.ClientSteps
import IronFix.Fixp.Server
import IronFix.Fixp.AtMostOnce
import IronFix.Fixp.Orderly
import IronFix.Engine.Resend
import IronFix.Store.JournalRoundTrip
import IronFix.Sofh.Framing
import IronFix.Fast.Canonical
import IronFix.Fast.Alignment
import IronFix.Session.ReplayQueue
import IronFix.Session.Hold
import IronFix.Session.Heartbeat
import IronFix.Lib.Traces
import IronFix.Store.JournalRuns
import IronFix.Session.UtcText
import IronFix.Fixp.Timers
import IronFix.Dictionary.Levels
import IronFix.Dictionary.Truncation
import IronFix.Dictionary.GroupRoundTrip
import IronFix.Dictionary.MessageLayout
import IronFix.Lib.Heights
import IronFix.Dictionary.ComponentGraph
import IronFix.Dictionary.GraphChecks
import IronFix.Dictionary.Agreement
