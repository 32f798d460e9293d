import Huginn.Lib.Run
import Huginn.Lib.Assoc
import Huginn.Lib.LastWrite
import Huginn.Lib.Notify
import Huginn.Lib.Broadcast
import Huginn.Lib.DropOldest
import Huginn.Lib.Ledger
import Huginn.Lib.Escape
import Huginn.Lib.Exposition
import Huginn.Lib.Semaphore
import Huginn.Lib.Percent
import Huginn.Core.F64
import Huginn.Core.BTreeMap
import Huginn.Core.HashMap
import Huginn.Core.Text
import Huginn.Core.Correct.Text
import Huginn.Core.Net
import Huginn.Core.Types
import Huginn.Core.Stats
import Huginn.Core.Duration
import Huginn.Core.Config
import Huginn.Core.Load
import Huginn.Core.Correct.Load
import Huginn.Core.Correct.Listeners
import Huginn.Core.Correct.Overrides
import Huginn.Core.Correct.Applicable
import Huginn.Core.Correct.Contend
import Huginn.Lib.Future
import Huginn.Probes.Probe
import Huginn.Probes.Executors
import Huginn.Probes.Healthy
import Huginn.Probes.Correct.Executors
import Huginn.Probes.Correct.Target
import Huginn.Probes.Correct.Deadline
import Huginn.Probes.Correct.Greeting
import Huginn.Influx.Queue
import Huginn.Influx.WaitForBatch
import Huginn.Influx.LineProtocol
import Huginn.Influx.LineReader
import Huginn.Influx.Writer
import Huginn.Influx.Pipeline
import Huginn.Influx.Http
import Huginn.Influx.WriteUrl
import Huginn.Influx.Correct.Queue
import Huginn.Influx.Correct.WaitForBatch
import Huginn.Influx.Correct.LineProtocol
import Huginn.Influx.Correct.Pipeline
import Huginn.Influx.Correct.Accounting
import Huginn.Influx.Correct.Backoff
import Huginn.Influx.Correct.Attempts
import Huginn.Influx.Correct.Http
import Huginn.Influx.Correct.WriteUrl
import Huginn.Influx.Correct.Framing
import Huginn.Web.State
import Huginn.Web.Dashboard
import Huginn.Web.Prometheus
import Huginn.Web.Auth
import Huginn.Web.Correct.Dashboard
import Huginn.Web.Correct.Prometheus
import Huginn.Web.Correct.ReadBack
import Huginn.Web.Correct.Scrape
import Huginn.Web.Correct.OneProbe
import Huginn.Web.Health
import Huginn.Web.Correct.Health
import Huginn.Web.Serve
import Huginn.Web.Correct.Serve
import Huginn.Web.Correct.Auth
import Huginn.Influx.Correct.Drain
import Huginn.Main.Process
import Huginn.Main.Startup
import Huginn.Main.Correct.Process
import Huginn.Main.Correct.Startup
import Huginn.Main.Correct.Drain
import Huginn.Main.Correct.Stop
import Huginn.Main.Correct.Series
import Huginn.Main.Correct.Status
import Huginn.Lib.Feed
import Huginn.Lib.Scan
import Huginn.Lib.Markup
import Huginn.Lib.Progress
import Huginn.Main.Daemon
import Huginn.Main.Correct.Subscribers
import Huginn.Main.Correct.Published
import Huginn.Influx.Correct.Recovery
import Huginn.Lib.Interval
import Huginn.Main.Scheduler
import Huginn.Main.Clock
import Huginn.Main.Correct.Scheduler
import Huginn.Main.Correct.Clock
import Huginn.Influx.FlushTimer
import Huginn.Influx.Correct.FlushTimer
import Huginn.Main.Scrape
import Huginn.Main.Correct.Counters
import Huginn.Probes.Correct.Verdict
import Huginn.Probes.Correct.Readings
import Huginn.Main.Correct.Verdict
import Huginn.Web.Correct.Row
import Huginn.Influx.Correct.Database
import Huginn.Main.Correct.Listeners
import Huginn.Main.Correct.Cardinality
import Huginn.Main.Correct.Detection
import Huginn.Web.Correct.Repair
