import Logjam.Library.MergeMap
import Logjam.Library.Translation
import Logjam.Basic.Bytes
import Logjam.Basic.Json
import Logjam.Importer.Increments
import Logjam.Importer.Processor
import Logjam.Importer.Aggregate
import Logjam.Importer.Parser
import Logjam.Importer.Adder
import Logjam.Importer.Controller
import Logjam.Importer.Delivery
import Logjam.Importer.Producible
import Logjam.Importer.StatsUpdater
import Logjam.Importer.Subscriber
import Logjam.Relay.Compressor
import Logjam.Relay.Device
import Logjam.Basic.Decimal
import Logjam.Exporter.MessageParser
import Logjam.Importer.Conservation
import Logjam.Library.MergeSum
import Logjam.Library.Numbering
import Logjam.Relay.Bridge
import Logjam.Relay.InvalidMeta
import Logjam.Util.Dump
import Logjam.Exporter.FrontendMetrics
import Logjam.Graylog.PageNames
import Logjam.Exporter.MetaFrame
import Logjam.Relay.Router
import Logjam.LiveStream.Classification
import Logjam.LiveStream.FanOut
import Logjam.Exporter.CollectorManager
import Logjam.Importer.StreamRefs
import Logjam.Library.Memory
import Logjam.Importer.Expiry
import Logjam.Importer.ZRing
import Logjam.Importer.PageTimings
import Logjam.Importer.DropReasons
import Logjam.Importer.FrontendStats
import Logjam.Importer.KnownModules
import Logjam.Importer.RequestWriter
import Logjam.Library.Utf8
import Logjam.LiveStream.Totals
import Logjam.Util.Subscriptions
import Logjam.Library.Execution
import Logjam.Exporter.Series
import Logjam.Exporter.ActionRegistry
import Logjam.Exporter.Forgetting
import Logjam.Importer.CounterKeys
import Logjam.Importer.JsExceptions
import Logjam.Importer.TimingScanner
import Logjam.Importer.FixedBuffers
import Logjam.Importer.Repair
import Logjam.Importer.Truncation
import Logjam.Importer.StoreEvent
import Logjam.Importer.StartedAt
import Logjam.Library.Rounding
import Logjam.Basic.Calendar
import Logjam.Util.RequestIds
import Logjam.Util.StaleDevices
import Logjam.Importer.BackendOnly
import Logjam.Importer.Severity
import Logjam.Importer.ModuleExpiry
import Logjam.Importer.ClockDrift
import Logjam.Relay.TrackerUpdates
import Logjam.Importer.NullStrings
import Logjam.Library.Cyclic
import Logjam.LiveStream.Rings
import Logjam.LiveStream.Anomalies
import Logjam.LiveStream.History
import Logjam.Statsd.Buffer
import Logjam.Util.GoCompression
import Logjam.Publishing.Publisher
import Logjam.Exporter.TotalTime
import Logjam.Graylog.Gelf
import Logjam.Graylog.Forwarder
import Logjam.Exporter.Verbosity
import Logjam.Graylog.StringBuilder
import Logjam.Importer.ResourceMaps
import Logjam.Library.Regexp
import Logjam.Library.Sorting
import Logjam.Backup.Dates
import Logjam.Backup.Names
import Logjam.Backup.Databases
import Logjam.Backup.Restore
import Logjam.Library.WorkerPool
import Logjam.Library.MergeFold
import Logjam.Library.Playback
import Logjam.Importer.Updates
import Logjam.Importer.MergedUpdates
import Logjam.Importer.ForwardedRows
import Logjam.Importer.WellFormedUpdates
import Logjam.Importer.Updaters
import Logjam.Importer.RequestData
import Logjam.Importer.Sampling
import Logjam.Importer.StoreRequest
import Logjam.Importer.RequestWriters
