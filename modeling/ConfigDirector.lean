import ConfigDirector.Python.Dict
import ConfigDirector.Python.Numerals
import ConfigDirector.Python.Utf8
import ConfigDirector.Evaluation.Types
import ConfigDirector.Python.Regex
import ConfigDirector.Evaluation.Comparison
import ConfigDirector.Evaluation.Condition
import ConfigDirector.Evaluation.Rapidhash
import ConfigDirector.Evaluation.Evaluator
import ConfigDirector.Evaluation.Percentage
import ConfigDirector.Bundle.Parse
import ConfigDirector.Bundle.Overflow
import ConfigDirector.Bundle.Isolation
import ConfigDirector.Client.Store
import ConfigDirector.Machine.LastWriter
import ConfigDirector.Machine.Transition
import ConfigDirector.Client.History
import ConfigDirector.Client.Operations
import ConfigDirector.Client.Silent
import ConfigDirector.EventSource.Parser
import ConfigDirector.EventSource.Lines
import ConfigDirector.EventSource.Chunks
import ConfigDirector.EventSource.Read
import ConfigDirector.Transport.Http
import ConfigDirector.Transport.Polling
import ConfigDirector.Transport.Fetches
import ConfigDirector.Transport.ClosePolling
import ConfigDirector.Transport.CloseStreaming
import ConfigDirector.Python.Encodable
import ConfigDirector.Python.Positional
import ConfigDirector.Telemetry.Values
import ConfigDirector.Telemetry.ValueIds
import ConfigDirector.Client.GetValue
import ConfigDirector.Evaluation.Sticky
import ConfigDirector.Evaluation.Order
import ConfigDirector.Python.Collections
import ConfigDirector.Telemetry.Queue
import ConfigDirector.Telemetry.Collector
import ConfigDirector.Telemetry.Accounts
import ConfigDirector.Telemetry.Batches
import ConfigDirector.Telemetry.FlushThread
import ConfigDirector.Telemetry.ToldContexts
import ConfigDirector.EventSource.Session
import ConfigDirector.EventSource.Unbroken
import ConfigDirector.EventSource.Connection
import ConfigDirector.EventSource.Finality
import ConfigDirector.EventSource.Marks
import ConfigDirector.Client.Deliveries
import ConfigDirector.Client.Once
import ConfigDirector.Client.LastHeard
import ConfigDirector.Python.Shortest
import ConfigDirector.Python.Decimal
import ConfigDirector.Client.NativeValues
import ConfigDirector.Evaluation.WholeInput
import ConfigDirector.Evaluation.FirstMatch
import ConfigDirector.Bundle.FutureRules
import ConfigDirector.Evaluation.DateFormat
import ConfigDirector.Python.NumberToString
import ConfigDirector.Telemetry.NumberText
import ConfigDirector.Client.Subscriptions
import ConfigDirector.Client.Callbacks
import ConfigDirector.Client.InvalidKinds
import ConfigDirector.Machine.Rendezvous
import ConfigDirector.OpenFeature.Announcement
import ConfigDirector.Telemetry.Registry
import ConfigDirector.Testing.InMemoryConnection
import ConfigDirector.Testing.Convergence
import ConfigDirector.Telemetry.InvalidWindows
import ConfigDirector.Evaluation.Pointer
import ConfigDirector.Evaluation.Complements
import ConfigDirector.Evaluation.Coercion
import ConfigDirector.Client.Integers
import ConfigDirector.EventSource.LineLimit
import ConfigDirector.EventSource.Delay
import ConfigDirector.Testing.DeliveryQueue
import ConfigDirector.EventSource.Responses
import ConfigDirector.Python.JsonBytes
import ConfigDirector.Client.ConnectionPlan
import ConfigDirector.Transport.OfflineRuns
import ConfigDirector.Telemetry.Reporter
import ConfigDirector.Telemetry.CompactText
import ConfigDirector.Transport.StreamingRuns
import ConfigDirector.Transport.WrittenStreams
import ConfigDirector.OpenFeature.Resolution
import ConfigDirector.Bundle.Written
import ConfigDirector.Evaluation.Reads
import ConfigDirector.Transport.PollingRuns
import ConfigDirector.Client.AllConfigs
import ConfigDirector.Client.Emitted
