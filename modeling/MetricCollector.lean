import MetricCollector.Collection.OrderedMap.Lemmas
import MetricCollector.Console.Session
import MetricCollector.Console.Web
import MetricCollector.Graphite
import MetricCollector.Main
import MetricCollector.Metric.Json
import MetricCollector.Summary.Json
import MetricCollector.Proofs.Table.Log
import MetricCollector.Proofs.Table.Row
import MetricCollector.Proofs.Table.Life
import MetricCollector.Proofs.Table.Totals
import MetricCollector.Proofs.Binary.Order
import MetricCollector.Proofs.Table.Timings
import MetricCollector.Proofs.Engine.Turn
import MetricCollector.Proofs.Engine.Course
import MetricCollector.Proofs.Table.Windows
import MetricCollector.Proofs.Engine.Retention
import MetricCollector.Proofs.Engine.Accounts
import MetricCollector.Proofs.Table.Isolation
import MetricCollector.Proofs.Collection.KeySet
import MetricCollector.Proofs.Table.Keys
import MetricCollector.Proofs.Table.Expiry
import MetricCollector.Proofs.Delivery.Backlog
import MetricCollector.Proofs.Delivery.Books
import MetricCollector.Proofs.Delivery.Handoff
import MetricCollector.Proofs.Engine.Answers
import MetricCollector.Proofs.Engine.Observations
import MetricCollector.Proofs.Wire.Reading
import MetricCollector.Proofs.Wire.Grammar
import MetricCollector.Proofs.Wire.Reception
import MetricCollector.Proofs.Wire.Counting
import MetricCollector.Proofs.Table.Reports
import MetricCollector.Proofs.Service.Basic
import MetricCollector.Proofs.Engine.Ending
import MetricCollector.Proofs.Engine.Eviction
import MetricCollector.Proofs.Table.Presence
import MetricCollector.Proofs.Service.Shutdown
import MetricCollector.Proofs.Service.Rest
import MetricCollector.Proofs.Service.Pace
import MetricCollector.Proofs.Service.Deadline
import MetricCollector.Proofs.Service.Collector
import MetricCollector.Collection.OrderedSet.Lemmas
import MetricCollector.Proofs.Text.Pieces
import MetricCollector.Proofs.Binary.Bits
import MetricCollector.Proofs.Binary.Nearest
import MetricCollector.Proofs.Decimal.Shortest
import MetricCollector.Proofs.Decimal.Plain
import MetricCollector.Proofs.Percentile.Labels
import MetricCollector.Proofs.Graphite.Paths
import MetricCollector.Proofs.Json.Unambiguous
import MetricCollector.Proofs.Table.Legible
import MetricCollector.Proofs.Binary.Value
import MetricCollector.Proofs.Binary.Rounding
import MetricCollector.Proofs.Binary.Arithmetic
import MetricCollector.Proofs.Percentile.Selection
import MetricCollector.Proofs.Table.Finiteness
import MetricCollector.Proofs.Table.Arrival
import MetricCollector.Proofs.Outcome
import MetricCollector.Proofs.Text.Digits
import MetricCollector.Proofs.Time.Notations
import MetricCollector.Proofs.Time.Seconds
import MetricCollector.Proofs.Address.RoundTrip
import MetricCollector.Proofs.Json.Scalars
import MetricCollector.Proofs.Json.RoundTrip
import MetricCollector.Proofs.Json.Numbers
import MetricCollector.Proofs.Json.Records
import MetricCollector.Proofs.Settings.RoundTrip
import MetricCollector.Proofs.Text.Solid
import MetricCollector.Proofs.Text.Utf8
import MetricCollector.Proofs.Graphite.Lines
import MetricCollector.Proofs.Graphite.Identification
import MetricCollector.Proofs.Wire.Packets
import MetricCollector.Proofs.Percentile.Symmetry
import MetricCollector.Proofs.Time.Timers
import MetricCollector.Proofs.Delivery.Looks
import MetricCollector.Proofs.Delivery.Dispatch
import MetricCollector.Proofs.Graphite.Statistics
import MetricCollector.Proofs.Binary.Equality
import MetricCollector.Proofs.Table.Cardinality
import MetricCollector.Proofs.Table.Agreement
import MetricCollector.Proofs.Table.Commutation
import MetricCollector.Proofs.Metric.Order
import MetricCollector.Proofs.Summary.Lines
import MetricCollector.Daemon
import MetricCollector.Proofs.Settings.Checks
import MetricCollector.Proofs.Service.Idle
import MetricCollector.Proofs.Service.Conformance
import MetricCollector.Proofs.Service.Daemon
import MetricCollector.Proofs.Decimal.Nearest
import MetricCollector.Proofs.Wire.Newlines
import MetricCollector.Proofs.Table.Views
import MetricCollector.Proofs.Console.Queries
import MetricCollector.Proofs.Console.Views
import MetricCollector.Proofs.Address.Listening
import MetricCollector.Proofs.CommandLine.Reading
import MetricCollector.Proofs.CommandLine.Overlay
