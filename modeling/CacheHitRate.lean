import CacheHitRate.Text.Basic
import CacheHitRate.Text.Printable
import CacheHitRate.Number.Binary64
import CacheHitRate.Number.Quantity
import CacheHitRate.Number.Shortest
import CacheHitRate.Number.Decimal
import CacheHitRate.Json.Basic
import CacheHitRate.Json.Reader
import CacheHitRate.Json.Writer
import CacheHitRate.Json.Display
import CacheHitRate.Json.Numeric
import CacheHitRate.Event
import CacheHitRate.Normalize
import CacheHitRate.Sample
import CacheHitRate.Window.Sums
import CacheHitRate.Window.Span
import CacheHitRate.Window.Ring
import CacheHitRate.Window.Buffer
import CacheHitRate.TraceModels
import CacheHitRate.Group
import CacheHitRate.Rule
import CacheHitRate.Evaluation
import CacheHitRate.Notice
import CacheHitRate.FlagStore
import CacheHitRate.Metrics
import CacheHitRate.Config
import CacheHitRate.Config.Options
import CacheHitRate.ListenAddress
import CacheHitRate.Monitor
import CacheHitRate.Monitor.Feed
import CacheHitRate.Monitor.Delivery
import CacheHitRate.Main
import CacheHitRate.Proofs.Window.Sums
import CacheHitRate.Proofs.Window.Agreement
import CacheHitRate.Proofs.Window.Layout
import CacheHitRate.Proofs.Window.Retention
import CacheHitRate.Proofs.Window.Slots
import CacheHitRate.Proofs.Number.Ratio
import CacheHitRate.Proofs.Monitor.Op
import CacheHitRate.Proofs.Monitor.Groups
import CacheHitRate.Proofs.Monitor.Run
import CacheHitRate.Proofs.Monitor.SelfCheck
import CacheHitRate.Proofs.Monitor.Completion
import CacheHitRate.Proofs.Monitor.Coherence
import CacheHitRate.Proofs.Monitor.Step
import CacheHitRate.Proofs.Monitor.Persistence
import CacheHitRate.Proofs.Monitor.AlertSpacing
import CacheHitRate.Proofs.Monitor.TraceCorrelation
import CacheHitRate.Proofs.Monitor.Retaining
import CacheHitRate.Proofs.Monitor.AlertBatch
import CacheHitRate.Proofs.Monitor.Eviction
import CacheHitRate.Proofs.Window.HitRate
import CacheHitRate.Proofs.Rule.Failures
import CacheHitRate.Proofs.Evaluation.Cycle
import CacheHitRate.Proofs.Monitor.Shutdown
import CacheHitRate.Proofs.Monitor.Dedup
import CacheHitRate.Proofs.Feed.Line
import CacheHitRate.Proofs.Feed.Stream
import CacheHitRate.Proofs.FlagStore.Loading
import CacheHitRate.Proofs.Monitor.Delivery
