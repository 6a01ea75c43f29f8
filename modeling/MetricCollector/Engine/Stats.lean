import MetricCollector.Json.Basic

namespace MetricCollector

-- What the engine counts.
structure EngineCounts where
  -- Observations that were applied to the table.
  received : Nat := 0
  -- Observations that could not be read or applied.
  invalid  : Nat := 0
  -- Observations that were lost because the queue was full.
  dropped  : Nat := 0
  flushes  : Nat := 0
  -- Series that expired.
  expired  : Nat := 0
  deriving DecidableEq, Repr

structure Stats extends EngineCounts where
  -- Sinks that failed to accept a summary.
  deliveryFailures : Nat := 0
  -- Summaries that were skipped because the sinks were too slow.
  droppedSummaries : Nat := 0
  deriving DecidableEq, Repr

namespace Stats

def named (s : Stats) : List (String × Nat) :=
  [("metrics_received", s.received),
   ("invalid_metrics", s.invalid),
   ("dropped_metrics", s.dropped),
   ("flushes", s.flushes),
   ("expired_keys", s.expired),
   ("delivery_failures", s.deliveryFailures),
   ("dropped_summaries", s.droppedSummaries)]

def toJson (s : Stats) : Json :=
  .record (s.named.map fun (name, n) => (name, .ofNat n))

end Stats
end MetricCollector
