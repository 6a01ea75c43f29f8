import MetricCollector.Summary
import MetricCollector.Table.Basic

namespace MetricCollector

def Timer.sorted (t : Timer) : List Float :=
  t.samples.toList.mergeSort Binary.rankedLe

-- The statistics of a timer, if it has samples.
def Timer.summary? (t : Timer) (thresholds : List Threshold) : Option TimerSummary :=
  t.mean?.map fun mean =>
    { count := t.count, sum := t.sum, min := t.min, max := t.max, mean,
      percentiles := Percentile.ofAll t.sorted thresholds }

namespace Table

def summary (t : Table) (thresholds : List Threshold) (timestamp : Timestamp)
    (interval : Span) : Summary where
  timestamp := timestamp
  interval  := interval
  counters  := t.counters.map fun c => ⟨c.value, c.total⟩
  gauges    := t.gauges
  timers    := t.timers.filterMap (·.summary? thresholds)
  sets      := t.sets.map OrderedSet.size

def flushed (t : Table) : Table :=
  { t with
    counters := t.counters.map Counter.flushed
    timers   := t.timers.map fun _ => .empty
    sets     := t.sets.map fun _ => .empty }

-- A flush reports every series and starts the next interval: counters and timers begin again, sets
-- are emptied, and gauges and the totals of counters stay.
def flush (t : Table) (thresholds : List Threshold) (timestamp : Timestamp)
    (interval : Span) : Summary × Table :=
  (t.summary thresholds timestamp interval, t.flushed)

end Table
end MetricCollector
