import MetricCollector.Collection.OrderedMap
import MetricCollector.Metric.Series
import MetricCollector.Percentile.Basic
import MetricCollector.Time.Span
import MetricCollector.Time.Timestamp

namespace MetricCollector

structure CounterSummary where
  -- The sum over the interval of the summary.
  value : Float
  -- The sum since the series appeared.
  total : Float

-- The sum per second of an interval, or the sum itself if the interval is no time at all.
def CounterSummary.rate (c : CounterSummary) (interval : Span) : Float :=
  let seconds := interval.toSeconds
  if 0.0 < seconds then c.value / seconds else c.value

structure TimerSummary where
  count : Nat
  sum   : Float
  min   : Float
  max   : Float
  mean  : Float
  percentiles : List Percentile

-- What one flush reports to the sinks: for every series of every kind, what was observed since the
-- flush before.
structure Summary where
  timestamp : Timestamp
  -- The time that the summary covers.
  interval  : Span
  counters  : OrderedMap Series CounterSummary := .empty
  gauges    : OrderedMap Series Float := .empty
  timers    : OrderedMap Series TimerSummary := .empty
  -- The number of distinct values of each set.
  sets      : OrderedMap Series Nat := .empty

namespace Summary

-- The number of entries. A series counts once for each kind.
def size (s : Summary) : Nat :=
  s.counters.size + s.gauges.size + s.timers.size + s.sets.size

def isEmpty (s : Summary) : Bool :=
  s.size = 0

end Summary
end MetricCollector
