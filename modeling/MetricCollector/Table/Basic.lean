import MetricCollector.Collection.OrderedMap
import MetricCollector.Metric.Basic
import MetricCollector.Table.Accumulator
import MetricCollector.Time.Instant

namespace MetricCollector

-- The table holds what every series accumulates, for each kind on its own, and when the series was
-- last observed. Series that have not been observed for long expire.
structure Table where
  counters : OrderedMap Series Counter := .empty
  gauges   : OrderedMap Series Float := .empty
  timers   : OrderedMap Series Timer := .empty
  sets     : OrderedMap Series Members := .empty
  -- When a series was last observed, as whatever kind.
  lastSeen : OrderedMap Series Instant := .empty

namespace Table

def empty : Table := {}

instance : Inhabited Table := ⟨empty⟩

-- How many series there are. A series that was observed as several kinds counts once.
def size (t : Table) : Nat :=
  t.lastSeen.size

-- Adds an observation to the accumulator of its series and kind.
def accumulate (t : Table) (m : Metric) : Table :=
  match m.kind with
  | .counter =>
    { t with counters := t.counters.update m.series fun c => (c.getD {}).add m.value m.sampleRate }
  | .gauge   => { t with gauges := t.gauges.insert m.series m.value }
  | .timer   => { t with timers := t.timers.update m.series fun x => (x.getD .empty).add m.value }
  | .set     => { t with sets := t.sets.update m.series fun s => Members.add (s.getD .empty) m.value }

-- Records that a series was observed. The record never moves backwards.
def see (t : Table) (s : Series) (now : Instant) : Table :=
  { t with lastSeen := t.lastSeen.update s fun seen => (seen.getD now).later now }

-- Applies an observation, if it can be accumulated, and tells whether it was.
def apply (t : Table) (m : Metric) (now : Instant) : Bool × Table :=
  if m.isSound then (true, (t.accumulate m).see m.series now) else (false, t)

-- Whether a series was last observed more than `interval` before `now`.
def isStale (t : Table) (now : Instant) (interval : Span) (s : Series) : Bool :=
  (t.lastSeen.find? s).any fun seen => interval < now.since seen

-- The table without the series that fail a test.
def keep (t : Table) (p : Series → Bool) : Table where
  counters := t.counters.filter p
  gauges   := t.gauges.filter p
  timers   := t.timers.filter p
  sets     := t.sets.filter p
  lastSeen := t.lastSeen.filter p

-- Removes the series that were last observed more than `interval` before `now`, and tells how many
-- they were. An interval of zero keeps every series.
def expire (t : Table) (now : Instant) (interval : Span) : Nat × Table :=
  if interval.isZero then (0, t)
  else
    let kept := t.keep fun s => !t.isStale now interval s
    (t.size - kept.size, kept)

end Table
end MetricCollector
