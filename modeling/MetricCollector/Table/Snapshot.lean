import MetricCollector.Table.Basic
import MetricCollector.Time.Span
import MetricCollector.Time.Timestamp

namespace MetricCollector

-- Which entries of the table a snapshot shows.
structure View where
  -- Only this kind.
  kind? : Option Kind := none
  -- Only series whose name starts like this.
  start? : Option String := none
  deriving DecidableEq

namespace View

def whole : View := {}

def showsKind (v : View) (k : Kind) : Bool :=
  v.kind?.all (· = k)

def showsSeries (v : View) (s : Series) : Bool :=
  v.start?.all fun start => start.toList.isPrefixOf s.name.toList

-- The entries of one kind that are shown.
def select {α : Type} (v : View) (k : Kind) (m : OrderedMap Series α) : OrderedMap Series α :=
  if v.showsKind k then m.filter v.showsSeries else .empty

end View

-- A copy of the table, or of a part of it, for people to look at.
structure Snapshot where
  takenAt  : Timestamp
  counters : OrderedMap Series Counter
  gauges   : OrderedMap Series Float
  timers   : OrderedMap Series Timer
  sets     : OrderedMap Series Members

namespace Snapshot

-- The number of entries. A series counts once for each kind.
def size (s : Snapshot) : Nat :=
  s.counters.size + s.gauges.size + s.timers.size + s.sets.size

def isEmpty (s : Snapshot) : Bool :=
  s.size = 0

end Snapshot

def Table.snapshot (t : Table) (v : View) (takenAt : Timestamp) : Snapshot where
  takenAt  := takenAt
  counters := v.select .counter t.counters
  gauges   := v.select .gauge t.gauges
  timers   := v.select .timer t.timers
  sets     := v.select .set t.sets

end MetricCollector
