import MetricCollector.Time.Instant
import MetricCollector.Time.Timestamp

namespace MetricCollector

def Timestamp.after (t : Timestamp) (s : Span) : Timestamp :=
  let nanos := t.nanoseconds + s.nanoseconds
  ⟨t.seconds + (nanos / Span.nanosPerSecond : Nat), nanos % Span.nanosPerSecond⟩

-- What the two clocks show: the one that never runs backwards, and the one for the time of day.
structure Moment where
  instant   : Instant
  timestamp : Timestamp
  deriving DecidableEq, Repr

namespace Moment

-- When both clocks begin to count.
def origin : Moment := ⟨⟨0⟩, ⟨0, 0⟩⟩

def movedTo (m : Moment) (i : Instant) : Moment :=
  ⟨i, m.timestamp.after (i.since m.instant)⟩

end Moment
end MetricCollector
