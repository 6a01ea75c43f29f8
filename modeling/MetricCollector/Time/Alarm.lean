import MetricCollector.Time.Instant

namespace MetricCollector

-- Something that happens at an instant without any other cause.
structure Alarm where
  rings : Instant
  -- The spell of work in which the alarm was set.
  setIn : Nat
  deriving DecidableEq, Repr

namespace Alarm

-- Of the alarms that go off together, the one that was set first comes first.
def precedes (a b : Alarm) : Bool :=
  a.rings < b.rings || (a.rings = b.rings && a.setIn < b.setIn)

def first? (alarms : List Alarm) : Option Alarm :=
  alarms.foldl (fun first a => some (first.elim a fun b => if a.precedes b then a else b)) none

end Alarm
end MetricCollector
