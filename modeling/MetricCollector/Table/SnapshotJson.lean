import MetricCollector.Json.Writer
import MetricCollector.Table.Snapshot

namespace MetricCollector

def Counter.toJson (c : Counter) : Json :=
  .record [("value", .ofFloat c.value), ("values_since_reset", .ofFloat c.total)]

-- Gauges are objects, as the other kinds are.
def gaugeJson (x : Float) : Json :=
  .record [("value", .ofFloat x)]

def Timer.toJson (t : Timer) : Json :=
  .record
    [("values", .array (t.samples.toList.map .ofFloat)),
     ("count", .ofNat t.count),
     ("sum", .ofFloat t.sum),
     ("min", .ofFloat t.min),
     ("max", .ofFloat t.max)]

def Members.toJson (s : Members) : Json :=
  .record [("members", .array (s.toList.map .ofString))]

namespace Snapshot

def toJson (s : Snapshot) : Json :=
  .record
    [("taken_at", .ofString s.takenAt.text),
     ("counters", .ofMap Series.text Counter.toJson s.counters),
     ("gauges", .ofMap Series.text gaugeJson s.gauges),
     ("timers", .ofMap Series.text Timer.toJson s.timers),
     ("sets", .ofMap Series.text Members.toJson s.sets)]

end Snapshot
end MetricCollector
