import MetricCollector.Json.Writer
import MetricCollector.Summary

namespace MetricCollector

def Span.toJson (s : Span) : Json :=
  .record [("secs", .ofNat s.seconds), ("nanos", .ofNat s.subsecond)]

def Percentile.toJson (p : Percentile) : Json :=
  .record
    [("threshold", .ofFloat p.threshold),
     ("label", .ofString p.label),
     ("value", .ofFloat p.value),
     ("count", .ofNat p.count),
     ("sum", .ofFloat p.sum),
     ("mean", .ofFloat p.mean)]

def CounterSummary.toJson (c : CounterSummary) : Json :=
  .record [("value", .ofFloat c.value), ("values_since_reset", .ofFloat c.total)]

def TimerSummary.toJson (t : TimerSummary) : Json :=
  .record
    [("count", .ofNat t.count),
     ("sum", .ofFloat t.sum),
     ("min", .ofFloat t.min),
     ("max", .ofFloat t.max),
     ("mean", .ofFloat t.mean),
     ("percentiles", .array (t.percentiles.map Percentile.toJson))]

namespace Summary

def toJson (s : Summary) : Json :=
  .record
    [("timestamp", .ofString s.timestamp.text),
     ("interval", s.interval.toJson),
     ("counters", .ofMap Series.text CounterSummary.toJson s.counters),
     ("gauges", .ofMap Series.text .ofFloat s.gauges),
     ("timers", .ofMap Series.text TimerSummary.toJson s.timers),
     ("sets", .ofMap Series.text .ofNat s.sets)]

def jsonLine (s : Summary) : String :=
  s.toJson.write ++ "\n"

end Summary
end MetricCollector
