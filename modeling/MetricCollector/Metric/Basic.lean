import MetricCollector.Metric.Kind
import MetricCollector.Metric.Series

namespace MetricCollector

-- A single observation as a client sent it.
structure Metric where
  name  : String
  kind  : Kind
  value : Float
  tags  : TagSet := .empty
  -- The fraction of events that the client reported.
  sampleRate : Float := 1.0

namespace Metric

def series (m : Metric) : Series :=
  ⟨m.name, m.tags⟩

-- Whether a sample rate lies in (0, 1].
def isSampleRate (rate : Float) : Bool :=
  0.0 < rate && rate ≤ 1.0

-- Whether the observation can be accumulated. The value has to be finite, and where the sample rate
-- scales it, that has to be a sample rate.
def isSound (m : Metric) : Bool :=
  m.value.isFinite && (m.kind != .counter || isSampleRate m.sampleRate)

end Metric
end MetricCollector
