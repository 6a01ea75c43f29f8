import MetricCollector.Percentile.Threshold

namespace MetricCollector

-- The selected sample nearest to the middle, and what there is to say of the selected ones.
structure Percentile where
  threshold : Float
  label     : String
  value     : Float
  count     : Nat
  sum       : Float
  mean      : Float

def sampleSum (xs : List Float) : Float :=
  xs.foldl (· + ·) (-0.0)

namespace Threshold

-- The samples that `t` selects from samples in ascending order, in the same order.
def select (t : Threshold) (sorted : List Float) : List Float :=
  let count := t.rank sorted.length
  if t.isBottom then sorted.drop (sorted.length - count) else sorted.take count

-- The selected sample next to those that are not selected.
def boundary? (t : Threshold) (selected : List Float) : Option Float :=
  if t.isBottom then selected.head? else selected.getLast?

end Threshold

namespace Percentile

-- The percentile of samples in ascending order. No samples have none.
def of? (sorted : List Float) (t : Threshold) : Option Percentile :=
  let selected := t.select sorted
  (t.boundary? selected).map fun value =>
    let count := t.rank sorted.length
    let sum := sampleSum selected
    { threshold := t.value, label := t.label, value, count, sum, mean := sum / Float.ofNat count }

-- The percentiles of samples in ascending order, one for each threshold.
def ofAll (sorted : List Float) (thresholds : List Threshold) : List Percentile :=
  thresholds.filterMap (of? sorted)

end Percentile
end MetricCollector
