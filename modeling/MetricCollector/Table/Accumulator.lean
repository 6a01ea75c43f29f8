import MetricCollector.Collection.OrderedSet
import MetricCollector.Decimal.Plain

namespace MetricCollector

-- There is one accumulator for each kind of metric but for gauges, which are the last value itself.
structure Counter where
  -- The sum since the last flush.
  value : Float := 0.0
  -- The sum since the series appeared.
  total : Float := 0.0

namespace Counter

-- Adds an observation that stands for `1 / rate` observations of its value.
def add (c : Counter) (value rate : Float) : Counter :=
  { value := c.value + value / rate, total := c.total + value / rate }

def flushed (c : Counter) : Counter :=
  { c with value := 0.0 }

@[simp]
theorem flushed_flushed (c : Counter) : c.flushed.flushed = c.flushed := rfl

end Counter

-- Positive infinity, below which every finite number lies.
def infinity : Float := 1.0 / 0.0

-- The statistics of samples since the last flush, kept next to the samples themselves.
structure Timer where
  -- In the order of arrival.
  samples : Array Float := #[]
  count   : Nat := 0
  sum     : Float := 0.0
  min     : Float := infinity
  max     : Float := -infinity

namespace Timer

def empty : Timer := {}

-- Adds a sample. The extremes change only where the sample lies beyond them.
def add (t : Timer) (x : Float) : Timer where
  samples := t.samples.push x
  count   := t.count + 1
  sum     := t.sum + x
  min     := if x < t.min then x else t.min
  max     := if t.max < x then x else t.max

-- The arithmetic mean of the samples, if there are any.
def mean? (t : Timer) : Option Float :=
  if t.count = 0 then none else some (t.sum / Float.ofNat t.count)

end Timer

-- The distinct values of a set, in the notation that reports use.
abbrev Members := OrderedSet String

namespace Members

-- Adds a value, unless a value with the same text is there.
def add (s : Members) (x : Float) : Members :=
  OrderedSet.insert s (plainText x)

end Members
end MetricCollector
