import MetricCollector.Metric.Kind
import MetricCollector.Summary
import MetricCollector.Text.Blank
import MetricCollector.Text.Cut

namespace MetricCollector.Graphite

-- A character as it may stand in a name. What separates the parts of a line is replaced.
def safeChar (c : Char) : Char :=
  if Text.isBlank c then '_'
  else if c = '/' then '-'
  else if c = ';' ∨ c = '=' then '_'
  else c

def safe (name : List Char) : List Char :=
  name.map safeChar

-- A tag behind a path. What follows the first colon is the value of the tag.
def tagChars (tag : String) : List Char :=
  match Text.cutAt? ':' tag.toList with
  | some (name, value) => safe name ++ '=' :: safe value
  | none               => safe tag.toList ++ "=true".toList

-- What is told about the samples that a threshold selects.
inductive Measure
  | boundary
  | count
  | sum
  | mean
  deriving DecidableEq, Repr

-- What is told about a series. A gauge has nothing but its level.
inductive Statistic
  | level
  | count
  | rate
  | total
  | sum
  | min
  | max
  | mean
  | selected (measure : Measure) (bottom : Bool) (label : String)
  deriving DecidableEq, Repr

-- The name of a statistic. The level needs none.
def Statistic.name? : Statistic → Option String
  | level => none
  | count => some "count"
  | rate  => some "rate"
  | total => some "total"
  | sum   => some "sum"
  | min   => some "min"
  | max   => some "max"
  | mean  => some "mean"
  | selected .boundary bottom label => some ((if bottom then "lower_" else "upper_") ++ label)
  | selected .count _ label         => some ("count_" ++ label)
  | selected .sum _ label           => some ("sum_" ++ label)
  | selected .mean _ label          => some ("mean_" ++ label)

-- One statistic of one series.
structure Point where
  kind   : Kind
  series : Series
  statistic : Statistic
  value  : Float

namespace Point

def path (root : String) (p : Point) : List Char :=
  root.toList ++ '.' :: p.kind.plural.toList ++ '.' :: safe p.series.name.toList
    ++ (p.statistic.name?.elim [] fun name => '.' :: name.toList)
    ++ p.series.tags.toList.flatMap fun tag => ';' :: tagChars tag

-- A path, the value and the time in seconds. Tags follow the path as `;name=value`.
def line (root : String) (timestamp : Timestamp) (p : Point) : List Char :=
  p.path root ++ ' ' :: plainChars p.value ++ ' ' :: (toString timestamp.seconds).toList ++ ['\n']

end Point

def counterPoints (interval : Span) (s : Series) (c : CounterSummary) : List Point :=
  [⟨.counter, s, .count, c.value⟩,
   ⟨.counter, s, .rate, c.rate interval⟩,
   ⟨.counter, s, .total, c.total⟩]

def gaugePoints (s : Series) (x : Float) : List Point :=
  [⟨.gauge, s, .level, x⟩]

def percentilePoints (s : Series) (p : Percentile) : List Point :=
  let bottom : Bool := p.threshold < 0.0
  [⟨.timer, s, .selected .boundary bottom p.label, p.value⟩,
   ⟨.timer, s, .selected .count bottom p.label, Float.ofNat p.count⟩,
   ⟨.timer, s, .selected .sum bottom p.label, p.sum⟩,
   ⟨.timer, s, .selected .mean bottom p.label, p.mean⟩]

def timerPoints (s : Series) (t : TimerSummary) : List Point :=
  [⟨.timer, s, .count, Float.ofNat t.count⟩,
   ⟨.timer, s, .sum, t.sum⟩,
   ⟨.timer, s, .min, t.min⟩,
   ⟨.timer, s, .max, t.max⟩,
   ⟨.timer, s, .mean, t.mean⟩] ++ t.percentiles.flatMap (percentilePoints s)

def setPoints (s : Series) (n : Nat) : List Point :=
  [⟨.set, s, .count, Float.ofNat n⟩]

-- The statistics of a summary, kind by kind.
def points (s : Summary) : List Point :=
  s.counters.entries.flatMap (fun e => counterPoints s.interval e.1 e.2)
    ++ s.gauges.entries.flatMap (fun e => gaugePoints e.1 e.2)
    ++ s.timers.entries.flatMap (fun e => timerPoints e.1 e.2)
    ++ s.sets.entries.flatMap (fun e => setPoints e.1 e.2)

-- The lines of a summary, with every path below `root`.
def render (root : String) (s : Summary) : String :=
  String.ofList ((points s).flatMap (·.line root s.timestamp))

end MetricCollector.Graphite
