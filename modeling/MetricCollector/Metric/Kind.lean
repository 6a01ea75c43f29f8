import MetricCollector.Text.Quoted

namespace MetricCollector

-- Counters are summed between flushes, gauges hold their last value, timers collect samples, and
-- sets count distinct values.
inductive Kind
  | counter
  | gauge
  | timer
  | set
  deriving DecidableEq, Repr

namespace Kind

-- In the order in which reports list them.
def all : List Kind :=
  [.counter, .gauge, .timer, .set]

def tag : Kind → String
  | counter => "c"
  | gauge   => "g"
  | timer   => "ms"
  | set     => "s"

def name : Kind → String
  | counter => "counter"
  | gauge   => "gauge"
  | timer   => "timer"
  | set     => "set"

-- The name of a group of metrics of a kind, on consoles and in sinks.
def plural : Kind → String
  | counter => "counters"
  | gauge   => "gauges"
  | timer   => "timers"
  | set     => "sets"

def ofTag? (text : String) : Option Kind :=
  all.find? (·.tag = text)

def ofName? (text : String) : Option Kind :=
  all.find? (·.name = text)

def ofPlural? (text : String) : Option Kind :=
  all.find? (·.plural = text)

@[simp]
theorem ofTag?_tag (k : Kind) : ofTag? k.tag = some k := by
  cases k <;> decide

theorem ofTag?_eq_some_iff {text : String} {k : Kind} : ofTag? text = some k ↔ k.tag = text where
  mp h  := by simpa using List.find?_some h
  mpr h := h ▸ ofTag?_tag k

end Kind

-- A tag that names no kind.
structure UnknownKind where
  tag : String
  deriving DecidableEq, Repr

def UnknownKind.message (e : UnknownKind) : String :=
  "invalid metric kind: " ++ Text.quoted e.tag

end MetricCollector
