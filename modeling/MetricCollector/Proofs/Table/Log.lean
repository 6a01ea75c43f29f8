import Mathlib.Data.List.Induction
import MetricCollector.Table.Flush
import MetricCollector.Table.Snapshot

namespace MetricCollector

-- An observation together with the instant at which it was applied.
structure Sighting where
  metric : Metric
  time   : Instant

namespace Sighting

def series (o : Sighting) : Series :=
  o.metric.series

def kind (o : Sighting) : Kind :=
  o.metric.kind

def ofKind (k : Kind) (os : List Sighting) : List Sighting :=
  os.filter (·.kind = k)

-- The values of one kind, in the order in which they were observed.
def values (k : Kind) (os : List Sighting) : List Float :=
  (ofKind k os).map (·.metric.value)

-- What observations of counters add up to counts for `1 / rate` of each value.
def increments (os : List Sighting) : List Float :=
  (ofKind .counter os).map fun o => o.metric.value / o.metric.sampleRate

@[simp]
theorem ofKind_append (k : Kind) (os os' : List Sighting) :
    ofKind k (os ++ os') = ofKind k os ++ ofKind k os' :=
  List.filter_append ..

theorem ofKind_singleton (k : Kind) (o : Sighting) :
    ofKind k [o] = if o.kind = k then [o] else [] := by
  simp [ofKind, List.filter_cons]

theorem values_singleton (k : Kind) (o : Sighting) :
    values k [o] = if o.kind = k then [o.metric.value] else [] := by
  rw [values, ofKind_singleton]
  split <;> rfl

theorem increments_singleton (o : Sighting) :
    increments [o] = if o.kind = .counter then [o.metric.value / o.metric.sampleRate] else [] := by
  rw [increments, ofKind_singleton]
  split <;> rfl

theorem ofKind_eq_nil_iff {k : Kind} {os : List Sighting} :
    ofKind k os = [] ↔ ∀ o ∈ os, o.kind ≠ k := by
  simp [ofKind]

theorem values_eq_nil_iff {k : Kind} {os : List Sighting} : values k os = [] ↔ ofKind k os = [] :=
  List.map_eq_nil_iff

theorem increments_eq_nil_iff {os : List Sighting} : increments os = [] ↔ ofKind .counter os = [] :=
  List.map_eq_nil_iff

theorem mem_ofKind {k : Kind} {o : Sighting} {os : List Sighting} :
    o ∈ ofKind k os ↔ o ∈ os ∧ o.kind = k := by
  simp [ofKind]

@[simp]
theorem values_append (k : Kind) (os os' : List Sighting) :
    values k (os ++ os') = values k os ++ values k os' := by
  simp [values]

@[simp]
theorem increments_append (os os' : List Sighting) :
    increments (os ++ os') = increments os ++ increments os' := by
  simp [increments]

end Sighting

-- Numbers added up from left to right.
def total (xs : List Float) : Float :=
  xs.foldl (· + ·) 0.0

@[simp]
theorem total_append_singleton (xs : List Float) (x : Float) :
    total (xs ++ [x]) = total xs + x := by
  simp [total]

namespace Table

inductive Event
  | observe (m : Metric) (now : Instant)
  | flush (thresholds : List Threshold) (timestamp : Timestamp) (interval : Span)
  | expire (now : Instant) (interval : Span)
  | snapshot (v : View) (takenAt : Timestamp)

-- The table after an event. Snapshots only look.
def undergo (t : Table) : Event → Table
  | .observe m now                        => (t.apply m now).2
  | .flush thresholds timestamp interval  => (t.flush thresholds timestamp interval).2
  | .expire now interval                  => (t.expire now interval).2
  | .snapshot ..                          => t

-- The table that a log makes of an empty one.
def after (log : List Event) : Table :=
  log.foldl undergo .empty

@[simp]
theorem after_nil : after [] = .empty := rfl

theorem after_append (log more : List Event) :
    after (log ++ more) = more.foldl undergo (after log) :=
  List.foldl_append ..

@[simp]
theorem after_append_singleton (log : List Event) (e : Event) :
    after (log ++ [e]) = (after log).undergo e :=
  after_append log [e]

namespace Event

-- The observation that an event applies. One that is not sound is not applied.
def sighting? : Event → Option Sighting
  | observe m now => if m.isSound then some ⟨m, now⟩ else none
  | _             => none

-- The observation that an event handles, applied or not.
def metric? : Event → Option Metric
  | observe m _ => some m
  | _           => none

def isFlush : Event → Bool
  | flush .. => true
  | _        => false

end Event

-- The observations that were applied in the course of a log.
def sightings (log : List Event) : List Sighting :=
  log.filterMap Event.sighting?

-- The observations that were handled in the course of a log, applied or not.
def metrics (log : List Event) : List Metric :=
  log.filterMap Event.metric?

@[simp]
theorem sightings_append (log more : List Event) :
    sightings (log ++ more) = sightings log ++ sightings more :=
  List.filterMap_append

@[simp]
theorem metrics_append (log more : List Event) :
    metrics (log ++ more) = metrics log ++ metrics more :=
  List.filterMap_append

-- The table tells whether it applied an observation.
theorem apply_fst (t : Table) (m : Metric) (now : Instant) : (t.apply m now).1 = m.isSound := by
  unfold apply
  split
  case _ sound => exact sound.symm
  case _ unsound => simpa using unsound

end Table
end MetricCollector
