import MetricCollector.Proofs.Table.Row

namespace MetricCollector

-- The observations of a series since it last appeared. The recent ones are those since the last
-- flush.
structure Life where
  past   : List Sighting := []
  recent : List Sighting := []

namespace Life

-- The life of a series that is not there.
def none : Life := {}

def sightings (l : Life) : List Sighting :=
  l.past ++ l.recent

-- The latest instant of all observations, which need not be that of the last one.
def latest? (os : List Sighting) : Option Instant :=
  os.foldl (fun seen o => some ((seen.getD o.time).later o.time)) Option.none

-- The life after one more observation.
def observed (l : Life) (o : Sighting) : Life :=
  { l with recent := l.recent ++ [o] }

-- The life after a flush.
def flushed (l : Life) : Life where
  past   := l.sightings
  recent := []

-- How the life of series `k` goes on with an event.
def undergo (k : Series) (l : Life) : Table.Event → Life
  | .observe m now       => if m.isSound ∧ m.series = k then l.observed ⟨m, now⟩ else l
  | .flush ..            => l.flushed
  | .expire now interval => if Row.isIdle (latest? l.sightings) now interval then .none else l
  | .snapshot ..         => l

-- The life of series `k` at the end of a log.
def of (k : Series) (log : List Table.Event) : Life :=
  log.foldl (undergo k) .none

@[simp]
theorem of_nil (k : Series) : of k [] = .none := rfl

@[simp]
theorem of_append_singleton (k : Series) (log : List Table.Event) (e : Table.Event) :
    of k (log ++ [e]) = (of k log).undergo k e := by
  simp [of]

@[simp]
theorem recent_observed (l : Life) (o : Sighting) : (l.observed o).recent = l.recent ++ [o] := rfl

@[simp]
theorem sightings_observed (l : Life) (o : Sighting) :
    (l.observed o).sightings = l.sightings ++ [o] := by
  simp [observed, sightings]

@[simp]
theorem sightings_flushed (l : Life) : l.flushed.sightings = l.sightings :=
  List.append_nil _

@[simp]
theorem latest?_append_singleton (os : List Sighting) (o : Sighting) :
    latest? (os ++ [o]) = some (((latest? os).getD o.time).later o.time) := by
  simp [latest?]

theorem latest?_eq_none_iff {os : List Sighting} : latest? os = .none ↔ os = [] := by
  induction os using List.reverseRecOn
  case nil => simp [latest?]
  case append_singleton os o _ => simp

theorem le_latest? {os : List Sighting} {o : Sighting} {seen : Instant} (h : o ∈ os)
    (hs : latest? os = some seen) : o.time ≤ seen := by
  induction os using List.reverseRecOn generalizing seen
  case nil => cases h
  case append_singleton os o' ih =>
    rw [latest?_append_singleton, Option.some.injEq] at hs
    subst hs
    simp only [Instant.later, Instant.le_def, Instant.lt_def]
    cases hl : latest? os
    case none =>
      rw [latest?_eq_none_iff] at hl
      have : o = o' := by simpa [hl] using h
      simp [this]
    case some seen' =>
      simp only [Option.getD_some]
      cases List.mem_append.mp h
      case inl h =>
        have := Instant.le_def.mp (ih h hl)
        split <;> omega
      case inr h =>
        have : o = o' := by simpa using h
        subst this
        split <;> omega

-- Whatever is part of a life was applied, and to this series.
theorem sound_of_mem {k : Series} {log : List Table.Event} {o : Sighting}
    (h : o ∈ (of k log).sightings) : o.metric.isSound = true ∧ o.series = k := by
  induction log using List.reverseRecOn
  case nil => cases h
  case append_singleton log e ih =>
    rw [of_append_singleton] at h
    cases e <;> simp only [undergo] at h
    case observe m now =>
      split at h
      case isFalse => exact ih h
      case isTrue sound =>
        rw [sightings_observed] at h
        cases List.mem_append.mp h
        case inl h => exact ih h
        case inr h => exact List.mem_singleton.mp h ▸ sound
    case flush => exact ih (sightings_flushed _ ▸ h)
    case expire =>
      split at h
      case isTrue => cases h
      case isFalse => exact ih h
    case snapshot => exact ih h

def counter? (l : Life) : Option Counter :=
  if Sighting.ofKind .counter l.sightings = [] then .none
  else some
    { value := total (Sighting.increments l.recent),
      total := total (Sighting.increments l.sightings) }

-- The last value counts.
def gauge? (l : Life) : Option Float :=
  (Sighting.values .gauge l.sightings).getLast?

-- What the recent values of one kind accumulate to, if there was ever a value.
def gathered? {α : Type} (k : Kind) (add : α → Float → α) (empty : α) (l : Life) : Option α :=
  if Sighting.ofKind k l.sightings = [] then .none
  else some ((Sighting.values k l.recent).foldl add empty)

-- The row of a series with this life.
def row (l : Life) : Row where
  counter?  := l.counter?
  gauge?    := l.gauge?
  timer?    := l.gathered? .timer Timer.add .empty
  set?      := l.gathered? .set Members.add .empty
  lastSeen? := latest? l.sightings

theorem ofKind_recent_eq_nil {k : Kind} {l : Life} (h : Sighting.ofKind k l.sightings = []) :
    Sighting.ofKind k l.recent = [] := by
  simp only [sightings, Sighting.ofKind_append, List.append_eq_nil_iff] at h
  exact h.right

variable {l : Life} {o : Sighting}

theorem counter?_observed :
    (l.observed o).counter? =
      if o.kind = .counter then
        some ((l.counter?.getD {}).add o.metric.value o.metric.sampleRate)
      else l.counter? := by
  by_cases hk : o.kind = .counter
  case neg => simp [counter?, Sighting.increments_singleton, Sighting.ofKind_singleton, hk]
  case pos =>
    simp only [counter?, recent_observed, sightings_observed, Sighting.ofKind_append,
      Sighting.ofKind_singleton, Sighting.increments_append, Sighting.increments_singleton, hk,
      if_true, List.append_eq_nil_iff, List.cons_ne_nil, and_false, if_false,
      total_append_singleton, Option.some.injEq]
    split
    case isTrue hn =>
      have hs := Sighting.increments_eq_nil_iff.mpr hn
      have hr := Sighting.increments_eq_nil_iff.mpr (ofKind_recent_eq_nil hn)
      rw [hs, hr]
      rfl
    case isFalse => rfl

theorem gauge?_observed :
    (l.observed o).gauge? = if o.kind = .gauge then some o.metric.value else l.gauge? := by
  by_cases hk : o.kind = .gauge <;> simp [gauge?, Sighting.values_singleton, hk]

theorem gathered?_observed {α : Type} {k : Kind} {add : α → Float → α} {empty : α} :
    (l.observed o).gathered? k add empty =
      if o.kind = k then some (add ((l.gathered? k add empty).getD empty) o.metric.value)
      else l.gathered? k add empty := by
  by_cases hk : o.kind = k
  case neg => simp [gathered?, Sighting.values_singleton, Sighting.ofKind_singleton, hk]
  case pos =>
    simp only [gathered?, recent_observed, sightings_observed, Sighting.ofKind_append,
      Sighting.ofKind_singleton, Sighting.values_append, Sighting.values_singleton, hk, if_true,
      List.append_eq_nil_iff, List.cons_ne_nil, and_false, if_false, List.foldl_append,
      List.foldl_cons, List.foldl_nil, Option.some.injEq]
    split
    case isTrue hn =>
      rw [Sighting.values_eq_nil_iff.mpr (ofKind_recent_eq_nil hn)]
      rfl
    case isFalse => rfl

theorem row_observed : (l.observed o).row = (l.row.accumulate o.metric).see o.time := by
  simp only [row, counter?_observed, gauge?_observed, gathered?_observed, sightings_observed,
    latest?_append_singleton]
  have hk : o.kind = o.metric.kind := rfl
  cases h : o.metric.kind <;> simp [Row.accumulate, Row.see, hk, h]

theorem row_flushed : l.flushed.row = l.row.flushed := by
  simp only [row, Row.flushed, counter?, gauge?, gathered?, sightings_flushed]
  congr 1
  case e_counter? => split <;> rfl
  case e_timer?   => split <;> rfl
  case e_set?     => split <;> rfl

theorem row_undergo (l : Life) (k : Series) (e : Table.Event) :
    (l.undergo k e).row = l.row.undergo k e := by
  cases e
  case observe m now =>
    simp only [undergo, Row.undergo]
    split
    case isTrue => exact row_observed
    case isFalse => rfl
  case flush => exact row_flushed
  case expire now interval =>
    simp only [undergo, Row.undergo]
    split
    case isTrue idle =>
      have : Row.isIdle l.row.lastSeen? now interval = true := idle
      simp only [this, if_true]
      rfl
    case isFalse awake =>
      have : ¬ Row.isIdle l.row.lastSeen? now interval = true := awake
      simp only [this, if_false, Bool.false_eq_true]
  case snapshot => rfl

end Life

namespace Table

-- The table is what the lives of its series come to.
theorem row_after_eq_row_life (log : List Event) (k : Series) :
    (after log).row k = (Life.of k log).row := by
  induction log using List.reverseRecOn
  case nil => rfl
  case append_singleton log e ih =>
    rw [after_append_singleton, row_undergo, ih, Life.of_append_singleton, Life.row_undergo]

variable {log : List Event} {k : Series}

theorem find?_counters_after : (after log).counters.find? k = (Life.of k log).counter? :=
  congrArg Row.counter? (row_after_eq_row_life log k)

theorem find?_gauges_after : (after log).gauges.find? k = (Life.of k log).gauge? :=
  congrArg Row.gauge? (row_after_eq_row_life log k)

theorem find?_timers_after :
    (after log).timers.find? k = (Life.of k log).gathered? .timer Timer.add .empty :=
  congrArg Row.timer? (row_after_eq_row_life log k)

theorem find?_sets_after :
    (after log).sets.find? k = (Life.of k log).gathered? .set Members.add .empty :=
  congrArg Row.set? (row_after_eq_row_life log k)

theorem find?_lastSeen_after :
    (after log).lastSeen.find? k = Life.latest? (Life.of k log).sightings :=
  congrArg Row.lastSeen? (row_after_eq_row_life log k)

-- A life goes on with the observations of the series that the table applies.
theorem life_observe (log : List Event) (k : Series) (m : Metric) (now : Instant) :
    Life.of k (log ++ [.observe m now]) =
      if ((after log).apply m now).1 = true ∧ m.series = k then (Life.of k log).observed ⟨m, now⟩
      else Life.of k log := by
  rw [Life.of_append_singleton, Life.undergo, apply_fst]

-- A life ends with the expiry that removes the series from the table.
theorem life_expire (log : List Event) (k : Series) (now : Instant) (interval : Span) :
    Life.of k (log ++ [.expire now interval]) =
      if (after log).removes now interval k then .none else Life.of k log := by
  rw [Life.of_append_singleton, Life.undergo, removes_eq_isIdle, find?_lastSeen_after]

end Table
end MetricCollector
