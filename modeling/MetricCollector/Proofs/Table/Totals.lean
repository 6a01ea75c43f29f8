import MetricCollector.Proofs.Table.Life

namespace MetricCollector.Table

variable {log : List Event} {k : Series}

theorem mem_keys_counters_iff :
    k ∈ (after log).counters.keys ↔ ∃ o ∈ (Life.of k log).sightings, o.kind = .counter := by
  rw [OrderedMap.mem_keys_iff, find?_counters_after, Life.counter?]
  split
  case isTrue hn  => simpa using Sighting.ofKind_eq_nil_iff.mp hn
  case isFalse hn => simpa using mt Sighting.ofKind_eq_nil_iff.mpr hn

theorem mem_keys_gauges_iff :
    k ∈ (after log).gauges.keys ↔ ∃ o ∈ (Life.of k log).sightings, o.kind = .gauge := by
  rw [OrderedMap.mem_keys_iff, find?_gauges_after, Life.gauge?, ne_eq, List.getLast?_eq_none_iff,
    Sighting.values_eq_nil_iff, Sighting.ofKind_eq_nil_iff]
  simp

theorem counter_of_find? {c : Counter} (h : (after log).counters.find? k = some c) :
    c.value = total (Sighting.increments (Life.of k log).recent) ∧
      c.total = total (Sighting.increments (Life.of k log).sightings) := by
  rw [find?_counters_after, Life.counter?] at h
  split at h
  case isTrue => cases h
  case isFalse =>
    cases h
    exact ⟨rfl, rfl⟩

theorem find?_counters_flush {c : CounterSummary} {thresholds : List Threshold}
    {timestamp : Timestamp} {interval : Span}
    (h : ((after log).flush thresholds timestamp interval).1.counters.find? k = some c) :
    c.total = total (Sighting.increments (Life.of k log).sightings) ∧
      c.value = total (Sighting.increments (Life.of k log).recent) := by
  simp only [flush, summary, OrderedMap.find?_map, Option.map_eq_some_iff] at h
  obtain ⟨counter, found, rfl⟩ := h
  exact (counter_of_find? found).symm

-- The first two parts say what the life of a series is in terms of what the table does. The others
-- say when a report has a counter or a gauge of the series, and what it shows then.
theorem flush_reports_counters_and_gauges (log : List Event) (k : Series)
    (thresholds : List Threshold) (timestamp : Timestamp) (interval : Span) :
    let life := Life.of k log
    let report := ((after log).flush thresholds timestamp interval).1
    (∀ m now, Life.of k (log ++ [.observe m now]) =
      if ((after log).apply m now).1 = true ∧ m.series = k then life.observed ⟨m, now⟩ else life) ∧
    (∀ now idle, Life.of k (log ++ [.expire now idle]) =
      if (after log).removes now idle k then .none else life) ∧
    (k ∈ report.counters.keys ↔ ∃ o ∈ life.sightings, o.kind = .counter) ∧
    (∀ c, report.counters.find? k = some c →
      c.total = total (Sighting.increments life.sightings) ∧
      c.value = total (Sighting.increments life.recent)) ∧
    (k ∈ report.gauges.keys ↔ ∃ o ∈ life.sightings, o.kind = .gauge) ∧
    report.gauges.find? k = (Sighting.values .gauge life.sightings).getLast? := by
  intro life report
  have counters : report.counters.keys = (after log).counters.keys :=
    OrderedMap.keys_map _ _
  refine ⟨?grows, ?ends, ?counted, ?counter, ?gauged, ?gauge⟩
  case grows   => exact life_observe log k
  case ends    => exact life_expire log k
  case counted => exact counters ▸ mem_keys_counters_iff
  case counter => exact fun _ h => find?_counters_flush h
  case gauged  => exact mem_keys_gauges_iff
  case gauge   => exact find?_gauges_after

end MetricCollector.Table
