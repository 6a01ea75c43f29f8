import MetricCollector.Proofs.Table.Run
import MetricCollector.Proofs.Table.Windows

namespace MetricCollector

-- What a report tells about observations of series `k`.
structure Summary.Covers (s : Summary) (thresholds : List Threshold) (k : Series)
    (os : List Sighting) : Prop where
  counter : Sighting.ofKind .counter os ≠ [] →
    ∃ c, s.counters.find? k = some c ∧ c.value = total (Sighting.increments os)
  gauge   : ∀ x, (Sighting.values .gauge os).getLast? = some x → s.gauges.find? k = some x
  timer   : Sighting.ofKind .timer os ≠ [] →
    ∃ r, s.timers.find? k = some r ∧ r.Describes (Sighting.values .timer os) thresholds
  set     : Sighting.ofKind .set os ≠ [] →
    s.sets.find? k = some ((Sighting.values .set os).foldl Members.add .empty).size

namespace Table

def Outcome.summary? : Outcome → Option Summary
  | reported s => some s
  | _          => none

-- The summaries that a log reports from a table on.
def reportsFrom (t : Table) (log : List Event) : List Summary :=
  (steps t log).filterMap (·.outcome.summary?)

-- The summaries that a log reports from the empty table on.
def reports (log : List Event) : List Summary :=
  reportsFrom .empty log

variable {t : Table} {log : List Event}

theorem reportsFrom_append (t : Table) (log more : List Event) :
    reportsFrom t (log ++ more) = reportsFrom t log ++ reportsFrom (log.foldl undergo t) more := by
  rw [reportsFrom, steps_append, List.filterMap_append]
  rfl

theorem reports_append (log more : List Event) :
    reports (log ++ more) = reports log ++ reportsFrom (after log) more :=
  reportsFrom_append .empty log more

theorem reportsFrom_eq_nil (quiet : ∀ e ∈ log, e.isFlush = false) : reportsFrom t log = [] := by
  induction log generalizing t
  case nil => rfl
  case cons e log ih =>
    have ⟨first, rest⟩ := List.forall_mem_cons.mp quiet
    cases e
    case flush => cases first
    case observe | expire | snapshot => exact ih rest

theorem length_reportsFrom (t : Table) (log : List Event) :
    (reportsFrom t log).length = log.countP Event.isFlush := by
  induction log generalizing t
  case nil => rfl
  case cons e log ih =>
    rw [List.countP_cons, ← ih (t.undergo e)]
    cases e <;> rfl

theorem covers_recent (log : List Event) (k : Series) (thresholds : List Threshold)
    (timestamp : Timestamp) (interval : Span) :
    ((after log).flush thresholds timestamp interval).1.Covers thresholds k
      (Life.of k log).recent := by
  have holds := holds_recent log k
  refine ⟨fun observed => ?counter, holds.gauge, fun observed => ?timer, fun observed => ?set⟩
  case counter =>
    obtain ⟨c, found, value⟩ := holds.counter observed
    exact ⟨⟨c.value, c.total⟩, by simp [flush, summary, OrderedMap.find?_map, found], value⟩
  case timer =>
    have reported : k ∈ ((after log).flush thresholds timestamp interval).1.timers.keys :=
      mem_keys_timers_flush_iff.mpr (by simpa [Sighting.ofKind_eq_nil_iff] using observed)
    obtain ⟨r, found⟩ := Option.ne_none_iff_exists'.mp (OrderedMap.mem_keys_iff.mp reported)
    exact ⟨r, found, describes_of_find?_timers_flush found⟩
  case set => simp [flush, summary, OrderedMap.find?_map, holds.set observed]

end Table
end MetricCollector
