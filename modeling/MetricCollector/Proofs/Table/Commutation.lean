import MetricCollector.Proofs.Table.Expiry
import MetricCollector.Proofs.Table.Legible

namespace MetricCollector

namespace Summary

-- A report without the series that fail a test.
def keep (s : Summary) (p : Series → Bool) : Summary :=
  { s with
    counters := s.counters.filter p
    gauges   := s.gauges.filter p
    timers   := s.timers.filter p
    sets     := s.sets.filter p }

theorem keep_congr {s : Summary} {p q : Series → Bool}
    (h : ∀ kind, ∀ k ∈ s.series kind, p k = q k) : s.keep p = s.keep q := by
  simp only [keep]
  rw [OrderedMap.filter_congr (h .counter), OrderedMap.filter_congr (h .gauge),
    OrderedMap.filter_congr (h .timer), OrderedMap.filter_congr (h .set)]

-- A report of a time without observations, after this report.
structure IsQuietAfter (s first : Summary) : Prop where
  counters : s.counters = first.counters.map fun c => { c with value := 0.0 }
  gauges   : s.gauges = first.gauges
  timers   : s.timers = .empty
  sets     : s.sets = first.sets.map fun _ => 0

end Summary

namespace Table

section

variable {thresholds thresholds' : List Threshold} {timestamp timestamp' : Timestamp}
  {interval interval' : Span}

theorem flushed_flushed (t : Table) : t.flushed.flushed = t.flushed := by
  simp only [flushed, OrderedMap.map_map, Counter.flushed_flushed]

theorem isQuietAfter_flushed (t : Table) :
    (t.flushed.summary thresholds' timestamp' interval').IsQuietAfter
      (t.summary thresholds timestamp interval) where
  counters := by
    simp only [summary, flushed, OrderedMap.map_map]
    rfl
  gauges   := rfl
  timers   := by
    simp only [summary, flushed]
    exact OrderedMap.filterMap_map_eq_empty _ fun _ => rfl
  sets     := by
    simp only [summary, flushed, OrderedMap.map_map]
    rfl

theorem flushed_keep (t : Table) (p : Series → Bool) : (t.keep p).flushed = t.flushed.keep p := by
  simp only [keep, flushed, OrderedMap.map_filter]

theorem summary_keep (t : Table) (p : Series → Bool) :
    (t.keep p).summary thresholds timestamp interval =
      (t.summary thresholds timestamp interval).keep p := by
  simp only [keep, summary, Summary.keep, OrderedMap.map_filter, OrderedMap.filterMap_filter]

theorem held_keep (t : Table) (p : Series → Bool) :
    (t.keep p).held = t.held.filter (p · = true) := by
  simp only [held, keep, OrderedMap.keySet_filter, Finset.filter_union]

theorem held_flushed (t : Table) : t.flushed.held = t.held := by
  ext k
  simp only [mem_held_iff, flushed, OrderedMap.find?_map, ne_eq, Option.map_eq_none_iff]

-- A flush does not change when a series was last seen, which is all that an expiry looks at.
theorem expire_flushed (t : Table) (now : Instant) (idle : Span) :
    t.flushed.expire now idle = ((t.expire now idle).1, (t.expire now idle).2.flushed) := by
  unfold expire
  split
  case isTrue  => rfl
  case isFalse =>
    rw [flushed_keep]
    rfl

-- An interval of zero removes no series, and so keeps them all.
theorem expire_snd_eq_keep (t : Table) (now : Instant) (idle : Span) :
    (t.expire now idle).2 = t.keep fun k => !t.removes now idle k := by
  simp only [removes_eq_isIdle, Row.isIdle]
  by_cases zero : idle = .zero
  case pos =>
    subst zero
    have all (k : Series) : (!(!Span.isZero .zero && (t.lastSeen.find? k).any fun seen =>
        decide (Span.zero < now.since seen))) = true := rfl
    simp only [all, keep, OrderedMap.filter_eq_self, implies_true, expire_zero]
  case neg =>
    have timed : idle.isZero = false := by
      simpa [Span.isZero] using fun none => zero (congrArg Span.mk none)
    rw [expire_snd zero]
    simp only [timed, Bool.not_false, Bool.true_and, isStale]

-- A report of what an expiry leaves is the report of everything, without what it has removed.
theorem summary_expire (t : Table) (now : Instant) (idle : Span) :
    (t.expire now idle).2.summary thresholds timestamp interval =
      (t.summary thresholds timestamp interval).keep fun k => k ∈ (t.expire now idle).2.held := by
  simp only [expire_snd_eq_keep, summary_keep, held_keep]
  refine Summary.keep_congr fun kind k mem => ?_
  have known : k ∈ t.held := mem_held_of_mem_summary mem
  simp [known]

end

-- Logs that differ in nothing but the order of a flush and an expiry make the same table.
theorem after_flush_expire (log more : List Event) (thresholds : List Threshold)
    (timestamp : Timestamp) (interval : Span) (now : Instant) (idle : Span) :
    after (log ++ .flush thresholds timestamp interval :: .expire now idle :: more) =
      after (log ++ .expire now idle :: .flush thresholds timestamp interval :: more) := by
  have swapped : ((after log).flushed.expire now idle).2 = ((after log).expire now idle).2.flushed :=
    congrArg Prod.snd (expire_flushed ..)
  simp only [after_append, List.foldl_cons, undergo, flush, swapped]

theorem flushes_settle_and_commute (t : Table) (thresholds : List Threshold)
    (timestamp : Timestamp) (interval : Span) :
    let first := t.flush thresholds timestamp interval
    (∀ thresholds' timestamp' interval',
      let second := first.2.flush thresholds' timestamp' interval'
      second.2 = first.2 ∧ second.1.IsQuietAfter first.1) ∧
    ∀ now idle,
      let early := t.expire now idle
      let late  := first.2.expire now idle
      let rest  := early.2.flush thresholds timestamp interval
      rest.2 = late.2 ∧ early.1 = late.1 ∧ rest.1 = first.1.keep fun k => k ∈ late.2.held := by
  intro first
  refine ⟨fun _ _ _ => ⟨flushed_flushed t, isQuietAfter_flushed t⟩, fun now idle => ?_⟩
  intro early late rest
  have commute : late = (early.1, early.2.flushed) := expire_flushed t now idle
  rw [commute, held_flushed]
  exact ⟨rfl, rfl, summary_expire t now idle⟩

end Table
end MetricCollector
