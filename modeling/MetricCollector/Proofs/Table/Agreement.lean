import MetricCollector.Proofs.Percentile.Symmetry
import MetricCollector.Proofs.Table.Arrival
import MetricCollector.Proofs.Table.Legible

namespace MetricCollector

open Binary

-- What is reported of a timer that a snapshot shows. There is one percentile for each threshold, of
-- the samples in ascending order.
structure TimerSummary.Reports (r : TimerSummary) (x : Timer) (thresholds : List Threshold) :
    Prop where
  count       : r.count = x.count
  sum         : r.sum = x.sum
  min         : r.min = x.min
  max         : r.max = x.max
  mean        : x.mean? = some r.mean
  percentiles : ∃ sorted, sorted.Perm x.samples.toList ∧
    sorted.Pairwise (rankedLe · · = true) ∧
    List.Forall₂ (fun p q => Percentile.of? sorted q = some p) r.percentiles thresholds

-- What is reported where a snapshot shows this.
structure Summary.Reports (s : Summary) (shown : Snapshot) (thresholds : List Threshold) : Prop where
  series   : ∀ kind, kind ≠ .timer → s.series kind = shown.series kind
  -- A timer without samples is not reported.
  timed    : ∀ k, k ∈ s.series .timer ↔ ∃ x, shown.timers.find? k = some x ∧ 0 < x.count
  counters : ∀ k c x, s.counters.find? k = some c → shown.counters.find? k = some x →
    c.value = x.value ∧ c.total = x.total
  gauges   : ∀ k a x, s.gauges.find? k = some a → shown.gauges.find? k = some x → a = x
  timers   : ∀ k r x, s.timers.find? k = some r → shown.timers.find? k = some x →
    r.Reports x thresholds
  sets     : ∀ k n x, s.sets.find? k = some n → shown.sets.find? k = some x → n = x.size

-- What a snapshot shows after a flush, where one showed this before it.
structure Snapshot.Restarts (s before : Snapshot) : Prop where
  series   : ∀ kind, s.series kind = before.series kind
  counters : ∀ k c x, s.counters.find? k = some c → before.counters.find? k = some x →
    c.value = 0.0 ∧ c.total = x.total
  gauges   : s.gauges = before.gauges
  timers   : ∀ k x, s.timers.find? k = some x →
    x.samples = #[] ∧ x.count = 0 ∧ x.sum = 0.0 ∧ x.min = infinity ∧ x.max = -infinity
  sets     : ∀ k x, s.sets.find? k = some x → x.toList = []

namespace Percentile

variable {sorted : List Float} {thresholds : List Threshold}

theorem forall₂_ofAll (some : sorted ≠ []) (thresholds : List Threshold) :
    List.Forall₂ (fun p q => of? sorted q = .some p) (ofAll sorted thresholds) thresholds := by
  induction thresholds
  case nil => exact .nil
  case cons q thresholds ih =>
    obtain ⟨p, hp⟩ := Option.isSome_iff_exists.mp (isSome_of? some q)
    rw [ofAll, List.filterMap_cons_some hp]
    exact .cons hp ih

theorem eq_ofAll {ps : List Percentile}
    (h : List.Forall₂ (fun p q => of? sorted q = some p) ps thresholds) :
    ps = ofAll sorted thresholds := by
  induction h
  case nil => rfl
  case cons hp _ ih => rw [ofAll, List.filterMap_cons_some hp, ih, ofAll]

end Percentile

namespace Timer

variable {x : Timer} {xs : List Float} {thresholds : List Threshold} {r r' : TimerSummary}

-- There is one way to sort the samples.
theorem eq_sorted {sorted : List Float} (perm : sorted.Perm x.samples.toList)
    (ascending : sorted.Pairwise (rankedLe · · = true)) : sorted = x.sorted := by
  rw [Timer.sorted, ← mergeSort_eq_of_perm perm]
  exact (List.mergeSort_of_pairwise ascending).symm

theorem reports_of_summary? (h : x.Describes xs) (reported : x.summary? thresholds = some r) :
    r.Reports x thresholds := by
  have some : x.samples.toList ≠ [] := fun none => by
    rw [(summary?_eq_none_iff h thresholds).mpr (h.samples.symm.trans none)] at reported
    cases reported
  obtain ⟨mean, known, rfl⟩ := Option.map_eq_some_iff.mp reported
  have ascending : x.sorted.Pairwise (rankedLe · · = true) :=
    List.pairwise_mergeSort rankedLe_trans rankedLe_total _
  exact ⟨rfl, rfl, rfl, rfl, known, x.sorted, List.mergeSort_perm _ _, ascending,
    Percentile.forall₂_ofAll (sorted_ne_nil some) thresholds⟩

theorem reports_unique (h : r.Reports x thresholds) (h' : r'.Reports x thresholds) : r = r' := by
  obtain ⟨count, sum, min, max, mean, sorted, perm, ascending, percentiles⟩ := h
  obtain ⟨count', sum', min', max', mean', sorted', perm', ascending', percentiles'⟩ := h'
  rw [eq_sorted perm ascending] at percentiles
  rw [eq_sorted perm' ascending'] at percentiles'
  have means := Option.some.inj (mean.symm.trans mean')
  have same := (Percentile.eq_ofAll percentiles).trans (Percentile.eq_ofAll percentiles').symm
  cases r
  cases r'
  simp_all

end Timer

-- What a snapshot shows leaves no choice of what is reported.
theorem Summary.Reports.unique {s s' : Summary} {shown : Snapshot} {thresholds : List Threshold}
    (h : s.Reports shown thresholds) (h' : s'.Reports shown thresholds)
    (timestamp : s.timestamp = s'.timestamp) (interval : s.interval = s'.interval) : s = s' := by
  have keys (kind : Kind) (other : kind ≠ .timer) : s.series kind = s'.series kind :=
    (h.series kind other).trans (h'.series kind other).symm
  have known (kind : Kind) (other : kind ≠ .timer) : s.series kind ⊆ shown.series kind :=
    fun k mem => h.series kind other ▸ mem
  have counters : s.counters = s'.counters := by
    refine OrderedMap.eq_of_told (fun (x : Counter) c => c.value = x.value ∧ c.total = x.total)
      (fun x a b ha hb => ?_) (keys .counter nofun) (known .counter nofun) h.counters h'.counters
    cases a; cases b; simp_all
  have gauges : s.gauges = s'.gauges :=
    OrderedMap.eq_of_told (fun x a => a = x) (fun x a b ha hb => ha.trans hb.symm)
      (keys .gauge nofun) (known .gauge nofun) h.gauges h'.gauges
  have timers : s.timers = s'.timers := by
    have timed (k : Series) : k ∈ s.series .timer ↔ k ∈ s'.series .timer :=
      (h.timed k).trans (h'.timed k).symm
    refine OrderedMap.eq_of_told (fun x r => r.Reports x thresholds)
      (fun x a b => Timer.reports_unique) (OrderedMap.keys_eq_of_mem_iff timed)
      (fun k mem => ?_) h.timers h'.timers
    obtain ⟨x, found, _⟩ := (h.timed k).mp mem
    exact OrderedMap.mem_keys_iff.mpr (by simp [found])
  have sets : s.sets = s'.sets :=
    OrderedMap.eq_of_told (fun (x : Members) n => n = x.size) (fun x a b ha hb => ha.trans hb.symm)
      (keys .set nofun) (known .set nofun) h.sets h'.sets
  cases s
  cases s'
  simp_all

namespace Table

theorem reports_flush (log : List Event) (thresholds : List Threshold) (timestamp : Timestamp)
    (interval : Span) (takenAt : Timestamp) :
    ((after log).flush thresholds timestamp interval).1.Reports
      ((after log).snapshot .whole takenAt) thresholds := by
  rw [snapshot_whole]
  refine ⟨fun kind other => ?series, fun k => ?timed, fun k c x found shown => ?counters,
    fun k a x found shown => ?gauges, fun k r x found shown => ?timers,
    fun k n x found shown => ?sets⟩
  case series =>
    cases kind
    case timer => exact absurd rfl other
    case gauge => rfl
    case counter | set => exact OrderedMap.keys_map _ _
  case timed =>
    rw [Summary.series, OrderedMap.mem_keys_iff, find?_timers_flush, ne_eq,
      Option.bind_eq_none_iff]
    simp only [Timer.summary?, Option.map_eq_none_iff, Timer.mean?]
    simp [Nat.pos_iff_ne_zero]
  case counters =>
    rw [flush, summary, OrderedMap.find?_map, shown] at found
    cases found
    exact ⟨rfl, rfl⟩
  case gauges => exact Option.some.inj (found.symm.trans shown)
  case timers =>
    rw [find?_timers_flush, shown] at found
    exact Timer.reports_of_summary? (describes_of_find?_timers shown) found
  case sets =>
    rw [flush, summary, OrderedMap.find?_map, shown] at found
    cases found
    rfl

theorem restarts_flush (t : Table) (thresholds : List Threshold) (timestamp : Timestamp)
    (interval : Span) (takenAt later : Timestamp) :
    ((t.flush thresholds timestamp interval).2.snapshot .whole later).Restarts
      (t.snapshot .whole takenAt) := by
  rw [snapshot_whole, snapshot_whole]
  refine ⟨fun kind => ?series, fun k c x found shown => ?counters, rfl, fun k x found => ?timers,
    fun k x found => ?sets⟩
  case series =>
    cases kind
    case gauge => rfl
    case counter | timer | set => exact OrderedMap.keys_map _ _
  case counters =>
    rw [flush, flushed, OrderedMap.find?_map, shown] at found
    cases found
    exact ⟨rfl, rfl⟩
  case timers =>
    rw [flush, flushed, OrderedMap.find?_map, Option.map_eq_some_iff] at found
    obtain ⟨_, _, rfl⟩ := found
    exact ⟨rfl, rfl, rfl, rfl, rfl⟩
  case sets =>
    rw [flush, flushed, OrderedMap.find?_map, Option.map_eq_some_iff] at found
    obtain ⟨_, _, rfl⟩ := found
    rfl

-- The snapshot before a flush determines the report, and so no report differs from what the
-- snapshot shows. The last part is about the snapshot after it.
theorem snapshots_agree_with_reports (log : List Event) (thresholds : List Threshold)
    (timestamp : Timestamp) (interval : Span) (takenAt later : Timestamp) :
    let before := (after log).snapshot .whole takenAt
    let flush := (after log).flush thresholds timestamp interval
    (∀ s : Summary, s = flush.1 ↔
      s.timestamp = timestamp ∧ s.interval = interval ∧ s.Reports before thresholds) ∧
    (flush.2.snapshot .whole later).Restarts before := by
  intro before flush
  have reports : flush.1.Reports before thresholds := reports_flush ..
  refine ⟨fun s => ⟨?_, ?_⟩, restarts_flush ..⟩
  · rintro rfl
    exact ⟨rfl, rfl, reports⟩
  · rintro ⟨stamp, span, told⟩
    exact told.unique reports stamp span

end Table
end MetricCollector
