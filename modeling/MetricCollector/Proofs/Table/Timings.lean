import Mathlib.Data.List.Pairwise
import MetricCollector.Proofs.Binary.Extremes
import MetricCollector.Proofs.Table.Life

namespace MetricCollector

open Binary

theorem lt_infinity {x : Float} (h : x.isFinite = true) : x < infinity := by
  have top : place infinity = 2047 * 2 ^ 52 := by decide +kernel
  have number : infinity.isNaN = false := by decide +kernel
  rw [lt_iff (isNaN_eq_false h) number, top]
  exact (place_bounds h).right

theorem neg_infinity_lt {x : Float} (h : x.isFinite = true) : -infinity < x := by
  have bottom : place (-infinity) = -(2047 * 2 ^ 52) := by decide +kernel
  have number : (-infinity).isNaN = false := by decide +kernel
  rw [lt_iff number (isNaN_eq_false h), bottom]
  exact (place_bounds h).left

-- The statistics of a timer are those of some samples, which the timer keeps.
structure Timer.Describes (t : Timer) (xs : List Float) : Prop where
  samples : t.samples.toList = xs
  count   : t.count = xs.length
  sum     : t.sum = total xs
  min     : xs ≠ [] → Least t.min xs
  max     : xs ≠ [] → Greatest t.max xs

namespace Timer

theorem describes_empty : empty.Describes [] where
  samples := rfl
  count   := rfl
  sum     := rfl
  min     := fun h => absurd rfl h
  max     := fun h => absurd rfl h

-- The first sample replaces the infinities that an empty timer has for extremes.
theorem describes_add {t : Timer} {xs : List Float} {y : Float} (finite : AllFinite (xs ++ [y]))
    (start : xs = [] → t = empty) (h : t.Describes xs) : (t.add y).Describes (xs ++ [y]) := by
  refine ⟨?samples, ?count, ?sum, fun _ => ?min, fun _ => ?max⟩
  case samples => simp [add, h.samples]
  case count   => simp [add, h.count]
  case sum     => simp [add, h.sum]
  case min =>
    by_cases hx : xs = []
    case pos =>
      have : (t.add y).min = y := by simp [add, start hx, empty, lt_infinity finite.last]
      subst hx
      exact this.symm ▸ Extreme.singleton (le_self finite.last)
    case neg => exact Least.append_singleton finite (h.min hx)
  case max =>
    by_cases hx : xs = []
    case pos =>
      have : (t.add y).max = y := by simp [add, start hx, empty, neg_infinity_lt finite.last]
      subst hx
      exact this.symm ▸ Extreme.singleton (le_self finite.last)
    case neg => exact Greatest.append_singleton finite (h.max hx)

theorem describes_foldl_add {xs : List Float} (finite : AllFinite xs) :
    (xs.foldl add empty).Describes xs := by
  induction xs using List.reverseRecOn
  case nil => exact describes_empty
  case append_singleton xs y ih =>
    rw [List.foldl_append]
    refine describes_add finite (fun hx => ?start) (ih finite.append_left)
    subst hx
    rfl

end Timer

-- The ends of the sorted samples are their extremes.
section

variable {t : Timer} {xs : List Float} {x : Float}

theorem Timer.mem_sorted : x ∈ t.sorted ↔ x ∈ t.samples.toList :=
  List.mem_mergeSort

theorem Timer.length_sorted : t.sorted.length = t.samples.toList.length :=
  List.length_mergeSort _

theorem Timer.pairwise_sorted : t.sorted.Pairwise (place · ≤ place ·) :=
  (List.pairwise_mergeSort rankedLe_trans rankedLe_total _).imp place_le_of_rankedLe

theorem least_head_sorted (finite : AllFinite t.samples.toList) (h : t.sorted.head? = some x) :
    Least x t.samples.toList := by
  have mem : x ∈ t.samples.toList := Timer.mem_sorted.mp (List.mem_of_mem_head? h)
  refine ⟨mem, fun y hy => (finite.comparesBy_place x mem y hy).mpr ?_⟩
  have hs : t.sorted ≠ [] := List.ne_nil_of_mem (Timer.mem_sorted.mpr mem)
  rw [List.head?_eq_some_head hs, Option.some.injEq] at h
  exact h ▸ Timer.pairwise_sorted.rel_head (Timer.mem_sorted.mpr hy)

theorem greatest_getLast_sorted (finite : AllFinite t.samples.toList)
    (h : t.sorted.getLast? = some x) : Greatest x t.samples.toList := by
  have mem : x ∈ t.samples.toList := Timer.mem_sorted.mp (List.mem_of_getLast? h)
  refine ⟨mem, fun y hy => (finite.comparesBy_place y hy x mem).mpr ?_⟩
  have hs : t.sorted ≠ [] := List.ne_nil_of_mem (Timer.mem_sorted.mpr mem)
  rw [List.getLast?_eq_some_getLast hs, Option.some.injEq] at h
  exact h ▸ Timer.pairwise_sorted.rel_getLast (Timer.mem_sorted.mpr hy)

end

namespace Threshold

variable {t : Threshold}

theorem rank_bounds (t : Threshold) {n : Nat} (h : n ≠ 0) : 1 ≤ t.rank n ∧ t.rank n ≤ n := by
  simp only [rank]
  omega

-- All percents of the samples are all the samples.
theorem rank_eq (h : t.units = 100 * unitsPerPercent) {n : Nat} (hn : n ≠ 0) : t.rank n = n := by
  simp only [rank, h, unitsPerPercent]
  omega

theorem select_eq (h : t.units = 100 * unitsPerPercent) {sorted : List Float} (hs : sorted ≠ []) :
    t.select sorted = sorted := by
  simp only [select, rank_eq h (mt List.length_eq_zero_iff.mp hs)]
  split <;> simp

theorem select_ne_nil (t : Threshold) {sorted : List Float} (hs : sorted ≠ []) :
    t.select sorted ≠ [] := by
  have hn : sorted.length ≠ 0 := mt List.length_eq_zero_iff.mp hs
  have ⟨_, _⟩ := t.rank_bounds hn
  simp only [select, ne_eq, ← List.length_eq_zero_iff]
  split <;> simp only [List.length_drop, List.length_take] <;> omega

theorem boundary?_ne_none (t : Threshold) {selected : List Float} (h : selected ≠ []) :
    t.boundary? selected ≠ none := by
  simp only [boundary?]
  split <;> simpa

theorem units_hundred (h : t.value = 100.0) : t.units = 100 * unitsPerPercent := by
  rw [units, h]
  decide +kernel

theorem units_neg_hundred (h : t.value = -100.0) : t.units = 100 * unitsPerPercent := by
  rw [units, h]
  decide +kernel

theorem isBottom_hundred (h : t.value = 100.0) : t.isBottom = false := by
  rw [isBottom, h]
  decide +kernel

theorem isBottom_neg_hundred (h : t.value = -100.0) : t.isBottom = true := by
  rw [isBottom, h]
  decide +kernel

end Threshold

-- A percentile answers a threshold for so many samples with these extremes. The outermost
-- thresholds select every sample.
structure Percentile.Answers (p : Percentile) (q : Threshold) (count : Nat) (min max : Float) :
    Prop where
  threshold : p.threshold = q.value
  label     : p.label = q.label
  count_pos : 1 ≤ p.count
  count_le  : p.count ≤ count
  top       : q.value = 100.0 → (p.value == max) = true
  bottom    : q.value = -100.0 → (p.value == min) = true

namespace Timer

variable {t : Timer} {xs : List Float}

theorem sorted_ne_nil (h : t.samples.toList ≠ []) : t.sorted ≠ [] := by
  rwa [ne_eq, ← List.length_eq_zero_iff, length_sorted, List.length_eq_zero_iff]

theorem percentile_answers (finite : AllFinite xs) (h : t.Describes xs) (hx : xs ≠ [])
    (q : Threshold) :
    ∃ p, Percentile.of? t.sorted q = some p ∧ p.Answers q t.count t.min t.max := by
  have ⟨samples, count, _, min, max⟩ := h
  subst samples
  have hs := sorted_ne_nil hx
  have ⟨pos, le⟩ := q.rank_bounds (mt List.length_eq_zero_iff.mp hx)
  have ⟨x, boundary⟩ := Option.ne_none_iff_exists'.mp
    (q.boundary?_ne_none (q.select_ne_nil hs))
  simp only [Percentile.of?, boundary, Option.map_some, Option.some.injEq, exists_eq_left',
    length_sorted]
  refine ⟨rfl, rfl, pos, count.symm ▸ le, fun top => ?top, fun bottom => ?bottom⟩
  case top =>
    rw [Threshold.select_eq (Threshold.units_hundred top) hs, Threshold.boundary?,
      Threshold.isBottom_hundred top] at boundary
    exact Greatest.beq finite (greatest_getLast_sorted finite boundary) (max hx)
  case bottom =>
    rw [Threshold.select_eq (Threshold.units_neg_hundred bottom) hs, Threshold.boundary?,
      Threshold.isBottom_neg_hundred bottom] at boundary
    exact Least.beq finite (least_head_sorted finite boundary) (min hx)

-- No threshold is skipped, as each selects at least one sample.
theorem percentiles_answer (finite : AllFinite xs) (h : t.Describes xs) (hx : xs ≠ [])
    (thresholds : List Threshold) :
    List.Forall₂ (fun p q => p.Answers q t.count t.min t.max)
      (Percentile.ofAll t.sorted thresholds) thresholds := by
  induction thresholds
  case nil => exact .nil
  case cons q thresholds ih =>
    have ⟨p, hp, answers⟩ := percentile_answers finite h hx q
    rw [Percentile.ofAll, List.filterMap_cons_some hp]
    exact .cons answers ih

theorem summary?_eq_none_iff (h : t.Describes xs) (thresholds : List Threshold) :
    t.summary? thresholds = none ↔ xs = [] := by
  rw [summary?, Option.map_eq_none_iff, mean?, h.count]
  simp

end Timer

-- What a report tells about the samples of a timer.
structure TimerSummary.Describes (r : TimerSummary) (xs : List Float)
    (thresholds : List Threshold) : Prop where
  count_pos   : 0 < r.count
  count       : r.count = xs.length
  sum         : r.sum = total xs
  min         : Least r.min xs
  max         : Greatest r.max xs
  mean        : r.mean = r.sum / Float.ofNat r.count
  percentiles : List.Forall₂ (fun p q => p.Answers q r.count r.min r.max) r.percentiles thresholds

theorem Timer.summary?_describes {t : Timer} {xs : List Float} (finite : AllFinite xs)
    (h : t.Describes xs) {thresholds : List Threshold} {r : TimerSummary}
    (hr : t.summary? thresholds = some r) : r.Describes xs thresholds := by
  have hx : xs ≠ [] := fun hx => by simp [(summary?_eq_none_iff h thresholds).mpr hx] at hr
  have pos : 0 < t.count := h.count ▸ List.length_pos_iff.mpr hx
  simp only [summary?, mean?, Nat.ne_of_gt pos, if_false, Option.map_some, Option.some.injEq] at hr
  subst hr
  exact ⟨pos, h.count, h.sum, h.min hx, h.max hx, rfl, percentiles_answer finite h hx thresholds⟩

namespace Table

variable {log : List Event} {k : Series}

theorem allFinite_values {kind : Kind} (log : List Event) (k : Series) :
    AllFinite (Sighting.values kind (Life.of k log).recent) := by
  intro x hx
  have ⟨o, ho, hx⟩ := List.mem_map.mp hx
  have ho := (Sighting.mem_ofKind.mp ho).left
  have ⟨sound, _⟩ := Life.sound_of_mem (List.mem_append_right (Life.of k log).past ho)
  rw [Metric.isSound, Bool.and_eq_true] at sound
  exact hx ▸ sound.left

theorem describes_of_find?_timers {t : Timer} (h : (after log).timers.find? k = some t) :
    t.Describes (Sighting.values .timer (Life.of k log).recent) := by
  rw [find?_timers_after, Life.gathered?] at h
  split at h
  case isTrue => cases h
  case isFalse =>
    cases h
    exact Timer.describes_foldl_add (allFinite_values log k)

theorem find?_timers_flush (log : List Event) (k : Series) (thresholds : List Threshold)
    (timestamp : Timestamp) (interval : Span) :
    ((after log).flush thresholds timestamp interval).1.timers.find? k =
      ((after log).timers.find? k).bind (·.summary? thresholds) :=
  OrderedMap.find?_filterMap _ _ k

theorem describes_of_find?_timers_flush {thresholds : List Threshold} {timestamp : Timestamp}
    {interval : Span} {r : TimerSummary}
    (h : ((after log).flush thresholds timestamp interval).1.timers.find? k = some r) :
    r.Describes (Sighting.values .timer (Life.of k log).recent) thresholds := by
  rw [find?_timers_flush] at h
  obtain ⟨t, found, summed⟩ := Option.bind_eq_some_iff.mp h
  exact Timer.summary?_describes (allFinite_values log k) (describes_of_find?_timers found) summed

theorem mem_keys_timers_flush_iff {thresholds : List Threshold} {timestamp : Timestamp}
    {interval : Span} :
    k ∈ ((after log).flush thresholds timestamp interval).1.timers.keys ↔
      ∃ o ∈ (Life.of k log).recent, o.kind = .timer := by
  rw [OrderedMap.mem_keys_iff, find?_timers_flush]
  have recent : Sighting.values .timer (Life.of k log).recent = [] ↔
      ∀ o ∈ (Life.of k log).recent, o.kind ≠ .timer :=
    Sighting.values_eq_nil_iff.trans Sighting.ofKind_eq_nil_iff
  cases hf : (after log).timers.find? k
  case none =>
    rw [find?_timers_after, Life.gathered?, ite_eq_left_iff] at hf
    have : Sighting.ofKind .timer (Life.of k log).sightings = [] := by simpa using hf
    have := Sighting.ofKind_eq_nil_iff.mp (Life.ofKind_recent_eq_nil this)
    simpa using this
  case some t =>
    have h := describes_of_find?_timers hf
    rw [Option.bind_some, ne_eq, Timer.summary?_eq_none_iff h, recent]
    simp

-- The first part is about every timer that the table holds, the others are about what a flush
-- reports.
theorem flush_reports_timers (log : List Event) (k : Series) (thresholds : List Threshold)
    (timestamp : Timestamp) (interval : Span) :
    let recent := (Life.of k log).recent
    let report := ((after log).flush thresholds timestamp interval).1
    (∀ t, (after log).timers.find? k = some t → t.Describes (Sighting.values .timer recent)) ∧
    (k ∈ report.timers.keys ↔ ∃ o ∈ recent, o.kind = .timer) ∧
    (∀ r, report.timers.find? k = some r →
      r.Describes (Sighting.values .timer recent) thresholds) := by
  intro recent report
  refine ⟨?stored, ?reported, ?report⟩
  case stored   => exact fun _ => describes_of_find?_timers
  case reported => exact mem_keys_timers_flush_iff
  case report =>
    intro r hr
    rw [find?_timers_flush, Option.bind_eq_some_iff] at hr
    have ⟨t, ht, hr⟩ := hr
    exact Timer.summary?_describes (allFinite_values log k) (describes_of_find?_timers ht) hr

end Table
end MetricCollector
