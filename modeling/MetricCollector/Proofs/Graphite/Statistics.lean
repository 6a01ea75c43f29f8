import MetricCollector.Proofs.Graphite.Paths
import MetricCollector.Proofs.Table.Timings

namespace MetricCollector.Graphite

-- What is told about the samples that a threshold selects.
def statisticsOf (q : Threshold) : List Statistic :=
  [.boundary, .count, .sum, .mean].map fun measure => .selected measure q.isBottom q.label

-- What is told about a timer.
def timerStatistics (thresholds : List Threshold) : List Statistic :=
  [.count, .sum, .min, .max, .mean] ++ thresholds.flatMap statisticsOf

def thresholdNames (q : Threshold) : List String :=
  [(if q.value < 0.0 then "lower_" else "upper_") ++ q.label,
   "count_" ++ q.label, "sum_" ++ q.label, "mean_" ++ q.label]

def timerNames (thresholds : List Threshold) : List String :=
  ["count", "sum", "min", "max", "mean"] ++ thresholds.flatMap thresholdNames

variable {thresholds : List Threshold} {s : Statistic}

theorem filterMap_statisticsOf (q : Threshold) :
    (statisticsOf q).filterMap Statistic.name? = thresholdNames q := by
  have bottom : q.isBottom = decide (q.value < 0.0) := rfl
  simp [statisticsOf, Statistic.name?, thresholdNames, bottom]

theorem filterMap_timerStatistics (thresholds : List Threshold) :
    (timerStatistics thresholds).filterMap Statistic.name? = timerNames thresholds := by
  rw [timerStatistics, List.filterMap_append, List.filterMap_flatMap]
  simp only [filterMap_statisticsOf]
  rfl

theorem isLabelled_of_mem (mem : s ∈ timerStatistics thresholds) : s.IsLabelled ∧ s ≠ .level := by
  rw [timerStatistics, List.mem_append, List.mem_flatMap] at mem
  rcases mem with plain | ⟨q, _, mem⟩
  · simp only [List.mem_cons, List.not_mem_nil, or_false] at plain
    rcases plain with rfl | rfl | rfl | rfl | rfl <;> exact ⟨trivial, nofun⟩
  · obtain ⟨measure, _, rfl⟩ := List.mem_map.mp mem
    exact ⟨⟨q, rfl, rfl⟩, nofun⟩

-- A name identifies a statistic, so that no name is there twice unless a statistic is.
theorem nodup_timerNames_iff :
    (timerNames thresholds).Nodup ↔ (timerStatistics thresholds).Nodup := by
  rw [← filterMap_timerStatistics, List.Nodup, List.pairwise_filterMap, List.Nodup]
  refine List.Pairwise.iff_of_mem fun {a b} ha hb => ?_
  obtain ⟨labelled, other⟩ := isLabelled_of_mem ha
  obtain ⟨labelled', _⟩ := isLabelled_of_mem hb
  constructor
  case mp =>
    rintro apart rfl
    obtain ⟨name, named⟩ := Option.ne_none_iff_exists'.mp (mt Statistic.name?_eq_none_iff.mp other)
    exact apart name named name named rfl
  case mpr =>
    rintro different name named _ named' rfl
    exact different (Statistic.eq_of_name labelled labelled' (named.trans named'.symm))

theorem nodup_timerStatistics_iff : (timerStatistics thresholds).Nodup ↔
    thresholds.Pairwise fun p q => (p.value == q.value) = false := by
  refine (nodup_statistics_iff Threshold.isBottom Threshold.label).trans
    (List.Pairwise.iff fun {p q} => ?_)
  rw [← Bool.not_eq_true, ← Threshold.label_eq_iff]
  exact ⟨fun apart same => apart (Threshold.isBottom_eq_of_label same) same,
    fun different _ => different⟩

theorem map_statistic_timerPoints_of_describes {r : TimerSummary} {xs : List Float}
    (h : r.Describes xs thresholds) (k : Series) :
    (timerPoints k r).map (·.statistic) = timerStatistics thresholds := by
  rw [map_statistic_timerPoints, timerStatistics]
  obtain ⟨_, _, _, _, _, _, answers⟩ := h
  generalize r.percentiles = percentiles at answers
  congr 1
  induction answers
  case nil => rfl
  case cons p q _ _ answers _ ih =>
    rw [List.flatMap_cons, List.flatMap_cons, ih, selections, answers.threshold, answers.label]
    rfl

-- The first part says that labels identify thresholds, the next two what a label looks like, and
-- the last two that the names of what is told of a timer are different and that these are the
-- names.
theorem labels_are_unambiguous (s t : Threshold) :
    (s.label = t.label ↔ (s.value == t.value) = true) ∧
    (∃ digits, Threshold.IsUnderscored digits ∧
      t.label.toList = (if t.value < 0.0 then "bottom_".toList else []) ++ digits) ∧
    ("bottom_".toList <+: t.label.toList ↔ t.value < 0.0) ∧
    (∀ thresholds, (timerNames thresholds).Nodup ↔
      thresholds.Pairwise fun p q => (p.value == q.value) = false) ∧
    ∀ log k thresholds timestamp interval r,
      ((Table.after log).flush thresholds timestamp interval).1.timers.find? k = some r →
        (timerPoints k r).filterMap (·.statistic.name?) = timerNames thresholds := by
  have bottom : t.isBottom = true ↔ t.value < 0.0 := decide_eq_true_iff
  refine ⟨Threshold.label_eq_iff, ?shape, ?word, fun thresholds => ?names, ?told⟩
  case shape =>
    simp only [← bottom]
    exact t.exists_isUnderscored
  case word  => exact t.bottomWord_prefix_iff.trans bottom
  case names => exact nodup_timerNames_iff.trans nodup_timerStatistics_iff
  case told =>
    intro log k thresholds timestamp interval r found
    have describes := Table.describes_of_find?_timers_flush found
    rw [← filterMap_timerStatistics, ← map_statistic_timerPoints_of_describes describes k,
      List.filterMap_map]
    rfl

end MetricCollector.Graphite
