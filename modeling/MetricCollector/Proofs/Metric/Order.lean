import Mathlib.Data.List.Basic
import MetricCollector.Collection.OrderedMap
import MetricCollector.Metric.Series

namespace MetricCollector

theorem compare_string_eq_lt {s t : String} : compare s t = .lt ↔ s < t :=
  compareOfLessAndEq_eq_lt

theorem compare_strings_eq_lt {ss ts : List String} : compare ss ts = .lt ↔ ss < ts := by
  induction ss generalizing ts
  case nil =>
    cases ts
    case nil  => simp [compare, List.compareLex]
    case cons => simp [compare, List.compareLex_nil_cons, List.nil_lt_cons]
  case cons s ss ih =>
    cases ts
    case nil => simp [compare, List.compareLex]
    case cons t ts =>
      have cons : compare (s :: ss) (t :: ts) = (compare s t).then (compare ss ts) :=
        List.compareLex_cons_cons
      rw [cons, Ordering.then_eq_lt, compare_string_eq_lt, ih, Std.compare_eq_iff_eq,
        List.cons_lt_cons_iff]

namespace Series

-- By name, and by the tags one after the other where the names are the same.
def Precedes (s s' : Series) : Prop :=
  s.name < s'.name ∨ s.name = s'.name ∧ s.tags.toList < s'.tags.toList

theorem compare_eq_lt_iff_precedes {s s' : Series} : compare s s' = .lt ↔ s.Precedes s' := by
  have names : compareOn name s s' = compare s.name s'.name := rfl
  have tags : compareOn (·.tags.toList) s s' = compare s.tags.toList s'.tags.toList := rfl
  rw [show compare s s' = (compareOn name s s').then (compareOn (·.tags.toList) s s') from rfl,
    Ordering.then_eq_lt, names, tags, compare_string_eq_lt, compare_strings_eq_lt,
    Std.compare_eq_iff_eq, Precedes]

theorem precedes_keys {α : Type} (m : OrderedMap Series α) : m.keys.Pairwise Precedes :=
  List.pairwise_map.mpr (m.ascending.imp compare_eq_lt_iff_precedes.mp)

end Series
end MetricCollector
