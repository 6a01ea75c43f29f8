import MetricCollector.Proofs.Binary.Equality
import MetricCollector.Proofs.Decimal.Plain
import MetricCollector.Proofs.Table.Arrival
import MetricCollector.Proofs.Wire.Grammar
import MetricCollector.Wire.Packet

namespace MetricCollector

open Binary

theorem OrderedSet.size_eq_card {α : Type} [Ord α] [Std.TransOrd α] [DecidableEq α]
    (s : OrderedSet α) : s.size = s.toList.toFinset.card :=
  (List.toFinset_card_of_nodup s.nodup).symm

theorem Members.size_foldl_add {xs : List Float} (finite : AllFinite xs) :
    (xs.foldl add .empty).size = xs.toFinset.card := by
  have texts : (xs.foldl add .empty).toList.toFinset = xs.toFinset.image plainText := by
    ext text
    simp [mem_foldl_add, OrderedSet.empty]
  have injective : Set.InjOn plainText (xs.toFinset : Set Float) := by
    intro x hx y hy same
    have hx := finite x (List.mem_toFinset.mp hx)
    exact (Decimal.plainText_inj hx (finite y (List.mem_toFinset.mp hy))).mp same
  rw [OrderedSet.size_eq_card, texts, Finset.card_image_of_injOn injective]

-- However two values are written, their members are the same if they are equal, except for the
-- zeros.
theorem Record.member_eq_iff {text text' : List Char} {x y : Float} (hx : IsValue text x)
    (hy : IsValue text' y) :
    plainText x = plainText y ↔ (x == y) = true ∧ ¬AreBothZeros x y := by
  rw [Decimal.plainText_inj hx.2 hy.2, beq_iff (isNaN_eq_false hx.2) (isNaN_eq_false hy.2)]
  exact eq_iff_place_eq

namespace Table

variable {log : List Event} {k : Series}

theorem mem_keys_sets_iff :
    k ∈ (after log).sets.keys ↔ ∃ o ∈ (Life.of k log).sightings, o.kind = .set := by
  rw [OrderedMap.mem_keys_iff, find?_sets_after, ne_eq, Life.gathered?_eq_none_iff,
    Sighting.ofKind_eq_nil_iff]
  simp

theorem eq_card_of_find?_sets_flush {n : Nat} {thresholds : List Threshold}
    {timestamp : Timestamp} {interval : Span}
    (h : ((after log).flush thresholds timestamp interval).1.sets.find? k = some n) :
    n = (Sighting.values .set (Life.of k log).recent).toFinset.card := by
  simp only [flush, summary, OrderedMap.find?_map, Option.map_eq_some_iff] at h
  obtain ⟨members, found, rfl⟩ := h
  rw [find?_sets_after, Life.gathered?, Option.ite_none_left_eq_some] at found
  rw [← Option.some.inj found.2]
  exact Members.size_foldl_add (allFinite_values log k)

-- The first three parts say what the life of a series is in terms of what the table does, and the
-- fourth when a report has a set of the series. The fifth is about values as records write them,
-- and the last says what is counted.
theorem cardinality_counts_numbers (log : List Event) (k : Series) (thresholds : List Threshold)
    (timestamp : Timestamp) (interval : Span) :
    let life := Life.of k log
    let values := Sighting.values .set life.recent
    let report := ((after log).flush thresholds timestamp interval).1
    (∀ m now, Life.of k (log ++ [.observe m now]) =
      if ((after log).apply m now).1 = true ∧ m.series = k then life.observed ⟨m, now⟩ else life) ∧
    (∀ now idle, Life.of k (log ++ [.expire now idle]) =
      if (after log).removes now idle k then .none else life) ∧
    Life.of k (log ++ [.flush thresholds timestamp interval]) = ⟨life.sightings, []⟩ ∧
    (k ∈ report.sets.keys ↔ ∃ o ∈ life.sightings, o.kind = .set) ∧
    (∀ text text' x y, Record.IsValue text x → Record.IsValue text' y →
      ((x == y) = true ↔ value x = value y) ∧
      (plainText x = plainText y ↔ (x == y) = true ∧ ¬AreBothZeros x y)) ∧
    ∀ n, report.sets.find? k = some n →
      (¬(0.0 ∈ values ∧ -0.0 ∈ values) → n = distinct values) ∧
      (0.0 ∈ values → -0.0 ∈ values → n = distinct values + 1) := by
  intro life values report
  have keys : report.sets.keys = (after log).sets.keys := OrderedMap.keys_map _ _
  refine ⟨life_observe log k, life_expire log k, ?flushed, ?reported, ?written, ?counted⟩
  case flushed  => exact Life.of_append_singleton ..
  case reported => exact keys ▸ mem_keys_sets_iff
  case written  =>
    exact fun _ _ _ _ hx hy => ⟨beq_iff_value_eq hx.2 hy.2, Record.member_eq_iff hx hy⟩
  case counted =>
    intro n found
    rw [eq_card_of_find?_sets_flush found]
    exact card_toFinset (allFinite_values log k)

-- Two records of one value, written with different signs.
theorem cardinality_counts_both_zeros :
    let records := Packet.parse none "a:0|s\na:-0|s".toUTF8.toList
    let log : List Event := (records.filterMap Except.toOption).map (.observe · ⟨0⟩)
    let values := Sighting.values .set (Life.of ⟨"a", .empty⟩ log).recent
    ((after log).flush [] ⟨0, 0⟩ ⟨0⟩).1.sets.find? ⟨"a", .empty⟩ = some 2 ∧ distinct values = 1 := by
  intro records log values
  exact ⟨by decide +kernel, by decide +kernel⟩

end Table
end MetricCollector
