import MetricCollector.Proofs.Binary.Arithmetic
import MetricCollector.Proofs.Table.Legible
import MetricCollector.Proofs.Table.Timings
import MetricCollector.Proofs.Table.Totals

namespace MetricCollector

open Binary

namespace Binary

section sums

open Float.Model Float.Model.UnpackedFloat

variable {x y : Float}

-- Neither an infinity nor what is no number comes back by adding to it.
theorem isFinite_add_eq_false (h : x.isFinite = false) : (x + y).isFinite = false := by
  have unpacked : x.toModel.unpack.isFinite = false := h
  change (Float.Model.pack
    (UnpackedFloat.add _ x.toModel.unpack y.toModel.unpack)).unpack.isFinite = false
  generalize y.toModel.unpack = v
  cases hx : x.toModel.unpack <;> rw [hx] at unpacked
  case zero | finite => cases unpacked
  case notANumber => cases v <;> simp only [UnpackedFloat.add] <;> decide
  case infinity s =>
    cases v
    case infinity s' => cases s <;> cases s' <;> decide
    all_goals cases s <;> simp only [UnpackedFloat.add] <;> decide

theorem isFinite_of_isSampleRate (h : Metric.isSampleRate x = true) : x.isFinite = true := by
  simp only [Metric.isSampleRate, Bool.and_eq_true, decide_eq_true_eq] at h
  have low : ((0.0 : Float).toModel.unpack.compare x.toModel.unpack == some .lt) = true :=
    decide_eq_true_iff.mp h.1
  have high : (x.toModel.unpack.compare (1.0 : Float).toModel.unpack).any (·.isLE) = true :=
    decide_eq_true_iff.mp h.2
  change x.toModel.unpack.isFinite = true
  cases hx : x.toModel.unpack <;> rw [hx] at low high
  case zero | finite => rfl
  case notANumber => exact absurd high (by decide +kernel)
  case infinity s =>
    cases s
    · exact absurd low (by decide +kernel)
    · exact absurd high (by decide +kernel)

theorem value_pos_of_isSampleRate (h : Metric.isSampleRate x = true) : 0 < value x := by
  have finite := isFinite_of_isSampleRate h
  have zero : parts 0.0 = .finite false 0 leastExponent := by decide +kernel
  simp only [Metric.isSampleRate, Bool.and_eq_true, decide_eq_true_eq] at h
  have := (value_lt_iff (isFinite_of_parts zero) finite).mpr h.1
  rwa [value_of_parts zero, if_neg Bool.false_ne_true, Nat.cast_zero, zero_mul] at this

end sums

end Binary

-- How large a number may be so that very many such numbers can be added up.
def moderate : ℚ := 2 ^ (970 : ℤ)

def maxTerms : ℕ := 2 ^ 53

-- Finite numbers that are neither too large nor too many for their sum.
structure AreModerate (xs : List Float) : Prop where
  finite : AllFinite xs
  small  : ∀ x ∈ xs, |value x| ≤ moderate
  few    : xs.length ≤ maxTerms

theorem AreModerate.append_left {xs ys : List Float} (h : AreModerate (xs ++ ys)) :
    AreModerate xs where
  finite := h.finite.append_left
  small x mem := h.small x (List.mem_append_left _ mem)
  few := by
    have := h.few
    rw [List.length_append] at this
    omega

theorem exists_multiple {n : ℕ} (few : n ≤ maxTerms) :
    ∃ y : Float, y.isFinite = true ∧ value y = n * moderate :=
  exists_of_short (k := n) (by rw [abs_of_nonneg (by positivity)]; exact_mod_cast few) (by decide)
    (by decide)

theorem exists_neg_multiple {n : ℕ} (few : n ≤ maxTerms) :
    ∃ y : Float, y.isFinite = true ∧ value y = -(n * moderate) := by
  obtain ⟨y, hy, value_y⟩ := exists_of_short (k := -n) (i := 970)
    (by rw [abs_neg, abs_of_nonneg (by positivity)]; exact_mod_cast few) (by decide) (by decide)
  exact ⟨y, hy, by rw [value_y, moderate, Int.cast_neg, neg_mul, Int.cast_natCast]⟩

theorem multiple_le {n : ℕ} (few : n ≤ maxTerms) : n * moderate ≤ 2 ^ (1023 : ℤ) := by
  have few : (n : ℚ) ≤ 2 ^ (53 : ℤ) := by exact_mod_cast few
  calc n * moderate ≤ 2 ^ (53 : ℤ) * 2 ^ (970 : ℤ) := by
        rw [moderate]
        gcongr
    _ = 2 ^ (1023 : ℤ) := (zpow_add₀ two_ne_zero _ _).symm

-- Rounding does not pass a multiple of the moderate bound, since the multiples are numbers.
theorem abs_value_le_of_isNearest {x : Float} {r : ℚ} {n : ℕ} (h : IsNearest x r)
    (few : n ≤ maxTerms) (le : |r| ≤ n * moderate) : |value x| ≤ n * moderate := by
  obtain ⟨y, hy, value_y⟩ := exists_multiple few
  obtain ⟨z, hz, value_z⟩ := exists_neg_multiple few
  rw [abs_le] at le ⊢
  exact ⟨value_z ▸ h.le_value hz (value_z ▸ le.1), value_y ▸ h.value_le hy (value_y ▸ le.2)⟩

theorem total_of_areModerate {xs : List Float} (h : AreModerate xs) :
    (total xs).isFinite = true ∧ |value (total xs)| ≤ xs.length * moderate := by
  induction xs using List.reverseRecOn
  case nil =>
    have zero : parts 0.0 = .finite false 0 leastExponent := by decide +kernel
    refine ⟨by decide, ?_⟩
    rw [total, List.foldl_nil, value_of_parts zero]
    simp
  case append_singleton xs x ih =>
    have few : (xs.length : ℕ) + 1 ≤ maxTerms := by simpa using h.few
    obtain ⟨finite, le⟩ := ih h.append_left
    have last : |value x| ≤ moderate := h.small x (by simp)
    have sum : |value (total xs) + value x| ≤ (xs.length + 1 : ℕ) * moderate := by
      push_cast
      linarith [abs_add_le (value (total xs)) (value x)]
    have nearest := isNearest_add finite h.finite.last (sum.trans (multiple_le few))
    rw [total_append_singleton, List.length_append, List.length_singleton]
    exact ⟨nearest.finite, abs_value_le_of_isNearest nearest few sum⟩

namespace Sighting

-- What an observation of a counter adds to it, before rounding.
def share (o : Sighting) : ℚ :=
  value o.metric.value / value o.metric.sampleRate

theorem increment_of_share_le {o : Sighting} (sound : o.metric.isSound = true)
    (counter : o.kind = .counter) (small : |o.share| ≤ moderate) :
    (o.metric.value / o.metric.sampleRate).isFinite = true ∧
      |value (o.metric.value / o.metric.sampleRate)| ≤ moderate := by
  simp only [Metric.isSound, Bool.and_eq_true, Bool.or_eq_true, bne_iff_ne] at sound
  have rate := sound.2.resolve_left (not_not.mpr counter)
  have bound : |o.share| ≤ (1 : ℕ) * moderate := by simpa using small
  have nearest := isNearest_div sound.1 (isFinite_of_isSampleRate rate)
    (value_pos_of_isSampleRate rate).ne' (bound.trans (multiple_le (by decide)))
  refine ⟨nearest.finite, ?_⟩
  simpa using abs_value_le_of_isNearest nearest (by decide) bound

-- What was seen as one kind has sizes that are not too large, and is not too much.
structure AreSmall (kind : Kind) (size : Sighting → ℚ) (os : List Sighting) : Prop where
  small : ∀ o ∈ os, o.kind = kind → |size o| ≤ moderate
  few   : (ofKind kind os).length ≤ maxTerms

variable {os : List Sighting}

theorem areModerate_increments (sound : ∀ o ∈ os, o.metric.isSound = true)
    (h : AreSmall .counter share os) : AreModerate (increments os) := by
  have each : ∀ x ∈ increments os, x.isFinite = true ∧ |value x| ≤ moderate := by
    intro x mem
    obtain ⟨o, source, rfl⟩ := List.mem_map.mp mem
    have ⟨seen, counter⟩ := mem_ofKind.mp source
    exact increment_of_share_le (sound o seen) counter (h.small o seen counter)
  refine ⟨fun x mem => (each x mem).1, fun x mem => (each x mem).2, ?_⟩
  rw [increments, List.length_map]
  exact h.few

theorem areModerate_values (finite : AllFinite (values .timer os))
    (h : AreSmall .timer (value ·.metric.value) os) : AreModerate (values .timer os) := by
  refine ⟨finite, fun x mem => ?_, ?_⟩
  · obtain ⟨o, source, rfl⟩ := List.mem_map.mp mem
    have ⟨seen, timer⟩ := mem_ofKind.mp source
    exact h.small o seen timer
  · rw [values, List.length_map]
    exact h.few

end Sighting

namespace Table

variable {log : List Event} {k : Series} {c c' : Counter}

theorem sound_of_mem_recent {o : Sighting} (mem : o ∈ (Life.of k log).recent) :
    o.metric.isSound = true :=
  (Life.sound_of_mem (List.mem_append_right (Life.of k log).past mem)).1

-- No event makes a total finite again, unless it removes the series.
theorem total_stays_infinite {t : Table} {e : Event} (h : t.counters.find? k = some c)
    (h' : (t.undergo e).counters.find? k = some c') (infinite : c.total.isFinite = false) :
    c'.total.isFinite = false := by
  have row : (t.row k).counter? = some c := h
  have row' : ((t.row k).undergo k e).counter? = some c' :=
    (congrArg Row.counter? (row_undergo t e k)).symm.trans h'
  have kept {r : Row} (same : r.counter? = (t.row k).counter?) (h : r.counter? = some c') :
      c'.total.isFinite = false := by
    rw [same, row, Option.some.injEq] at h
    exact h ▸ infinite
  cases e <;> simp only [Row.undergo] at row'
  case observe m now =>
    split at row'
    case isFalse => exact kept rfl row'
    case isTrue =>
      cases kind : m.kind <;> simp only [Row.accumulate, kind, Row.see] at row'
      case counter =>
        cases row'
        rw [row]
        exact isFinite_add_eq_false infinite
      all_goals exact kept rfl row'
  case flush =>
    rw [Row.flushed, row, Option.map_some, Option.some.injEq] at row'
    exact row' ▸ infinite
  case expire =>
    split at row'
    case isTrue => cases row'
    case isFalse => exact kept rfl row'
  case snapshot => exact kept rfl row'

theorem total_stays_infinite_along {more : List Event} (h : (after log).counters.find? k = some c)
    (present : ∀ mid, mid <+: more → (after (log ++ mid)).counters.find? k ≠ none)
    (infinite : c.total.isFinite = false) :
    ∀ c', (after (log ++ more)).counters.find? k = some c' → c'.total.isFinite = false := by
  induction more using List.reverseRecOn
  case nil =>
    intro c' h'
    rw [List.append_nil, h, Option.some.injEq] at h'
    exact h' ▸ infinite
  case append_singleton more e ih =>
    intro c' h'
    obtain ⟨before, held⟩ := Option.ne_none_iff_exists'.mp (present more (List.prefix_append _ _))
    have still := ih (fun mid part => present mid (part.trans (List.prefix_append _ _))) before held
    rw [← List.append_assoc, after_append_singleton] at h'
    exact total_stays_infinite held h' still

-- Sums are finite as long as what they are made of is not huge. The last part says what becomes of
-- a total that is not.
theorem sums_are_finite (log : List Event) (k : Series) :
    let life := Life.of k log
    (∀ c, (after log).counters.find? k = some c →
      (Sighting.AreSmall .counter Sighting.share life.sightings → c.total.isFinite = true) ∧
      (Sighting.AreSmall .counter Sighting.share life.recent → c.value.isFinite = true)) ∧
    (∀ t, (after log).timers.find? k = some t →
      Sighting.AreSmall .timer (value ·.metric.value) life.recent → t.sum.isFinite = true) ∧
    (∀ c more c', (after log).counters.find? k = some c → c.total.isFinite = false →
      (∀ mid, mid <+: more → (after (log ++ mid)).counters.find? k ≠ none) →
      (after (log ++ more)).counters.find? k = some c' → c'.total.isFinite = false) := by
  intro life
  refine ⟨fun c found => ⟨fun all => ?total, fun recent => ?value⟩, fun t found recent => ?sum,
    fun c more c' found infinite present found' => ?stays⟩
  case total =>
    rw [(counter_of_find? found).2]
    exact (total_of_areModerate
      (Sighting.areModerate_increments (fun _ mem => (Life.sound_of_mem mem).1) all)).1
  case value =>
    rw [(counter_of_find? found).1]
    exact (total_of_areModerate
      (Sighting.areModerate_increments (fun _ mem => sound_of_mem_recent mem) recent)).1
  case sum =>
    rw [(describes_of_find?_timers found).sum]
    exact (total_of_areModerate (Sighting.areModerate_values (allFinite_values log k) recent)).1
  case stays => exact total_stays_infinite_along found present infinite c' found'

-- A value that is finite, but not when it is scaled, and samples whose sum is not.
theorem sums_overflow :
    let records := Packet.parse none "a:1e308|c|@0.1\nt:1e308|ms\nt:1e308|ms".toUTF8.toList
    let log : List Event := (records.filterMap Except.toOption).map (.observe · ⟨0⟩)
    IsFedByPackets log ∧
      ((after log).counters.find? ⟨"a", .empty⟩).map (fun c => (c.value.isFinite, c.total.isFinite)) =
        some (false, false) ∧
      ((after log).timers.find? ⟨"t", .empty⟩).map (·.sum.isFinite) = some false :=
  ⟨isFedByPackets_observe none _ ⟨0⟩, by decide +kernel, by decide +kernel⟩

end Table
end MetricCollector
