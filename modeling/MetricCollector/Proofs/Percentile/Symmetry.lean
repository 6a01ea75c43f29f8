import MetricCollector.Proofs.Percentile.Selection

namespace MetricCollector

open Binary

theorem place_hundred : place (-100.0) = -place 100.0 := by decide +kernel

theorem isThreshold_iff {x : Float} : isThreshold x = true ↔
    x.isFinite = true ∧ place x ≠ 0 ∧ -place 100.0 ≤ place x ∧ place x ≤ place 100.0 := by
  have zero : place 0.0 = 0 := by decide
  have number {y : Float} (h : y.isFinite = true) := isNaN_eq_false h
  simp only [isThreshold, Bool.and_eq_true, decide_eq_true_eq, and_assoc]
  refine and_congr_right fun finite => ?_
  rw [le_iff (number (by decide +kernel)) (number finite),
    le_iff (number finite) (number (by decide +kernel)), place_hundred, bne, Bool.not_eq_true',
    ← Bool.not_eq_true, beq_iff (number finite) (number (by decide)), zero]

namespace Threshold

variable {p q t : Threshold} {m n : ℕ}

-- As many percents, counted from the other end.
def opposite (t : Threshold) : Threshold where
  value := -t.value
  valid := by
    obtain ⟨finite, other, low, high⟩ := isThreshold_iff.mp t.valid
    have flipped := place_neg finite
    obtain ⟨m, q, parts⟩ := t.exists_parts
    refine isThreshold_iff.mpr ⟨isFinite_of_parts (parts_neg parts), ?_⟩
    omega

theorem isBottom_opposite (t : Threshold) : t.opposite.isBottom = !t.isBottom := by
  obtain ⟨m, q, parts⟩ := t.exists_parts
  obtain ⟨m', q', parts'⟩ := t.opposite.exists_parts
  have flipped : Binary.parts t.opposite.value = _ := parts_neg parts
  rw [flipped] at parts'
  injection parts' with same
  exact same.symm

theorem units_opposite (t : Threshold) : t.opposite.units = t.units := by
  rw [units, units, opposite, abs_neg_eq t.isFinite_value]

theorem rank_opposite (t : Threshold) (n : ℕ) : t.opposite.rank n = t.rank n := by
  rw [rank, rank, units_opposite]

section monotone

theorem pos_of_le (top : 0.0 < p.value) (le : p.value ≤ q.value) : 0.0 < q.value := by
  have number {t : Threshold} := isNaN_eq_false t.isFinite_value
  have zero : (0.0 : Float).isNaN = false := by decide
  rw [lt_iff zero number] at *
  rw [le_iff number number] at le
  omega

-- Rounding the product keeps the order of thresholds.
theorem units_le_units (top : 0.0 < p.value) (le : p.value ≤ q.value) : p.units ≤ q.units := by
  have number {t : Threshold} := isNaN_eq_false t.isFinite_value
  by_cases less : p.value < q.value
  case pos =>
    have positive := (value_lt_iff (by decide) p.isFinite_value).mpr top
    have less := (value_lt_iff p.isFinite_value q.isFinite_value).mpr less
    rw [value_zero] at positive
    have products := p.isNearest_product.value_le_value q.isNearest_product (by
      rw [abs_of_pos positive, abs_of_pos (positive.trans less)]
      linarith)
    rw [units_eq, units_eq]
    exact Nat.floor_le_floor (by linarith)
  case neg =>
    have zero : place 0.0 = 0 := by decide
    rw [lt_iff (isNaN_eq_false (by decide)) number, zero] at top
    rw [le_iff number number] at le
    rw [lt_iff number number] at less
    rw [units, units, eq_of_place_eq (x := p.value) (y := q.value) (by omega) (by omega)]

theorem rank_le_rank (units : p.units ≤ q.units) (le : m ≤ n) : p.rank m ≤ q.rank n := by
  have product := Nat.mul_le_mul units le
  have quotient : (p.units * m + 100 * unitsPerPercent - 1) / (100 * unitsPerPercent) ≤
      (q.units * n + 100 * unitsPerPercent - 1) / (100 * unitsPerPercent) :=
    Nat.div_le_div_right (by omega)
  simp only [rank]
  omega

end monotone

-- Where the percentile of `n` samples stands among them.
def index (t : Threshold) (n : ℕ) : ℕ :=
  if t.isBottom then n - t.rank n else t.rank n - 1

theorem index_lt (t : Threshold) (some : n ≠ 0) : t.index n < n := by
  have := t.rank_bounds some
  rw [index]
  split <;> omega

theorem index_le_index (top : 0.0 < p.value) (le : p.value ≤ q.value) (n : ℕ) :
    p.index n ≤ q.index n := by
  have ranks := rank_le_rank (units_le_units top le) (le_refl n)
  rw [index, index, isBottom_eq_false top, isBottom_eq_false (pos_of_le top le)]
  exact Nat.sub_le_sub_right ranks 1

theorem index_hundred (h : t.value = 100.0) (some : n ≠ 0) : t.index n = n - 1 := by
  rw [index, isBottom_hundred h, rank_eq (units_hundred h) some]
  rfl

theorem index_neg_hundred (h : t.value = -100.0) (some : n ≠ 0) : t.index n = 0 := by
  rw [index, isBottom_neg_hundred h, rank_eq (units_neg_hundred h) some, if_pos rfl, Nat.sub_self]

theorem boundary?_select {sorted : List Float} (ne : sorted ≠ []) :
    t.boundary? (t.select sorted) = sorted[t.index sorted.length]? := by
  rw [index]
  split
  case isTrue bottom => exact boundary?_drop bottom
  case isFalse top   => exact boundary?_take (Bool.eq_false_iff.mpr top) ne

-- The opposite of a threshold takes the same place from the other end.
theorem index_opposite (t : Threshold) (some : n ≠ 0) : t.opposite.index n = n - 1 - t.index n := by
  have := t.rank_bounds some
  rw [index, index, rank_opposite, isBottom_opposite]
  cases t.isBottom <;> simp <;> omega

end Threshold

namespace Percentile

section

variable {sorted : List Float} (ne : sorted ≠ []) (t : Threshold)

include ne in
theorem isSome_of? : (of? sorted t).isSome := by
  have inside := t.index_lt (mt List.length_eq_zero_iff.mp ne)
  rw [of?, Option.isSome_map, Threshold.boundary?_select ne, List.getElem?_eq_getElem inside]
  rfl

-- The percentile of samples of which there is at least one.
def ofSamples (sorted : List Float) (ne : sorted ≠ []) (t : Threshold) : Percentile :=
  (of? sorted t).get (isSome_of? ne t)

theorem of?_eq_some : of? sorted t = some (ofSamples sorted ne t) :=
  (Option.some_get _).symm

theorem ofSamples_spec : (ofSamples sorted ne t).count = t.rank sorted.length ∧
    sorted[t.index sorted.length]? = some (ofSamples sorted ne t).value := by
  obtain ⟨v, boundary, same⟩ := Option.map_eq_some_iff.mp (of?_eq_some ne t)
  rw [Threshold.boundary?_select ne] at boundary
  rw [← same]
  exact ⟨rfl, boundary⟩

theorem count_ofSamples : (ofSamples sorted ne t).count = t.rank sorted.length :=
  (ofSamples_spec ne t).1

theorem value_mem : (ofSamples sorted ne t).value ∈ sorted :=
  List.mem_of_getElem? (ofSamples_spec ne t).2

end

section ascending

variable {sorted : List Float} {i j : ℕ} {x y : Float}

-- Of samples in ascending order none is below those before it.
theorem le_of_index_le (finite : AllFinite sorted) (ascending : sorted.Pairwise (· ≤ ·))
    (hx : sorted[i]? = some x) (hy : sorted[j]? = some y) (le : i ≤ j) : x ≤ y := by
  obtain ⟨inside, rfl⟩ := List.getElem?_eq_some_iff.mp hx
  obtain ⟨inside', rfl⟩ := List.getElem?_eq_some_iff.mp hy
  rcases le.lt_or_eq with less | rfl
  · exact List.pairwise_iff_getElem.mp ascending i j inside inside' less
  · exact le_self (finite _ (List.getElem_mem inside))

theorem value_le_value (finite : AllFinite sorted) (ascending : sorted.Pairwise (· ≤ ·))
    (ne : sorted ≠ []) {p q : Threshold} (le : p.index sorted.length ≤ q.index sorted.length) :
    (ofSamples sorted ne p).value ≤ (ofSamples sorted ne q).value :=
  le_of_index_le finite ascending (ofSamples_spec ne p).2 (ofSamples_spec ne q).2 le

end ascending

theorem count_le_count {sorted others : List Float} (ne : sorted ≠ []) (ne' : others ≠ [])
    {p q : Threshold} (units : p.units ≤ q.units) (longer : sorted.length ≤ others.length) :
    (ofSamples sorted ne p).count ≤ (ofSamples others ne' q).count := by
  rw [count_ofSamples, count_ofSamples]
  exact Threshold.rank_le_rank units longer

-- How the percentiles of samples compare with one another.
structure AreBalanced (sorted : List Float) (ne : sorted ≠ []) : Prop where
  given    : ∀ t, of? sorted t = some (ofSamples sorted ne t)
  top      : ∀ p q : Threshold, 0.0 < p.value → p.value ≤ q.value →
    (ofSamples sorted ne p).count ≤ (ofSamples sorted ne q).count ∧
      (ofSamples sorted ne p).value ≤ (ofSamples sorted ne q).value
  bottom   : ∀ p q : Threshold, 0.0 < p.value → p.value ≤ q.value →
    (ofSamples sorted ne p.opposite).count ≤ (ofSamples sorted ne q.opposite).count ∧
      (ofSamples sorted ne q.opposite).value ≤ (ofSamples sorted ne p.opposite).value
  opposite : ∀ t, (ofSamples sorted ne t.opposite).count = (ofSamples sorted ne t).count ∧
    (ofSamples sorted ne t.opposite).value =
      (ofSamples sorted.reverse (mt List.reverse_eq_nil_iff.mp ne) t).value
  inside   : ∀ t, sorted.head ne ≤ (ofSamples sorted ne t).value ∧
    (ofSamples sorted ne t).value ≤ sorted.getLast ne
  all      : ∀ t, (t.value = 100.0 → (ofSamples sorted ne t).value = sorted.getLast ne) ∧
    (t.value = -100.0 → (ofSamples sorted ne t).value = sorted.head ne)
  more     : ∀ t others (ne' : others ≠ []), sorted.length ≤ others.length →
    (ofSamples sorted ne t).count ≤ (ofSamples others ne' t).count
  equal    : ∀ t x, (∀ y ∈ sorted, (y == x) = true) → ((ofSamples sorted ne t).value == x) = true

-- Rounding the rank and counting from either end agree with one another, for all samples and every
-- pair of thresholds.
theorem percentiles_are_balanced {sorted : List Float} (ne : sorted ≠ [])
    (finite : AllFinite sorted) (ascending : sorted.Pairwise (· ≤ ·)) : AreBalanced sorted ne := by
  have some : sorted.length ≠ 0 := mt List.length_eq_zero_iff.mp ne
  have first : sorted[0]? = .some (sorted.head ne) := by
    rw [← List.head?_eq_getElem?, List.head?_eq_some_head ne]
  have last : sorted[sorted.length - 1]? = .some (sorted.getLast ne) := by
    rw [← List.getLast?_eq_getElem?, List.getLast?_eq_some_getLast ne]
  have own (t : Threshold) := (ofSamples_spec ne t).2
  have inside (t : Threshold) := t.index_lt some
  refine ⟨of?_eq_some ne, ?top, ?bottom, ?opposite, ?inside, ?all, ?more, ?equal⟩
  case top =>
    intro p q top less
    exact ⟨count_le_count ne ne (Threshold.units_le_units top less) le_rfl,
      value_le_value finite ascending ne (Threshold.index_le_index top less _)⟩
  case bottom =>
    intro p q top less
    have units : p.opposite.units ≤ q.opposite.units := by
      rw [p.units_opposite, q.units_opposite]
      exact Threshold.units_le_units top less
    refine ⟨count_le_count ne ne units le_rfl, value_le_value finite ascending ne ?_⟩
    rw [p.index_opposite some, q.index_opposite some]
    exact Nat.sub_le_sub_left (Threshold.index_le_index top less _) _
  case opposite =>
    intro t
    have mirrored := (ofSamples_spec (mt List.reverse_eq_nil_iff.mp ne) t).2
    rw [List.length_reverse, List.getElem?_reverse (inside t), ← t.index_opposite some,
      own] at mirrored
    rw [count_ofSamples, count_ofSamples, t.rank_opposite]
    exact ⟨rfl, Option.some.inj mirrored⟩
  case inside =>
    exact fun t => ⟨le_of_index_le finite ascending first (own t) (Nat.zero_le _),
      le_of_index_le finite ascending (own t) last (Nat.le_sub_one_of_lt (inside t))⟩
  case all =>
    intro t
    constructor <;> intro whole <;> have own := own t
    case left =>
      rw [Threshold.index_hundred whole some, last] at own
      exact (Option.some.inj own).symm
    case right =>
      rw [Threshold.index_neg_hundred whole some, first] at own
      exact (Option.some.inj own).symm
  case more => exact fun t others ne' longer => count_le_count ne ne' le_rfl longer
  case equal => exact fun t x same => same _ (value_mem ne t)

theorem percentiles_are_balanced_of_three :
    AreBalanced [1.0, 2.0, 3.0] (List.cons_ne_nil _ _) := by
  have finite : AllFinite [1.0, 2.0, 3.0] := by
    rw [AllFinite]
    decide +kernel
  exact percentiles_are_balanced (List.cons_ne_nil _ _) finite (by decide +kernel)

end Percentile
end MetricCollector
