import MetricCollector.Percentile.Basic
import MetricCollector.Proofs.Binary.Arithmetic
import MetricCollector.Proofs.Percentile.Labels
import MetricCollector.Proofs.Table.Timings

namespace MetricCollector

open Binary

theorem roundQuotient_awayFromZero_eq (num : Nat) {den : Nat} (pos : 0 < den) :
    roundQuotient .awayFromZero num den = ⌊(num / den : ℚ) + 1 / 2⌋₊ := by
  have whole : (den : ℚ) * (num / den : ℕ) + (num % den : ℕ) = num := by
    exact_mod_cast Nat.div_add_mod num den
  have rest : ((num % den : ℕ) : ℚ) < den := by exact_mod_cast Nat.mod_lt num pos
  have divisor : (0 : ℚ) < den := by exact_mod_cast pos
  have quotient : (num : ℚ) / den = (num / den : ℕ) + (num % den : ℕ) / den := by
    rw [← whole, add_div, mul_div_cancel_left₀ _ divisor.ne']
  have below : ((num % den : ℕ) / den : ℚ) < 1 := (div_lt_one divisor).mpr rest
  have above : (0 : ℚ) ≤ (num % den : ℕ) / den := by positivity
  symm
  rw [Nat.floor_eq_iff (by positivity), quotient, roundQuotient]
  split
  case isTrue less =>
    have less : ((num % den : ℕ) / den : ℚ) < 1 / 2 := by
      rw [div_lt_iff₀ divisor]
      have : (2 * (num % den : ℕ) : ℚ) < den := by exact_mod_cast less
      linarith
    constructor <;> linarith
  case isFalse more =>
    have more : (1 / 2 : ℚ) ≤ (num % den : ℕ) / den := by
      rw [le_div_iff₀ divisor]
      have : (den : ℚ) ≤ 2 * (num % den : ℕ) := by exact_mod_cast not_lt.mp more
      linarith
    rw [ite_self]
    push_cast
    constructor <;> linarith

namespace Threshold

variable {x : Float}

theorem roundHalfUp_eq (h : x.isFinite = true) (nonneg : 0 ≤ Binary.value x) :
    roundHalfUp x = ⌊Binary.value x + 1 / 2⌋₊ := by
  obtain ⟨negative, m, q, parts⟩ := Binary.exists_parts h
  rw [value_eq_ratio parts nonneg, roundHalfUp, parts]
  exact roundQuotient_awayFromZero_eq _ (twoTo_pos _)

theorem abs_value_le (t : Threshold) : |Binary.value t.value| ≤ 100 := by
  have valid := t.valid
  simp only [isThreshold, Bool.and_eq_true, decide_eq_true_eq] at valid
  obtain ⟨⟨finite, _⟩, low, high⟩ := valid
  have hundred : Binary.parts 100.0 = .finite false (25 * 2 ^ 48) (-46) := by decide +kernel
  have minus : Binary.parts (-100.0) = .finite true (25 * 2 ^ 48) (-46) := by decide +kernel
  rw [← value_le_iff (isFinite_of_parts minus) finite, value_of_parts minus] at low
  rw [← value_le_iff finite (isFinite_of_parts hundred), value_of_parts hundred] at high
  norm_num at low high
  exact abs_le.mpr ⟨low, high⟩

theorem value_million : Binary.value 1000000.0 = 10 ^ 6 := by
  rw [value_of_parts (by decide +kernel :
    Binary.parts 1000000.0 = .finite false (15625 * 2 ^ 39) (-33))]
  norm_num

theorem isNearest_product (t : Threshold) :
    IsNearest (t.value.abs * 1000000.0) (|Binary.value t.value| * 10 ^ 6) := by
  have finite : t.value.abs.isFinite = true := by
    obtain ⟨m, q, parts⟩ := t.exists_parts
    exact isFinite_of_parts (parts_abs parts)
  rw [← value_abs t.isFinite_value, ← value_million]
  refine isNearest_mul finite (by decide +kernel) (le_of_le_two_pow ?_)
  rw [value_abs t.isFinite_value, value_million, abs_mul, abs_abs]
  have := t.abs_value_le
  norm_num
  linarith

-- Rounding does not pass zero, nor a hundred percent.
theorem value_product_bounds (t : Threshold) :
    0 ≤ Binary.value (t.value.abs * 1000000.0) ∧
      Binary.value (t.value.abs * 1000000.0) ≤ 10 ^ 8 := by
  have top : Binary.parts 100000000.0 = .finite false (390625 * 2 ^ 34) (-26) := by decide +kernel
  have low := t.isNearest_product.le_value (by decide +kernel : (0.0 : Float).isFinite = true)
  have high := t.isNearest_product.value_le (isFinite_of_parts top)
  rw [value_zero] at low
  rw [value_of_parts top] at high
  have := t.abs_value_le
  norm_num at low high
  exact ⟨low, (high (by linarith)).trans (by norm_num)⟩

theorem abs_product_sub_le (t : Threshold) :
    |Binary.value (t.value.abs * 1000000.0) - |Binary.value t.value| * 10 ^ 6| ≤
      2 ^ (-27 : ℤ) := by
  have bound := t.abs_value_le
  have := t.isNearest_product.abs_sub_le (i := -26)
    (by rw [abs_of_nonneg (by positivity)]; norm_num; linarith) (by decide) (by decide)
  norm_num at this ⊢
  exact this

theorem units_eq (t : Threshold) :
    t.units = ⌊Binary.value (t.value.abs * 1000000.0) + 1 / 2⌋₊ :=
  roundHalfUp_eq t.isNearest_product.finite t.value_product_bounds.1

theorem abs_units_sub_le (t : Threshold) :
    |(t.units : ℚ) - Binary.value (t.value.abs * 1000000.0)| ≤ 1 / 2 := by
  have nonneg := t.value_product_bounds.1
  have below := Nat.floor_le (by positivity : 0 ≤ Binary.value (t.value.abs * 1000000.0) + 1 / 2)
  have above := Nat.lt_floor_add_one (Binary.value (t.value.abs * 1000000.0) + 1 / 2)
  rw [← units_eq] at below above
  rw [abs_le]
  constructor <;> linarith

theorem units_le (t : Threshold) : t.units ≤ 10 ^ 8 := by
  have ⟨nonneg, le⟩ := t.value_product_bounds
  have : t.units < 10 ^ 8 + 1 := by
    rw [units_eq, Nat.floor_lt (by positivity)]
    norm_num at le ⊢
    linarith
  omega

-- The product has to be on the same side of a half as the exact magnitude.
theorem units_eq_of_near (t : Threshold) {k : ℕ}
    (near : |(|Binary.value t.value| * 10 ^ 6) - k| < 1 / 2 - 2 ^ (-27 : ℤ)) : t.units = k := by
  have error := abs_le.mp t.abs_product_sub_le
  have nonneg := t.value_product_bounds.1
  rw [abs_lt] at near
  rw [units_eq, Nat.floor_eq_iff (by positivity)]
  constructor <;> linarith

-- What is nearest to a ratio is off by much less than a millionth, since thresholds are small.
theorem abs_value_sub_le (t : Threshold) {r : ℚ} (h : IsNearest t.value r) :
    |Binary.value t.value - r| ≤ 2 ^ (-47 : ℤ) := by
  have bound := abs_le.mp t.abs_value_le
  have high : Binary.parts 128.0 = .finite false (2 ^ 52) (-45) := by decide +kernel
  have low : Binary.parts (-128.0) = .finite true (2 ^ 52) (-45) := by decide +kernel
  have below := h.value_le (isFinite_of_parts low)
  have above := h.le_value (isFinite_of_parts high)
  rw [value_of_parts low] at below
  rw [value_of_parts high] at above
  have near : |r| ≤ 2 ^ 53 * 2 ^ (-46 : ℤ) := by
    norm_num at below above ⊢
    rw [abs_le]
    constructor
    · by_contra! far
      linarith [below far.le]
    · by_contra! far
      linarith [above far.le]
  have := h.abs_sub_le near (by decide) (by decide)
  norm_num at this ⊢
  exact this

theorem units_eq_of_isNearest (t : Threshold) {k : ℤ} (h : IsNearest t.value (k / 10 ^ 6)) :
    t.units = k.natAbs := by
  refine t.units_eq_of_near ?_
  have scale : |Binary.value t.value| * 10 ^ 6 - (k.natAbs : ℕ) =
      (|Binary.value t.value| - |(k / 10 ^ 6 : ℚ)|) * 10 ^ 6 := by
    rw [abs_div, Nat.cast_natAbs]
    push_cast
    norm_num
    ring
  have close := (abs_abs_sub_abs_le _ _).trans (t.abs_value_sub_le h)
  rw [scale, abs_mul]
  norm_num at close ⊢
  linarith

-- What the units of a threshold are, in terms of the exact magnitude. The product is rounded before
-- it is made whole, so that a magnitude next to a half may go to either side.
structure Millionths (p : Float) (m : Nat) : Prop where
  product : IsNearest (p.abs * 1000000.0) (|Binary.value p| * 10 ^ 6)
  rounded : m = ⌊Binary.value (p.abs * 1000000.0) + 1 / 2⌋₊
  near    : |(m : ℚ) - |Binary.value p| * 10 ^ 6| ≤ 1 / 2 + 2 ^ (-27 : ℤ)
  whole   : ∀ k : ℕ, |(|Binary.value p| * 10 ^ 6) - k| < 1 / 2 - 2 ^ (-27 : ℤ) → m = k
  decimal : ∀ k : ℤ, IsNearest p (k / 10 ^ 6) → m = k.natAbs
  le      : m ≤ 10 ^ 8

theorem millionths (t : Threshold) : Millionths t.value t.units where
  product := t.isNearest_product
  rounded := t.units_eq
  near :=
    calc |(t.units : ℚ) - |Binary.value t.value| * 10 ^ 6|
        ≤ |(t.units : ℚ) - Binary.value (t.value.abs * 1000000.0)| +
          |Binary.value (t.value.abs * 1000000.0) - |Binary.value t.value| * 10 ^ 6| :=
          abs_sub_le _ _ _
      _ ≤ 1 / 2 + 2 ^ (-27 : ℤ) := add_le_add t.abs_units_sub_le t.abs_product_sub_le
  whole _ := t.units_eq_of_near
  decimal _ := t.units_eq_of_isNearest
  le := t.units_le

theorem ceil_div_eq (a : Nat) {b : Nat} (pos : 0 < b) : ⌈(a / b : ℚ)⌉₊ = (a + b - 1) / b := by
  refine eq_of_forall_ge_iff fun k => ?_
  have divisor : (0 : ℚ) < b := by exact_mod_cast pos
  rw [Nat.ceil_le, div_le_iff₀ divisor, Nat.div_le_iff_le_mul_add_pred pos, Nat.mul_comm b k]
  norm_cast
  omega

-- The upper limit of the rank is never needed, as no threshold is beyond a hundred percent.
theorem rank_eq_ceil (t : Threshold) (n : Nat) :
    t.rank n = max 1 ⌈(t.units * n / 10 ^ 8 : ℚ)⌉₊ := by
  have ceil : ⌈(t.units * n / 10 ^ 8 : ℚ)⌉₊ = (t.units * n + 10 ^ 8 - 1) / 10 ^ 8 := by
    exact_mod_cast ceil_div_eq (t.units * n) (b := 10 ^ 8) (by decide)
  have inside : (t.units * n + 10 ^ 8 - 1) / 10 ^ 8 ≤ n := by
    have := Nat.mul_le_mul_right n t.units_le
    omega
  have whole : 100 * unitsPerPercent = 10 ^ 8 := rfl
  rw [rank, whole, min_eq_right inside, ceil]

end Threshold

section

variable {le : Float → Float → Prop} {sorted : List Float} {v : Float} {i : Nat}

-- What stands at a place of the samples is not below those before it, nor above those behind it.
theorem countP_of_getElem? [DecidableRel le] (refl : ∀ x ∈ sorted, le x x)
    (ascending : sorted.Pairwise le) (h : sorted[i]? = some v) :
    i + 1 ≤ sorted.countP (le · v) ∧ sorted.length - i ≤ sorted.countP (le v ·) := by
  obtain ⟨inside, rfl⟩ := List.getElem?_eq_some_iff.mp h
  have parts : sorted = sorted.take i ++ sorted[i] :: sorted.drop (i + 1) := by
    rw [List.getElem_cons_drop, List.take_append_drop]
  have own := refl _ (List.getElem_mem inside)
  generalize sorted[i] = v at *
  have before : (sorted.take i).length = i := List.length_take_of_le inside.le
  have behind : (sorted.drop (i + 1)).length = sorted.length - (i + 1) := List.length_drop
  generalize sorted.take i = front at *
  generalize sorted.drop (i + 1) = back at *
  subst parts
  rw [List.pairwise_append, List.pairwise_cons] at ascending
  obtain ⟨_, ⟨above, _⟩, below⟩ := ascending
  have all_front : front.countP (le · v) = front.length :=
    List.countP_eq_length.mpr fun x hx => decide_eq_true (below x hx v List.mem_cons_self)
  have all_back : back.countP (le v ·) = back.length :=
    List.countP_eq_length.mpr fun y hy => decide_eq_true (above y hy)
  simp only [List.countP_append, List.countP_cons, decide_eq_true own, if_true, all_front, all_back]
  omega

end

-- What is said of the percentile of samples in ascending order. `le` is the order that they are in.
structure Percentile.Selects (p : Percentile) (le : Float → Float → Prop) [DecidableRel le]
    (t : Threshold) (sorted : List Float) (selected : List Float) : Prop where
  threshold : p.threshold = t.value
  label     : p.label = t.label
  count     : p.count = max 1 ⌈(t.units * sorted.length / 10 ^ 8 : ℚ)⌉₊
  count_pos : 1 ≤ p.count
  count_le  : p.count ≤ sorted.length
  length    : selected.length = p.count
  sum       : p.sum = sampleSum selected
  mean      : p.mean = p.sum / Float.ofNat p.count
  lowest    : 0.0 < t.value → ∃ rest, sorted = selected ++ rest ∧
    (∀ x ∈ selected, ∀ y ∈ rest, le x y) ∧ sorted[p.count - 1]? = some p.value ∧
    p.count ≤ sorted.countP (le · p.value) ∧
    sorted.length - p.count + 1 ≤ sorted.countP (le p.value ·)
  highest   : t.value < 0.0 → ∃ rest, sorted = rest ++ selected ∧
    (∀ x ∈ rest, ∀ y ∈ selected, le x y) ∧ sorted[sorted.length - p.count]? = some p.value ∧
    p.count ≤ sorted.countP (le p.value ·) ∧
    sorted.length - p.count + 1 ≤ sorted.countP (le · p.value)

namespace Threshold

theorem isBottom_eq_false {t : Threshold} (h : 0.0 < t.value) : t.isBottom = false := by
  have number := isNaN_eq_false t.isFinite_value
  have zero : (0.0 : Float).isNaN = false := by decide
  rw [lt_iff zero number] at h
  rw [isBottom, decide_eq_false_iff_not, lt_iff number zero]
  omega

theorem isBottom_eq_true {t : Threshold} (h : t.value < 0.0) : t.isBottom = true :=
  decide_eq_true h

variable {t : Threshold} {le : Float → Float → Prop} [DecidableRel le] {sorted : List Float}

theorem length_select (ne : sorted ≠ []) : (t.select sorted).length = t.rank sorted.length := by
  have ⟨_, le⟩ := t.rank_bounds (mt List.length_eq_zero_iff.mp ne)
  rw [select]
  split
  · rw [List.length_drop]
    omega
  · exact List.length_take_of_le le

-- The lowest samples end with the percentile.
theorem boundary?_take (top : t.isBottom = false) (ne : sorted ≠ []) :
    t.boundary? (t.select sorted) = sorted[t.rank sorted.length - 1]? := by
  have ⟨pos, le⟩ := t.rank_bounds (mt List.length_eq_zero_iff.mp ne)
  have selected : t.select sorted = sorted.take (t.rank sorted.length) := by simp [select, top]
  have length := length_select (t := t) ne
  rw [boundary?, top, if_neg Bool.false_ne_true, List.getLast?_eq_getElem?, length, selected,
    List.getElem?_take_of_lt (by omega)]

-- The highest samples begin with the percentile.
theorem boundary?_drop (bottom : t.isBottom = true) :
    t.boundary? (t.select sorted) = sorted[sorted.length - t.rank sorted.length]? := by
  have selected : t.select sorted = sorted.drop (sorted.length - t.rank sorted.length) := by
    simp [select, bottom]
  rw [boundary?, bottom, if_pos rfl, selected, List.head?_drop]

end Threshold

-- Every list of samples but the empty one has a percentile.
theorem Percentile.of?_selects {le : Float → Float → Prop} [DecidableRel le] (t : Threshold)
    {sorted : List Float} (refl : ∀ x ∈ sorted, le x x) (ascending : sorted.Pairwise le)
    (ne : sorted ≠ []) :
    ∃ p, of? sorted t = some p ∧ p.Selects le t sorted (t.select sorted) := by
  obtain ⟨pos, inside⟩ := t.rank_bounds (mt List.length_eq_zero_iff.mp ne)
  obtain ⟨v, boundary⟩ := Option.ne_none_iff_exists'.mp (t.boundary?_ne_none (t.select_ne_nil ne))
  simp only [of?, boundary, Option.map_some, Option.some.injEq, exists_eq_left']
  refine ⟨rfl, rfl, t.rank_eq_ceil _, pos, inside, Threshold.length_select ne, rfl, rfl,
    fun positive => ?lowest, fun negative => ?highest⟩
  case lowest =>
    have top := Threshold.isBottom_eq_false positive
    rw [Threshold.boundary?_take top ne] at boundary
    obtain ⟨low, high⟩ := countP_of_getElem? refl ascending boundary
    have split := List.take_append_drop (t.rank sorted.length) sorted
    have across := List.pairwise_append.mp (split.symm ▸ ascending)
    have selected : t.select sorted = sorted.take (t.rank sorted.length) := by
      simp [Threshold.select, top]
    refine ⟨_, selected ▸ split.symm, selected ▸ across.2.2, boundary, ?_, ?_⟩ <;> dsimp only <;>
      omega
  case highest =>
    have bottom := Threshold.isBottom_eq_true negative
    rw [Threshold.boundary?_drop bottom] at boundary
    obtain ⟨low, high⟩ := countP_of_getElem? refl ascending boundary
    have split := List.take_append_drop (sorted.length - t.rank sorted.length) sorted
    have across := List.pairwise_append.mp (split.symm ▸ ascending)
    have selected : t.select sorted = sorted.drop (sorted.length - t.rank sorted.length) := by
      simp [Threshold.select, bottom]
    refine ⟨_, selected ▸ split.symm, selected ▸ across.2.2, boundary, ?_, ?_⟩ <;> dsimp only <;>
      omega

-- Everything about the percentile of a threshold: how its units come about, that computing the rank
-- of a number of samples fits into 128 bits, and what is selected.
theorem Percentile.of?_correct {le : Float → Float → Prop} [DecidableRel le] (t : Threshold)
    {sorted : List Float} (refl : ∀ x ∈ sorted, le x x) (ascending : sorted.Pairwise le) :
    Threshold.Millionths t.value t.units ∧
    (∀ n < 2 ^ 64, t.units * n + (10 ^ 8 - 1) < 2 ^ 128) ∧
    of? [] t = none ∧
    (sorted ≠ [] → ∃ p selected, of? sorted t = some p ∧ p.Selects le t sorted selected) := by
  refine ⟨t.millionths, fun n small => ?fits, ?nothing, fun ne => ?something⟩
  case fits =>
    calc t.units * n + (10 ^ 8 - 1) ≤ 10 ^ 8 * 2 ^ 64 + (10 ^ 8 - 1) := by
          gcongr
          exact t.units_le
      _ < 2 ^ 128 := by norm_num
  case nothing =>
    have empty : t.boundary? [] = none := by simp [Threshold.boundary?]
    simp [of?, Threshold.select, empty]
  case something =>
    obtain ⟨p, some, selects⟩ := of?_selects t refl ascending ne
    exact ⟨p, _, some, selects⟩

theorem Percentile.of?_correct_ninety :
    ∃ p selected, of? [1.0, 2.0, 3.0] .ninety = some p ∧
      p.Selects (· ≤ ·) .ninety [1.0, 2.0, 3.0] selected :=
  (@of?_correct (· ≤ ·) _ .ninety [1.0, 2.0, 3.0] (by decide +kernel) (by decide +kernel)).2.2.2
    (by decide)

-- A threshold whose exact millionths are just below a half, while the product is a half.
theorem Percentile.count_of_magnitude_next_to_half :
    ∃ (t : Threshold) (k : ℕ),
      (∀ j : ℤ, |(|Binary.value t.value| * 10 ^ 6) - k| ≤ |(|Binary.value t.value| * 10 ^ 6) - j|) ∧
      ∃ p, of? (List.replicate 100 1.0) t = some p ∧ p.count ≠ max 1 ⌈(k * 100 / 10 ^ 8 : ℚ)⌉₊ := by
  have parts : Binary.parts 90.0000005 = .finite false 6333187011174132 (-46) := by decide +kernel
  refine ⟨⟨90.0000005, by decide +kernel⟩, 90000000, fun j => ?_, ?_⟩
  · refine abs_sub_le_of_near (n := 90000000) ?_ j
    rw [value_of_parts parts, abs_le]
    norm_num
  · have ceil : max 1 ⌈(90000000 * 100 / 10 ^ 8 : ℚ)⌉₊ = 90 := by norm_num
    have count : (of? (List.replicate 100 1.0) ⟨90.0000005, by decide +kernel⟩).map (·.count) =
        some 91 := by decide +kernel
    obtain ⟨p, some, count⟩ := Option.map_eq_some_iff.mp count
    refine ⟨p, some, ?_⟩
    push_cast
    rw [count, ceil]
    decide

end MetricCollector
