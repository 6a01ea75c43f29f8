import MetricCollector.Decimal.Shortest
import MetricCollector.Proofs.Binary.Bits

namespace MetricCollector

theorem twoTo_eq (n : Nat) : twoTo n = 2 ^ n := rfl

-- A power with a whole exponent as a ratio of naturals.
theorem zpow_eq_div (b : Nat) [NeZero b] (i : Int) :
    (b : ℚ) ^ i = (b ^ i.toNat : ℕ) / (b ^ (-i).toNat : ℕ) := by
  rcases le_total 0 i with h | h
  · obtain ⟨n, rfl⟩ := Int.eq_ofNat_of_zero_le h
    simp
  · obtain ⟨n, hn⟩ := Int.eq_ofNat_of_zero_le (Int.neg_nonneg.mpr h)
    obtain rfl : i = -n := by omega
    simp

theorem two_zpow_eq (i : Int) : (2 : ℚ) ^ i = twoTo i.toNat / twoTo (-i).toNat :=
  zpow_eq_div 2 i

theorem ten_zpow_eq (i : Int) : (10 : ℚ) ^ i = tenTo i.toNat / tenTo (-i).toNat :=
  zpow_eq_div 10 i

theorem twoTo_cast_pos (n : Nat) : (0 : ℚ) < twoTo n :=
  Nat.cast_pos.mpr (twoTo_pos n)

theorem tenTo_cast_pos (n : Nat) : (0 : ℚ) < tenTo n :=
  Nat.cast_pos.mpr (tenTo_pos n)

section

variable {num den n : Nat}

-- A quotient rounds to a natural that is at most a half away from it, and for exactly a half to an
-- even one.
theorem roundQuotient_toEven_eq (pos : 0 < den) (low : 2 * (n * den) ≤ 2 * num + den)
    (high : 2 * num ≤ 2 * (n * den) + den)
    (tie : n % 2 = 0 ∨ 2 * (n * den) < 2 * num + den ∧ 2 * num < 2 * (n * den) + den) :
    roundQuotient .toEven num den = n := by
  have whole := Nat.div_add_mod num den
  have rest := Nat.mod_lt num pos
  have near : n = num / den ∨ n = num / den + 1 := by
    have above : n < num / den + 2 := by
      by_contra far
      have : (num / den + 2) * den ≤ n * den := Nat.mul_le_mul_right den (by omega)
      rw [Nat.add_mul, Nat.mul_comm (num / den)] at this
      omega
    have below : num / den < n + 1 := by
      by_contra far
      have : (n + 1) * den ≤ num / den * den := Nat.mul_le_mul_right den (by omega)
      rw [Nat.add_mul, Nat.mul_comm (num / den)] at this
      omega
    omega
  rw [roundQuotient]
  generalize hw : num / den = w at *
  generalize num % den = r at *
  rcases near with rfl | rfl
  · rw [Nat.mul_comm] at whole
    repeat' split
    all_goals omega
  · rw [Nat.add_mul, Nat.mul_comm w] at low high tie
    repeat' split
    all_goals omega

theorem roundQuotient_toEven_of_near (pos : 0 < den) (near : |(num / den - n : ℚ)| ≤ 1 / 2)
    (tie : n % 2 = 0 ∨ |(num / den - n : ℚ)| < 1 / 2) : roundQuotient .toEven num den = n := by
  have hd : (0 : ℚ) < den := by exact_mod_cast pos
  have excess : (num / den - n : ℚ) = (num - n * den) / den := by field_simp
  rw [excess, abs_div, abs_of_pos hd, div_le_iff₀ hd, abs_le] at near
  rw [excess, abs_div, abs_of_pos hd, div_lt_iff₀ hd, abs_lt] at tie
  have low : (2 * (n * den) : ℚ) ≤ 2 * num + den := by linarith
  have high : (2 * num : ℚ) ≤ 2 * (n * den) + den := by linarith
  refine roundQuotient_toEven_eq pos (by exact_mod_cast low) (by exact_mod_cast high)
    (tie.imp id fun inner => ?_)
  have low : (2 * (n * den) : ℚ) < 2 * num + den := by linarith
  have high : (2 * num : ℚ) < 2 * (n * den) + den := by linarith
  exact ⟨by exact_mod_cast low, by exact_mod_cast high⟩

end

namespace Binary

variable {num den m : Nat} {q : Int}

theorem zpow_le_div_iff (i : Int) (hd : 0 < den) :
    (2 : ℚ) ^ i ≤ num / den ↔ den * twoTo i.toNat ≤ num * twoTo (-i).toNat := by
  have hd : (0 : ℚ) < den := by exact_mod_cast hd
  rw [two_zpow_eq, div_le_div_iff₀ (twoTo_cast_pos _) hd, ← Nat.cast_mul, ← Nat.cast_mul,
    Nat.cast_le, Nat.mul_comm den]

theorem two_zpow_le_iff {r : ℚ} (pos : 0 < r) (i : Int) : 2 ^ i ≤ r ↔ i ≤ Int.log 2 r := by
  have log := Int.zpow_le_iff_le_log (b := 2) (x := i) (by decide) pos
  rwa [Nat.cast_ofNat] at log

theorem lt_two_zpow_iff {r : ℚ} (pos : 0 < r) (i : Int) : r < 2 ^ i ↔ Int.log 2 r < i := by
  rw [← not_le, two_zpow_le_iff pos, not_le]

-- The binade of a ratio.
theorem binade_eq (hn : 0 < num) (hd : 0 < den) : binade num den = Int.log 2 (num / den : ℚ) := by
  have hnq : (0 : ℚ) < num := by exact_mod_cast hn
  have hdq : (0 : ℚ) < den := by exact_mod_cast hd
  have ratio : (0 : ℚ) < num / den := div_pos hnq hdq
  have num_low : (2 : ℚ) ^ (num.log2 : ℤ) ≤ num := by exact_mod_cast Nat.log2_self_le hn.ne'
  have num_high : (num : ℚ) < 2 ^ (num.log2 + 1 : ℤ) := by exact_mod_cast Nat.lt_log2_self
  have den_low : (2 : ℚ) ^ (den.log2 : ℤ) ≤ den := by exact_mod_cast Nat.log2_self_le hd.ne'
  have den_high : (den : ℚ) < 2 ^ (den.log2 + 1 : ℤ) := by exact_mod_cast Nat.lt_log2_self
  simp only [binade]
  generalize (num.log2 : ℤ) = a at *
  generalize (den.log2 : ℤ) = b at *
  have above : Int.log 2 (num / den : ℚ) < a - b + 1 := by
    rw [← lt_two_zpow_iff ratio, div_lt_iff₀ hdq]
    calc (num : ℚ) < 2 ^ (a + 1) := num_high
      _ = 2 ^ (a - b + 1) * 2 ^ b := by rw [← zpow_add₀ two_ne_zero]; congr 1; ring
      _ ≤ 2 ^ (a - b + 1) * den := by gcongr
  have below : a - b - 1 ≤ Int.log 2 (num / den : ℚ) := by
    rw [← two_zpow_le_iff ratio, le_div_iff₀ hdq]
    calc (2 : ℚ) ^ (a - b - 1) * den
        ≤ 2 ^ (a - b - 1) * 2 ^ (b + 1) := by gcongr
      _ = 2 ^ a := by rw [← zpow_add₀ two_ne_zero]; congr 1; ring
      _ ≤ num := num_low
  have test : (2 : ℚ) ^ (a - b) ≤ num / den ↔ _ := zpow_le_div_iff (a - b) hd
  rw [two_zpow_le_iff ratio] at test
  split
  case isTrue h =>
    have := test.mpr h
    omega
  case isFalse h =>
    have := mt test.mp h
    omega

end Binary

namespace Decimal

-- The ratios that an interval holds.
def Interval.Contains (r : Interval) (v : ℚ) : Prop :=
  (r.low * 2 ^ r.exponent < v ∨ r.closed = true ∧ v = r.low * 2 ^ r.exponent) ∧
    (v < r.high * 2 ^ r.exponent ∨ r.closed = true ∧ v = r.high * 2 ^ r.exponent)

-- The two sides are compared after both are made whole by the same factor.
theorem compareScaled_eq (a : Nat) (i : Int) (n : Nat) (j : Int) :
    compareScaled a i n j = compare (a * 10 ^ i : ℚ) (n * 2 ^ j) := by
  have ten_pos := tenTo_cast_pos (-i).toNat
  have two_pos := twoTo_cast_pos (-j).toNat
  have factor_pos : (0 : ℚ) < tenTo (-i).toNat * twoTo (-j).toNat := mul_pos ten_pos two_pos
  have left : (a * 10 ^ i : ℚ) * (tenTo (-i).toNat * twoTo (-j).toNat) =
      (a * tenTo i.toNat * twoTo (-j).toNat : ℕ) := by
    rw [ten_zpow_eq, Nat.cast_mul, Nat.cast_mul]
    field_simp
  have right : (n * 2 ^ j : ℚ) * (tenTo (-i).toNat * twoTo (-j).toNat) =
      (n * twoTo j.toNat * tenTo (-i).toNat : ℕ) := by
    rw [two_zpow_eq, Nat.cast_mul, Nat.cast_mul]
    field_simp
  rw [compareScaled]
  rcases lt_trichotomy (a * 10 ^ i : ℚ) (n * 2 ^ j) with h | h | h
  · have scaled := mul_lt_mul_of_pos_right h factor_pos
    rw [left, right, Nat.cast_lt] at scaled
    rw [compare_lt_iff_lt.mpr h, Nat.compare_eq_lt.mpr scaled]
  · have scaled := congrArg (· * (tenTo (-i).toNat * twoTo (-j).toNat : ℚ)) h
    simp only [left, right, Nat.cast_inj] at scaled
    rw [compare_eq_iff_eq.mpr h, Nat.compare_eq_eq.mpr scaled]
  · have scaled := mul_lt_mul_of_pos_right h factor_pos
    rw [left, right, Nat.cast_lt] at scaled
    rw [compare_gt_iff_gt.mpr h, Nat.compare_eq_gt.mpr scaled]

theorem Interval.holds_iff (r : Interval) (digits : Nat) (exponent : Int) :
    r.holds digits exponent = true ↔ r.Contains (digits * 10 ^ exponent) := by
  simp only [Interval.holds, compareScaled_eq, Bool.and_eq_true, Bool.or_eq_true, decide_eq_true_eq,
    compare_gt_iff_gt, compare_lt_iff_lt, compare_eq_iff_eq, Interval.Contains]

end Decimal

namespace Binary

variable {num den m : Nat} {q : Int}

open Decimal (Interval)

-- What an interval holds, measured in units of the last place.
theorem contains_iff (r : Interval) (v : ℚ) (h : r.exponent = q - 2) :
    r.Contains v ↔
      ((r.low / 4 : ℚ) < v / 2 ^ q ∨ r.closed = true ∧ v / 2 ^ q = r.low / 4) ∧
        (v / 2 ^ q < r.high / 4 ∨ r.closed = true ∧ v / 2 ^ q = r.high / 4) := by
  have unit : (2 : ℚ) ^ (q - 2) = 2 ^ q / 4 := by
    rw [zpow_sub₀ two_ne_zero]
    norm_num
  have pos : (0 : ℚ) < 2 ^ q := by positivity
  have scaled (n : Nat) : (n * (2 ^ q / 4) : ℚ) = n / 4 * 2 ^ q := by ring
  rw [Interval.Contains, h, unit, scaled, scaled, lt_div_iff₀ pos, div_lt_iff₀ pos,
    div_eq_iff pos.ne', div_eq_iff pos.ne']

-- How near the ratios of an interval are to the number, in units of the last place.
structure IsNear (m : Nat) (q : Int) (w : ℚ) : Prop where
  near : |w - m| ≤ 1 / 2
  tie  : m % 2 = 0 ∨ |w - m| < 1 / 2
  step : m = normalFrom → leastExponent < q → (m - 1 / 4 : ℚ) ≤ w

theorem isNear_of_contains (pos : 0 < m) {v : ℚ} (mem : (Interval.around m q).Contains v) :
    IsNear m q (v / 2 ^ q) := by
  rw [contains_iff _ _ rfl] at mem
  generalize v / 2 ^ q = w at mem
  have low_sub_two : ((4 * m - 2 : ℕ) : ℚ) = 4 * m - 2 := by
    rw [Nat.cast_sub (by omega)]
    push_cast
    rfl
  have low_sub_one : ((4 * m - 1 : ℕ) : ℚ) = 4 * m - 1 := by
    rw [Nat.cast_sub (by omega)]
    push_cast
    rfl
  simp only [Interval.around, decide_eq_true_eq] at mem
  obtain ⟨low, high⟩ := mem
  push_cast at high
  have above : w - m ≤ 1 / 2 := by rcases high with h | ⟨_, h⟩ <;> linarith
  split at low
  case isTrue =>
    rw [low_sub_one] at low
    have step : (m - 1 / 4 : ℚ) ≤ w := by rcases low with h | ⟨_, h⟩ <;> linarith
    refine ⟨abs_le.mpr ⟨by linarith, above⟩, ?_, fun _ _ => step⟩
    rcases high with h | ⟨even, _⟩
    · exact .inr (abs_lt.mpr ⟨by linarith, by linarith⟩)
    · exact .inl even
  case isFalse inner =>
    rw [low_sub_two] at low
    have below : -(1 / 2) ≤ w - m := by rcases low with h | ⟨_, h⟩ <;> linarith
    refine ⟨abs_le.mpr ⟨below, above⟩, ?_, fun h h' => absurd ⟨h, h'⟩ inner⟩
    rcases low with hl | ⟨even, _⟩
    · rcases high with hh | ⟨even, _⟩
      · exact .inr (abs_lt.mpr ⟨by linarith, by linarith⟩)
      · exact .inl even
    · exact .inl even

section

variable {w : ℚ} (hd : 0 < den) (hw : (num / den : ℚ) / 2 ^ q = w)

include hd hw

-- The exponent leaves 53 bits to the mantissa, or fewer if it is the least one.
theorem exponentFor_eq (hn : 0 < num) (least : leastExponent ≤ q)
    (low : q = leastExponent ∨ 2 ^ 52 ≤ w) (high : w < 2 ^ 53) : exponentFor num den = q := by
  have unit : (0 : ℚ) < 2 ^ q := by positivity
  have value : (num / den : ℚ) = w * 2 ^ q := (div_eq_iff unit.ne').mp hw
  have value_pos : (0 : ℚ) < num / den := by
    have : (0 : ℚ) < num := by exact_mod_cast hn
    have : (0 : ℚ) < den := by exact_mod_cast hd
    positivity
  have power (i : Nat) : (2 : ℚ) ^ (q + i) = 2 ^ i * 2 ^ q := by
    rw [zpow_add₀ two_ne_zero, mul_comm, zpow_natCast]
  have log_lt : Int.log 2 (num / den : ℚ) < q + 53 := by
    rw [← lt_two_zpow_iff value_pos, value, show q + 53 = q + (53 : ℕ) from rfl, power]
    gcongr
  rw [exponentFor, binade_eq hn hd]
  rcases low with rfl | normal
  · omega
  · have : q + 52 ≤ Int.log 2 (num / den : ℚ) := by
      rw [← two_zpow_le_iff value_pos, value, show q + 52 = q + (52 : ℕ) from rfl, power]
      gcongr
    omega

theorem nearestBits_of_near {n : Nat} (hn : 0 < num) (least : leastExponent ≤ q)
    (low : q = leastExponent ∨ 2 ^ 52 ≤ w) (high : w < 2 ^ 53) (near : |w - n| ≤ 1 / 2)
    (tie : n % 2 = 0 ∨ |w - n| < 1 / 2) :
    nearestBits num den = min (scaledBits n q) infinityBits := by
  have ratio : ((num * twoTo (-q).toNat : ℕ) / (den * twoTo q.toNat : ℕ) : ℚ) = w := by
    have := twoTo_cast_pos (-q).toNat
    rw [← hw, two_zpow_eq, Nat.cast_mul, Nat.cast_mul]
    field_simp
  have pos : 0 < den * twoTo q.toNat := Nat.mul_pos hd (twoTo_pos _)
  rw [← ratio] at near tie
  rw [nearestBits, if_neg hn.ne']
  simp only [exponentFor_eq hd hw hn least low high, roundQuotient_toEven_of_near pos near tie]
  rfl

end

-- Where the ratio lies in the binade of the number, the rounded mantissa is the number's own. Only
-- below a power of two does the ratio lie in the binade before; its mantissa is rounded up to the
-- power, which carries into the exponent.
theorem nearestBits_eq (scaled : IsScaled m q) (pos : 0 < m) (hd : 0 < den)
    (mem : (Interval.around m q).Contains (num / den)) :
    nearestBits num den = scaledBits m q := by
  obtain ⟨near, tie, step⟩ := isNear_of_contains pos mem
  have bits_lt := scaledBits_lt scaled
  obtain ⟨least, most, short, full⟩ := scaled
  rw [normalFrom_eq] at short full
  generalize hw : (num / den : ℚ) / 2 ^ q = w at near tie step
  have ⟨low, high⟩ := abs_le.mp near
  have hm : (1 : ℚ) ≤ m := by exact_mod_cast pos
  have num_pos : 0 < num := by
    rcases Nat.eq_zero_or_pos num with rfl | h
    · rw [Nat.cast_zero, zero_div, zero_div] at hw
      linarith
    · exact h
  have below : w < 2 ^ 53 := by
    have : ((m + 1 : ℕ) : ℚ) ≤ (2 ^ 53 : ℕ) := by exact_mod_cast (by omega : m + 1 ≤ 2 ^ 53)
    push_cast at this
    linarith
  by_cases inside : q = leastExponent ∨ 2 ^ 52 ≤ w
  case pos =>
    rw [nearestBits_of_near hd hw num_pos least inside below near tie]
    exact min_eq_left bits_lt.le
  case neg =>
    obtain ⟨normal, outside⟩ := not_or.mp inside
    rw [not_le] at outside
    have above : 2 ^ 52 ≤ m := full (by omega)
    obtain rfl : m = 2 ^ 52 := by
      have : (m : ℚ) < (2 ^ 52 + 1 : ℕ) := by
        push_cast
        linarith
      have : m < 2 ^ 52 + 1 := by exact_mod_cast this
      omega
    have close := step normalFrom_eq.symm (by omega)
    push_cast at close
    have doubled : (num / den : ℚ) / 2 ^ (q - 1) = 2 * w := by
      rw [← hw, zpow_sub₀ two_ne_zero]
      field_simp
    have carried : scaledBits (2 ^ 53) (q - 1) = scaledBits (2 ^ 52) q := by
      rw [scaledBits, scaledBits, normalFrom_eq]
      omega
    have twice : |2 * w - (2 ^ 53 : ℕ)| ≤ 1 / 2 := by
      rw [abs_le]
      push_cast
      exact ⟨by linarith, by linarith⟩
    rw [nearestBits_of_near hd doubled num_pos (by omega) (.inr (by linarith)) (by linarith) twice
      (.inl (by norm_num)), carried]
    exact min_eq_left bits_lt.le

end Binary
end MetricCollector
