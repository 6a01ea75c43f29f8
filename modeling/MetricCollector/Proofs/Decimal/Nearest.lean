import MetricCollector.Proofs.Binary.Rounding
import MetricCollector.Proofs.Decimal.Shortest

namespace MetricCollector

open Binary
open Float.Model.UnpackedFloat (Sign)

theorem roundQuotient_toEven_near (num : Nat) {den : Nat} (pos : 0 < den) :
    |(num / den - roundQuotient .toEven num den : ℚ)| ≤ 1 / 2 := by
  have hd : (0 : ℚ) < den := by exact_mod_cast pos
  have split : ((num / den : ℕ) : ℚ) * den + (num % den : ℕ) = num := by
    exact_mod_cast Nat.div_add_mod' num den
  have rest : 2 * (num % den) < den ∧ roundQuotient .toEven num den = num / den ∨
      den < 2 * (num % den) ∧ roundQuotient .toEven num den = num / den + 1 ∨
      2 * (num % den) = den ∧ (roundQuotient .toEven num den = num / den ∨
        roundQuotient .toEven num den = num / den + 1) := by
    simp only [roundQuotient]
    split
    case isTrue => omega
    case isFalse =>
      split
      case isTrue  => omega
      case isFalse => omega
  have below : ((num % den : ℕ) : ℚ) < den := by exact_mod_cast Nat.mod_lt num pos
  generalize num / den = w at *
  generalize num % den = r at *
  have down : |(num / den - w : ℚ)| = r / den := by
    rw [← split, add_div, mul_div_cancel_right₀ _ hd.ne', add_sub_cancel_left,
      abs_of_nonneg (by positivity)]
  have up : |(num / den - (w + 1 : ℕ) : ℚ)| = 1 - r / den := by
    have less : (r : ℚ) / den ≤ 1 := (div_le_one hd).mpr below.le
    rw [← split, add_div, mul_div_cancel_right₀ _ hd.ne', Nat.cast_add, Nat.cast_one,
      add_sub_add_left_eq_sub, abs_sub_comm, abs_of_nonneg (by linarith)]
  rcases rest with ⟨less, same⟩ | ⟨more, same⟩ | ⟨half, same | same⟩ <;> rw [same]
  · have less : (2 * r : ℚ) < den := by exact_mod_cast less
    rw [down, div_le_iff₀ hd]
    linarith
  · have more : (den : ℚ) < 2 * r := by exact_mod_cast more
    rw [up, sub_le_comm, le_div_iff₀ hd]
    linarith
  · have half : (2 * r : ℚ) = den := by exact_mod_cast half
    rw [down, div_le_iff₀ hd]
    linarith
  · have half : (2 * r : ℚ) = den := by exact_mod_cast half
    rw [up, sub_le_comm, le_div_iff₀ hd]
    linarith

namespace Binary

variable {num den : Nat}

-- The mantissa and the exponent that a ratio is rounded to.
theorem exists_isRounded (hn : 0 < num) (hd : 0 < den) :
    ∃ n, IsRounded (num / den : ℚ) n (exponentFor num den) ∧
      nearestBits num den = min (scaledBits n (exponentFor num den)) infinityBits := by
  have ratio : (0 : ℚ) < num / den := by
    have : (0 : ℚ) < num := by exact_mod_cast hn
    have : (0 : ℚ) < den := by exact_mod_cast hd
    positivity
  have exponent : exponentFor num den = max (Int.log 2 (num / den : ℚ) - 52) leastExponent := by
    rw [exponentFor, binade_eq hn hd]
  have bits : nearestBits num den = min (scaledBits (roundQuotient .toEven
      (num * twoTo (-exponentFor num den).toNat) (den * twoTo (exponentFor num den).toNat))
      (exponentFor num den)) infinityBits := by
    rw [nearestBits, if_neg hn.ne']
    rfl
  generalize exponentFor num den = t at *
  have unit : (0 : ℚ) < 2 ^ t := by positivity
  have scaled : ((num * twoTo (-t).toNat : ℕ) / (den * twoTo t.toNat : ℕ) : ℚ) =
      num / den / 2 ^ t := by
    have := twoTo_cast_pos (-t).toNat
    rw [two_zpow_eq, Nat.cast_mul, Nat.cast_mul]
    field_simp
  have near := roundQuotient_toEven_near (num * twoTo (-t).toNat)
    (Nat.mul_pos hd (twoTo_pos t.toNat))
  rw [scaled] at near
  generalize roundQuotient .toEven _ _ = n at *
  have low : (2 : ℚ) ^ Int.log 2 (num / den : ℚ) ≤ num / den := by
    exact_mod_cast Int.zpow_log_le_self (b := 2) (by decide) ratio
  have high : (num / den : ℚ) < 2 ^ (Int.log 2 (num / den : ℚ) + 1) := by
    exact_mod_cast Int.lt_zpow_succ_log_self (b := 2) (by decide) (num / den : ℚ)
  have full : t = leastExponent ∨ 2 ^ 52 ≤ (num / den : ℚ) / 2 ^ t := by
    refine or_iff_not_imp_left.mpr fun inner => ?_
    rw [le_div_iff₀ unit, ← zpow_natCast, ← zpow_add₀ two_ne_zero]
    exact le_trans (zpow_le_zpow_right₀ one_le_two (by push_cast; omega)) low
  have below : (num / den : ℚ) / 2 ^ t < 2 ^ 53 := by
    rw [div_lt_iff₀ unit, ← zpow_natCast, ← zpow_add₀ two_ne_zero]
    exact high.trans_le (zpow_le_zpow_right₀ one_le_two (by push_cast; omega))
  have short : n ≤ 2 ^ 53 := by
    have : (n : ℚ) < (2 ^ 53 + 1 : ℕ) := by
      push_cast
      linarith [(abs_le.mp near).1]
    have : n < 2 ^ 53 + 1 := by exact_mod_cast this
    omega
  exact ⟨n, ⟨exponent ▸ le_max_right _ _, near, full, short⟩, bits⟩

-- The sign that a number is read with.
def signOf (negative : Bool) : Sign :=
  if negative then .negative else .positive

variable {n : Nat} {t : Int} {r : ℚ} (negative : Bool)

theorem nearest_eq_unpacked (scaled : IsScaled n t) (bits : nearestBits num den = scaledBits n t) :
    nearest negative num den = ⟨Float.Model.pack (unpacked (signOf negative) n t)⟩ := by
  have parts := parts_unpacked (s := signOf negative) scaled
  have sign : (signOf negative == .negative) = negative := by cases negative <;> rfl
  rw [sign] at parts
  exact nearest_eq parts bits

theorem nearest_eq_carried (h : IsRounded r n t) (bound : r ≤ 2 ^ (1023 : ℤ))
    (bits : nearestBits num den = min (scaledBits n t) infinityBits) :
    nearest negative num den = ⟨Float.Model.pack (carried (signOf negative) n t)⟩ := by
  rw [carried]
  split
  case isTrue short =>
    have scaled := h.isScaled bound short
    exact nearest_eq_unpacked negative scaled
      (bits.trans (min_eq_left (scaledBits_lt scaled).le))
  case isFalse long =>
    obtain rfl : n = 2 ^ 53 := by have := h.short; omega
    have scaled : IsScaled (2 ^ 52) (t + 1) :=
      ⟨h.least.trans (by omega), h.exponent_lt bound, by decide, fun _ => by decide⟩
    have carries : scaledBits (2 ^ 53) t = scaledBits (2 ^ 52) (t + 1) := by
      have := h.least
      rw [scaledBits, scaledBits, normalFrom_eq]
      omega
    rw [carries] at bits
    exact nearest_eq_unpacked negative scaled
      (bits.trans (min_eq_left (scaledBits_lt scaled).le))

theorem isNearest_nearest (hn : 0 < num) (hd : 0 < den)
    (bound : (num / den : ℚ) ≤ 2 ^ (1023 : ℤ)) :
    IsNearest (nearest negative num den) (withSign (signOf negative) (num / den)) := by
  obtain ⟨n, rounded, bits⟩ := exists_isRounded hn hd
  rw [nearest_eq_carried negative rounded bound bits]
  exact isNearest_carried rounded bound

-- Zero is nearest to what is less than half the least number.
theorem isNearest_nearest_zero (nonneg : 0 ≤ r) (small : r ≤ 2 ^ (-1075 : ℤ)) :
    IsNearest (nearest negative 0 1) (withSign (signOf negative) r) := by
  have half : r / 2 ^ leastExponent ≤ 1 / 2 := by
    rw [div_le_iff₀ (by positivity)]
    refine small.trans_eq ?_
    rw [leastExponent, show (-1075 : ℤ) = -1074 - 1 from rfl, zpow_sub_one₀ two_ne_zero]
    ring
  have rounded : IsRounded r 0 leastExponent := by
    refine ⟨le_refl _, ?_, .inl rfl, by decide⟩
    rwa [Nat.cast_zero, sub_zero, abs_of_nonneg (by positivity)]
  have bound : r ≤ 2 ^ (1023 : ℤ) := small.trans (zpow_le_zpow_right₀ one_le_two (by decide))
  have bits : nearestBits 0 1 = min (scaledBits 0 leastExponent) infinityBits := by decide
  rw [nearest_eq_carried negative rounded bound bits]
  exact isNearest_carried rounded bound

end Binary

namespace Decimal

theorem value_nonneg (d : Decimal) : 0 ≤ d.value := by
  rw [value]
  positivity

-- Up to a magnitude that is far from the largest number, reading is right to the last bit.
theorem isNearest_toFloat (negative : Bool) {d : Decimal} (bound : d.value ≤ 2 ^ (1023 : ℤ)) :
    IsNearest (toFloat negative d) (withSign (signOf negative) d.value) := by
  simp only [toFloat]
  split
  case isTrue zero =>
    refine isNearest_nearest_zero negative d.value_nonneg ?_
    by_cases none : d.digits = 0
    case pos =>
      rw [value, none, Nat.cast_zero, zero_mul]
      positivity
    case neg =>
      have small := zero.resolve_left none
      have less := (value_lt none).trans_le
        (zpow_le_zpow_right₀ (by norm_num : (1 : ℚ) ≤ 10) small)
      exact (less.trans belowLeast_lt).le
  case isFalse some =>
    obtain ⟨some, _⟩ := not_or.mp some
    split
    case isTrue large =>
      have beyond := calc d.value
          ≤ 2 ^ (1023 : ℤ) := bound
        _ < 2 ^ (1024 : ℤ) := zpow_lt_zpow_right₀ one_lt_two (by decide)
        _ < 10 ^ beyondLargest := lt_beyondLargest
        _ ≤ 10 ^ (width d.digits + d.exponent - 1) :=
          zpow_le_zpow_right₀ (by norm_num) (by omega)
        _ ≤ d.value := le_value some
      exact absurd beyond (lt_irrefl _)
    case isFalse =>
      have positive : 0 < d.digits * tenTo d.exponent.toNat :=
        Nat.mul_pos (Nat.pos_of_ne_zero some) (tenTo_pos _)
      have ratio := ratio_eq_value d
      have nearest := isNearest_nearest negative positive (tenTo_pos (-d.exponent).toNat)
        (ratio ▸ bound)
      rwa [ratio] at nearest

end Decimal
end MetricCollector
