import MetricCollector.Proofs.Binary.Nearest

namespace MetricCollector.Decimal

open Binary (IsScaled scaledBits nearestBits)

-- What a decimal denotes.
def value (d : Decimal) : ℚ :=
  d.digits * 10 ^ d.exponent

theorem value_normalize (digits : Nat) (exponent : Int) :
    (normalize digits exponent).value = digits * 10 ^ exponent := by
  fun_induction normalize
  case case1 => simp [value]
  case case2 digits exponent _ divisible ih =>
    have split : ((digits / 10 : ℕ) : ℚ) * 10 = digits := by
      exact_mod_cast Nat.div_mul_cancel (Nat.dvd_of_mod_eq_zero divisible)
    rw [ih, zpow_add_one₀ (by norm_num), ← split]
    ring
  case case3 => rfl

theorem value_exact (m : Nat) (q : Int) : (exact m q).value = m * 2 ^ q := by
  rw [value, exact]
  rcases le_total 0 q with h | h
  · obtain ⟨n, rfl⟩ := Int.eq_ofNat_of_zero_le h
    simp [twoTo_eq]
  · obtain ⟨n, hn⟩ := Int.eq_ofNat_of_zero_le (Int.neg_nonneg.mpr h)
    obtain rfl : q = -n := by omega
    have ten : (10 : ℚ) ^ n = 2 ^ n * 5 ^ n := by rw [← mul_pow]; norm_num
    simp [twoTo_eq, ten]
    field_simp

section

variable {m : Nat} {q : Int} {tie : Tie}

-- A number lies in its own interval.
theorem contains_self (pos : 0 < m) : (Interval.around m q).Contains (m * 2 ^ q) := by
  have unit : (2 : ℚ) ^ q ≠ 0 := by positivity
  have low : (Interval.around m q).low < 4 * m := by
    simp only [Interval.around]
    split <;> omega
  have low : ((Interval.around m q).low : ℚ) < (4 * m : ℕ) := by exact_mod_cast low
  have high : ((Interval.around m q).high : ℚ) = (4 * m + 2 : ℕ) := rfl
  push_cast at low high
  rw [Binary.contains_iff _ _ rfl, mul_div_cancel_right₀ _ unit, high]
  exact ⟨.inl (by linarith), .inl (by linarith)⟩

theorem contains_onGrid {exponent : Int} {d : Decimal} (h : onGrid tie m q exponent = some d) :
    (Interval.around m q).Contains d.value := by
  simp only [onGrid] at h
  split at h
  case h_1 below above =>
    cases h
    rw [value, ← Interval.holds_iff]
    generalize m * twoTo q.toNat * tenTo (-exponent).toNat = num at *
    generalize twoTo (-q).toNat * tenTo exponent.toNat = den at *
    have ge := roundQuotient_ge tie num den
    have le := roundQuotient_le tie num den
    obtain rounded | rounded : roundQuotient tie num den = num / den ∨
        roundQuotient tie num den = num / den + 1 := by omega
    · exact rounded ▸ below
    · exact rounded ▸ above
  case h_2 below _ =>
    cases h
    exact (Interval.holds_iff ..).mp below
  case h_3 _ above =>
    cases h
    exact (Interval.holds_iff ..).mp above
  case h_4 => cases h

theorem contains_shortest (pos : 0 < m) :
    (Interval.around m q).Contains (shortest tie m q).value := by
  rw [shortest, value_normalize]
  cases found : (List.range 17).findSome? fun (n : Nat) =>
    onGrid tie m q (scale (m * twoTo q.toNat) (twoTo (-q).toNat) - n - 1)
  case none =>
    have exactly := value_exact m q
    rw [value] at exactly
    rw [Option.getD_none, exactly]
    exact contains_self pos
  case some d =>
    obtain ⟨n, _, grid⟩ := List.exists_of_findSome?_eq_some found
    exact contains_onGrid grid

end

theorem width_eq (n : Nat) : n ≠ 0 → width n = Nat.log 10 n + 1 := by
  fun_induction width n
  case case1 => intro h; exact absurd rfl h
  case case2 n _ ih =>
    intro pos
    by_cases small : n < 10
    · rw [Nat.div_eq_of_lt small, Nat.log_of_lt small, width, if_pos rfl]
    · have step := Nat.log_of_one_lt_of_le (b := 10) (n := n) (by decide) (by omega)
      rw [ih (by omega), step]

section

variable {d : Decimal} (pos : d.digits ≠ 0)

include pos

theorem le_value : 10 ^ (width d.digits + d.exponent - 1) ≤ d.value := by
  have digits : ((10 ^ Nat.log 10 d.digits : ℕ) : ℚ) ≤ d.digits := by
    exact_mod_cast Nat.pow_log_le_self 10 pos
  push_cast at digits
  rw [width_eq _ pos, value]
  calc (10 : ℚ) ^ (((Nat.log 10 d.digits + 1 : ℕ) : ℤ) + d.exponent - 1)
      = 10 ^ Nat.log 10 d.digits * 10 ^ d.exponent := by
        rw [← zpow_natCast, ← zpow_add₀ (by norm_num)]
        congr 1
        push_cast
        ring
    _ ≤ d.digits * 10 ^ d.exponent := by gcongr

theorem value_lt : d.value < 10 ^ (width d.digits + d.exponent) := by
  have digits : (d.digits : ℚ) < ((10 ^ (Nat.log 10 d.digits + 1) : ℕ) : ℚ) := by
    exact_mod_cast Nat.lt_pow_succ_log_self (by decide) d.digits
  push_cast at digits
  rw [width_eq _ pos, value, zpow_add₀ (by norm_num), zpow_natCast]
  gcongr

end

theorem belowLeast_lt : (10 : ℚ) ^ belowLeast < 2 ^ (-1075 : ℤ) := by
  have powers : (2 : ℚ) ^ 1075 < 10 ^ 325 := by
    exact_mod_cast (by decide +kernel : 2 ^ 1075 < 10 ^ 325)
  change (10 : ℚ) ^ (-(325 : ℕ) : ℤ) < 2 ^ (-(1075 : ℕ) : ℤ)
  rw [zpow_neg, zpow_neg, zpow_natCast, zpow_natCast]
  exact (inv_lt_inv₀ (by positivity) (by positivity)).mpr powers

theorem lt_beyondLargest : (2 : ℚ) ^ (1024 : ℤ) < 10 ^ beyondLargest := by
  have powers : (2 : ℚ) ^ 1024 < 10 ^ 310 := by
    exact_mod_cast (by decide +kernel : 2 ^ 1024 < 10 ^ 310)
  exact powers

theorem ratio_eq_value (d : Decimal) :
    ((d.digits * tenTo d.exponent.toNat : ℕ) / (tenTo (-d.exponent).toNat : ℕ) : ℚ) = d.value := by
  rw [value, ten_zpow_eq, Nat.cast_mul]
  ring

-- No decimal that rounds to a number is so small or so large that it is not looked at.
theorem size_of_contains {m : Nat} {q : Int} (scaled : IsScaled m q) (pos : 0 < m) {d : Decimal}
    (mem : (Interval.around m q).Contains d.value) :
    d.digits ≠ 0 ∧ belowLeast < width d.digits + d.exponent ∧
      width d.digits + d.exponent ≤ beyondLargest := by
  have ⟨low, high⟩ := abs_le.mp (Binary.isNear_of_contains pos mem).near
  have unit : (0 : ℚ) < 2 ^ q := by positivity
  have hm : (1 : ℚ) ≤ m := by exact_mod_cast pos
  have hm' : (m : ℚ) + 1 ≤ 2 ^ 53 := by
    have short := scaled.short
    rw [Binary.normalFrom_eq] at short
    exact_mod_cast (by omega : m + 1 ≤ 2 ^ 53)
  have above : (2 : ℚ) ^ (-1075 : ℤ) ≤ d.value := by
    have least := scaled.least
    rw [Binary.leastExponent] at least
    calc (2 : ℚ) ^ (-1075 : ℤ) ≤ 2 ^ (q - 1) := by gcongr <;> [norm_num; omega]
      _ = 1 / 2 * 2 ^ q := by rw [zpow_sub₀ two_ne_zero]; ring
      _ ≤ d.value := by rw [← le_div_iff₀ unit]; linarith
  have below : d.value < 2 ^ (1024 : ℤ) := by
    have most := scaled.most
    calc d.value < 2 ^ 53 * 2 ^ q := by rw [← div_lt_iff₀ unit]; linarith
      _ ≤ 2 ^ 53 * 2 ^ (971 : ℤ) := by gcongr; norm_num
      _ = 2 ^ (1024 : ℤ) := by
        rw [← zpow_natCast, ← zpow_add₀ two_ne_zero]
        rfl
  have nonzero : d.digits ≠ 0 := by
    intro zero
    rw [value, zero, Nat.cast_zero, zero_mul] at above
    exact absurd above (by norm_num)
  refine ⟨nonzero, ?_, ?_⟩
  · by_contra small
    have : (10 : ℚ) ^ (width d.digits + d.exponent) ≤ 10 ^ belowLeast := by
      gcongr <;> [norm_num; omega]
    linarith [value_lt nonzero, belowLeast_lt]
  · by_contra large
    have : (10 : ℚ) ^ beyondLargest ≤ 10 ^ (width d.digits + d.exponent - 1) := by
      gcongr <;> [norm_num; omega]
    linarith [le_value nonzero, lt_beyondLargest]

-- Whatever lies in the interval of a number is read as that number.
theorem toFloat_of_contains {x : Float} {negative : Bool} {m : Nat} {q : Int}
    (parts : Binary.parts x = .finite negative m q) (pos : 0 < m) {d : Decimal}
    (mem : (Interval.around m q).Contains d.value) : toFloat negative d = x := by
  have scaled := (Binary.isScaled_of_parts parts).1
  obtain ⟨nonzero, above, below⟩ := size_of_contains scaled pos mem
  rw [← ratio_eq_value] at mem
  have bits := Binary.nearestBits_eq scaled pos (tenTo_pos _) mem
  simp only [toFloat]
  rw [if_neg (by omega), if_neg (by omega)]
  exact Binary.nearest_eq parts bits

theorem toFloat_zero {x : Float} {negative : Bool} {q : Int}
    (parts : Binary.parts x = .finite negative 0 q) {d : Decimal} (zero : d.digits = 0) :
    toFloat negative d = x := by
  have least : q = Binary.leastExponent := by
    have scaled := (Binary.isScaled_of_parts parts).1
    have := scaled.least
    have := mt scaled.full (by decide)
    omega
  have bits : nearestBits 0 1 = scaledBits 0 q := by
    rw [nearestBits, if_pos rfl, scaledBits, least, Int.sub_self, Int.toNat_zero, Nat.zero_mul]
  simp only [toFloat]
  rw [if_pos (.inl zero)]
  exact Binary.nearest_eq parts bits

theorem toFloat_shortest {x : Float} {negative : Bool} {m : Nat} {q : Int} (tie : Tie)
    (parts : Binary.parts x = .finite negative m q) (pos : 0 < m) :
    toFloat negative (shortest tie m q) = x :=
  toFloat_of_contains parts pos (contains_shortest pos)

end MetricCollector.Decimal
