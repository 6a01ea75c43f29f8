import MetricCollector.Proofs.Binary.Rounding

namespace MetricCollector.Binary

section operations

open Float.Model Float.Model.UnpackedFloat

variable {x y : Float}

theorem isNearest_zero (s : Sign) : IsNearest ⟨Float.Model.pack (.zero s)⟩ 0 where
  finite := by cases s <;> decide
  nearest y _ := by
    have : parts ⟨Float.Model.pack (.zero s)⟩ = .finite (s == .negative) 0 leastExponent := by
      cases s <;> decide
    rw [value_of_parts this]
    simp

-- A finite number is a zero or has a mantissa and an exponent of its own.
theorem unpack_of_isFinite (h : x.isFinite = true) :
    (∃ s, x.toModel.unpack = .zero s) ∨
      ∃ s m e pos, x.toModel.unpack = .finite s m e pos ∧ IsScaled m e := by
  obtain ⟨negative, m, q, parts⟩ := exists_parts h
  rw [parts_eq_partsOf] at parts
  cases unpacked : x.toModel.unpack
  case notANumber => rw [unpacked] at parts; cases parts
  case infinity s => rw [unpacked] at parts; cases parts
  case zero s => exact .inl ⟨s, rfl⟩
  case finite s m e pos =>
    rw [← parts_eq_partsOf] at parts
    have own : Binary.parts x = .finite (s == .negative) m e := by
      rw [parts_eq_partsOf, unpacked]
      rfl
    exact .inr ⟨s, m, e, pos, rfl, (isScaled_of_parts own).1⟩

-- Negation is exact.
theorem parts_neg {negative : Bool} {m : Nat} {q : Int} (h : parts x = .finite negative m q) :
    parts (-x) = .finite (!negative) m q := by
  have unpacked : (-x : Float) = ⟨Float.Model.pack x.toModel.unpack.neg⟩ := rfl
  rw [parts_eq_partsOf] at h
  rw [unpacked]
  rcases unpack_of_isFinite (isFinite_of_parts ((parts_eq_partsOf x).trans h)) with
    ⟨s, zero⟩ | ⟨s, m', e, pos, nonzero, scaled⟩
  · rw [zero] at h ⊢
    cases h
    cases s <;> decide
  · rw [nonzero] at h ⊢
    cases h
    rw [UnpackedFloat.neg, parts_pack scaled pos]
    cases s <;> rfl

theorem place_neg (h : x.isFinite = true) : place (-x) = -place x := by
  obtain ⟨negative, m, q, parts⟩ := exists_parts h
  rw [place_of_parts parts, place_of_parts (parts_neg parts)]
  cases negative <;> simp

theorem abs_neg_eq (h : x.isFinite = true) : (-x).abs = x.abs := by
  obtain ⟨negative, m, q, parts⟩ := exists_parts h
  exact eq_of_parts (parts_abs (parts_neg parts)) (parts_abs parts)

theorem isNearest_pack {s : Sign} {m : Nat} {e : Int} {pos : 0 < m} (scaled : IsScaled m e) :
    IsNearest ⟨Float.Model.pack (.finite s m e pos)⟩ (withSign s (m * 2 ^ e)) := by
  rw [← value_pack scaled pos]
  exact .self (isFinite_of_parts (parts_pack scaled pos))

section

variable {m : Nat} {e : Int} {s : Sign}

theorem log2_mul_two_pow (pos : 0 < m) (k : Nat) : (m * 2 ^ k).log2 = m.log2 + k := by
  have low := Nat.log2_self_le pos.ne'
  have high := Nat.lt_log2_self (n := m)
  refine (Nat.log2_eq_iff (by positivity)).mpr ⟨?_, ?_⟩
  · rw [pow_add]
    exact Nat.mul_le_mul_right _ low
  · rw [Nat.add_right_comm, pow_add]
    exact Nat.mul_lt_mul_of_pos_right high (by positivity)

theorem isNearest_round (pos : 0 < m) (bound : (m : ℚ) * 2 ^ e ≤ 2 ^ (1023 : ℤ)) :
    IsNearest ⟨Float.Model.pack (UnpackedFloat.round Format.binary64 s m e)⟩
      (withSign s (m * 2 ^ e)) := by
  simp only [UnpackedFloat.round, decreaseExponent, targetExponent_eq, Nat.shiftLeft_eq]
  have same : (m : ℚ) * 2 ^ e =
      (m * 2 ^ (e - target m e).toNat : ℕ) * 2 ^ (e - (e - target m e).toNat) := by
    generalize (e - target m e).toNat = k
    rw [zpow_sub₀ two_ne_zero, zpow_natCast]
    push_cast
    field_simp
  rw [same] at bound ⊢
  refine isNearest_roundWithAccuracy (stands_exact _) ?_ bound
  simp only [target, log2_mul_two_pow pos]
  omega

theorem isNearest_normalize {i : ℤ} {zeroSign : Sign} (bound : |i * (2 : ℚ) ^ e| ≤ 2 ^ (1023 : ℤ)) :
    IsNearest ⟨Float.Model.pack (UnpackedFloat.normalize Format.binary64 i e zeroSign)⟩
      (i * 2 ^ e) := by
  rw [abs_mul, abs_of_pos (by positivity : (0 : ℚ) < 2 ^ e)] at bound
  rcases lt_trichotomy i 0 with negative | rfl | positive
  · obtain ⟨n, rfl⟩ : ∃ n : Nat, i = -n := ⟨(-i).toNat, by omega⟩
    rw [UnpackedFloat.normalize, (compare_lt_iff_lt).mpr negative]
    have pos : 0 < n := by omega
    simpa [withSign] using isNearest_round (s := .negative) pos (by simpa using bound)
  · simpa [UnpackedFloat.normalize] using isNearest_zero zeroSign
  · obtain ⟨n, rfl⟩ := Int.eq_ofNat_of_zero_le positive.le
    rw [UnpackedFloat.normalize, (compare_gt_iff_gt).mpr positive]
    have pos : 0 < n := by omega
    simpa [withSign] using isNearest_round (s := .positive) pos (by simpa using bound)

end

-- A mantissa moved to a lower exponent, with its sign in front.
theorem cast_apply_shiftLeft (s : Sign) (m : Nat) {e low : Int} (h : low ≤ e) :
    (s.apply (m <<< (e - low).toNat : ℕ) : ℚ) * 2 ^ low = withSign s (m * 2 ^ e) := by
  obtain ⟨k, rfl⟩ := Int.le.dest h
  have shift : (low + k - low).toNat = k := by omega
  rw [shift, Nat.shiftLeft_eq, zpow_add₀ two_ne_zero, zpow_natCast]
  cases s <;> simp only [Sign.apply, withSign] <;> push_cast <;> ring

theorem isNearest_add (hx : x.isFinite = true) (hy : y.isFinite = true)
    (bound : |value x + value y| ≤ 2 ^ (1023 : ℤ)) : IsNearest (x + y) (value x + value y) := by
  change IsNearest ⟨Float.Model.pack (UnpackedFloat.add _ x.toModel.unpack y.toModel.unpack)⟩ _
  rw [value_eq_worth, value_eq_worth y] at *
  obtain ⟨s, hx⟩ | ⟨s, m, e, pos, hx, scaled⟩ := unpack_of_isFinite hx <;>
    obtain ⟨s', hy⟩ | ⟨s', m', e', pos', hy, scaled'⟩ := unpack_of_isFinite hy <;>
      simp only [hx, hy, UnpackedFloat.add, worth_zero, worth_finite, zero_add, add_zero] at bound ⊢
  · split
    · exact isNearest_zero _
    · exact isNearest_zero _
  · exact isNearest_pack scaled'
  · exact isNearest_pack scaled
  · have sum : withSign s (m * 2 ^ e) + withSign s' (m' * 2 ^ e') =
        (s.apply (m <<< (e - min e e').toNat : ℕ) +
          s'.apply (m' <<< (e' - min e e').toNat : ℕ) : ℤ) * (2 : ℚ) ^ min e e' := by
      rw [← cast_apply_shiftLeft s m (min_le_left e e'),
        ← cast_apply_shiftLeft s' m' (min_le_right e e'), ← add_mul]
      push_cast
      rfl
    rw [sum] at bound ⊢
    exact isNearest_normalize bound

theorem IsScaled.log2_eq_or {m : Nat} {e : Int} (h : IsScaled m e) (pos : 0 < m) :
    m.log2 = 52 ∨ m.log2 < 52 ∧ e = leastExponent := by
  have short := h.short
  have full := h.full
  have least := h.least
  rw [normalFrom_eq] at short full
  have log : m.log2 ≤ 52 := by
    have := (Nat.log2_lt pos.ne').mpr (show m < 2 ^ 53 by omega)
    omega
  rcases eq_or_ne e leastExponent with same | inner
  · omega
  · have := (Nat.le_log2 pos.ne').mpr (full (by omega))
    omega

theorem log2_mono {m n : Nat} (pos : 0 < m) (h : m ≤ n) : m.log2 ≤ n.log2 :=
  (Nat.le_log2 (pos.trans_le h).ne').mpr ((Nat.log2_self_le pos.ne').trans h)

theorem isNearest_mul (hx : x.isFinite = true) (hy : y.isFinite = true)
    (bound : |value x * value y| ≤ 2 ^ (1023 : ℤ)) : IsNearest (x * y) (value x * value y) := by
  change IsNearest ⟨Float.Model.pack (UnpackedFloat.mul _ x.toModel.unpack y.toModel.unpack)⟩ _
  rw [value_eq_worth, value_eq_worth y] at *
  obtain ⟨s, hx⟩ | ⟨s, m, e, pos, hx, scaled⟩ := unpack_of_isFinite hx <;>
    obtain ⟨s', hy⟩ | ⟨s', m', e', pos', hy, scaled'⟩ := unpack_of_isFinite hy <;>
      simp only [hx, hy, UnpackedFloat.mul, worth_zero, worth_finite, zero_mul, mul_zero] at bound ⊢
  · exact isNearest_zero _
  · exact isNearest_zero _
  · exact isNearest_zero _
  · have product : (m * 2 ^ e : ℚ) * (m' * 2 ^ e') = (m * m' : ℕ) * 2 ^ (e + e') := by
      rw [zpow_add₀ two_ne_zero]
      push_cast
      ring
    rw [withSign_mul, product] at bound ⊢
    rw [abs_withSign, abs_of_nonneg (by positivity)] at bound
    refine isNearest_roundWithAccuracy (stands_exact _) ?_ bound
    have least := scaled.least
    have least' := scaled'.least
    have low := scaled.log2_eq_or pos
    have low' := scaled'.log2_eq_or pos'
    -- A factor with 53 bits leaves that many to the product.
    have long := log2_mono pos (Nat.le_mul_of_pos_right m pos')
    have long' := log2_mono pos' (Nat.le_mul_of_pos_left m' pos)
    rw [target]
    rw [leastExponent] at *
    omega

theorem stands_fraction (m : Nat) {d : Nat} (pos : 0 < d) :
    Stands (.ofMantissaAndAccuracy (m / d) (accuracyOfFraction (m % d) d)) (m / d) := by
  have whole : (d : ℚ) * (m / d : ℕ) + (m % d : ℕ) = m := by exact_mod_cast Nat.div_add_mod m d
  have rest : ((m % d : ℕ) : ℚ) < d := by exact_mod_cast Nat.mod_lt m pos
  have divisor : (0 : ℚ) < d := by exact_mod_cast pos
  have quotient : (m : ℚ) / d = (m / d : ℕ) + (m % d : ℕ) / d := by
    rw [← whole]
    field_simp
  rw [quotient, accuracyOfFraction]
  split
  case isTrue zero =>
    rw [zero]
    simp [Stands, ExtendedMantissa.ofMantissaAndAccuracy]
  case isFalse apart =>
    have some : (0 : ℚ) < (m % d : ℕ) := by exact_mod_cast Nat.pos_of_ne_zero apart
    rcases lt_trichotomy (2 * (m % d)) d with less | half | more
    · rw [compare_lt_iff_lt.mpr less]
      have : (2 : ℚ) * (m % d : ℕ) < d := by exact_mod_cast less
      simp only [Stands, ExtendedMantissa.ofMantissaAndAccuracy]
      constructor
      · have := div_pos some divisor
        linarith
      · rw [add_lt_add_iff_left, div_lt_iff₀ divisor]
        linarith
    · rw [compare_eq_iff_eq.mpr half]
      have : (2 : ℚ) * (m % d : ℕ) = d := by exact_mod_cast half
      simp only [Stands, ExtendedMantissa.ofMantissaAndAccuracy]
      rw [add_right_inj, div_eq_iff divisor.ne']
      linarith
    · rw [compare_gt_iff_gt.mpr more]
      have : (d : ℚ) < 2 * (m % d : ℕ) := by exact_mod_cast more
      simp only [Stands, ExtendedMantissa.ofMantissaAndAccuracy]
      constructor
      · rw [add_lt_add_iff_left, lt_div_iff₀ divisor]
        linarith
      · rw [add_lt_add_iff_left, div_lt_iff₀ divisor]
        linarith

theorem targetExponent_ratio (m m' : Nat) (e e' : Int) :
    Format.binary64.targetExponent (totalExponent m e - totalExponent m' e') =
      max (m.log2 + e - (m'.log2 + e') - 53) leastExponent := by
  simp only [Format.targetExponent, totalExponent, Format.mantissaBits, Format.minExponent,
    leastExponent]
  norm_num
  omega

-- A quotient has as many bits as its dividend is shifted for.
theorem le_log2_div {m d k i : Nat} (pos : 0 < m) (posd : 0 < d)
    (h : d.log2 + 1 + i ≤ m.log2 + k) : i ≤ (m <<< k / d).log2 := by
  have top := Nat.lt_log2_self (n := d)
  have enough : 2 ^ i ≤ m <<< k / d := by
    rw [Nat.le_div_iff_mul_le posd, Nat.shiftLeft_eq]
    calc 2 ^ i * d ≤ 2 ^ i * 2 ^ (d.log2 + 1) := Nat.mul_le_mul_left _ top.le
      _ = 2 ^ (d.log2 + 1 + i) := by rw [← pow_add, Nat.add_comm]
      _ ≤ 2 ^ (m.log2 + k) := Nat.pow_le_pow_right two_pos h
      _ = 2 ^ m.log2 * 2 ^ k := pow_add ..
      _ ≤ m * 2 ^ k := Nat.mul_le_mul_right _ (Nat.log2_self_le pos.ne')
  exact (Nat.le_log2 ((Nat.two_pow_pos i).trans_le enough).ne').mpr enough

theorem isNearest_div (hx : x.isFinite = true) (hy : y.isFinite = true) (apart : value y ≠ 0)
    (bound : |value x / value y| ≤ 2 ^ (1023 : ℤ)) : IsNearest (x / y) (value x / value y) := by
  change IsNearest ⟨Float.Model.pack (UnpackedFloat.div _ x.toModel.unpack y.toModel.unpack)⟩ _
  rw [value_eq_worth, value_eq_worth y] at *
  obtain ⟨s, hx⟩ | ⟨s, m, e, pos, hx, scaled⟩ := unpack_of_isFinite hx <;>
    obtain ⟨s', hy⟩ | ⟨s', m', e', pos', hy, scaled'⟩ := unpack_of_isFinite hy <;>
      simp only [hx, hy, UnpackedFloat.div, divCore, worth_zero, worth_finite, zero_div, ne_eq,
        not_true_eq_false, targetExponent_ratio] at bound apart ⊢
  · exact isNearest_zero _
  · have below := min_le_left (e - e') (max (m.log2 + e - (m'.log2 + e') - 53) leastExponent)
    have inside := min_le_right (e - e') (max (m.log2 + e - (m'.log2 + e') - 53) leastExponent)
    generalize min (e - e') (max (m.log2 + e - (m'.log2 + e') - 53) leastExponent) = t at *
    obtain ⟨k, above⟩ := Int.le.dest below
    have shift : (e - e' - t).toNat = k := by clear bound; omega
    have ratio : (m * 2 ^ e : ℚ) / (m' * 2 ^ e') = (m <<< k : ℕ) / m' * 2 ^ t := by
      obtain rfl : e = e' + (t + k) := by clear bound; omega
      rw [zpow_add₀ two_ne_zero, zpow_add₀ two_ne_zero, zpow_natCast, Nat.shiftLeft_eq]
      push_cast
      field_simp
    rw [withSign_div, ratio] at bound ⊢
    rw [abs_withSign, abs_of_nonneg (by clear bound; positivity)] at bound
    rw [shift]
    refine isNearest_roundWithAccuracy (stands_fraction _ pos') ?_ bound
    rw [target]
    rcases le_or_gt t leastExponent with least | inner
    · exact least.trans (le_max_right _ _)
    · clear bound ratio
      have long := le_log2_div (i := 52) pos pos' (k := k) (by omega)
      omega

section wholes

variable {n : Nat}

theorem exists_value_eq_nat (short : n < 2 ^ 53) :
    ∃ y : Float, y.isFinite = true ∧ value y = n := by
  obtain ⟨y, hy, value_y⟩ := exists_of_short (k := n) (i := 0)
    (by rw [abs_of_nonneg (by positivity)]; exact_mod_cast short.le) (by decide) (by decide)
  exact ⟨y, hy, by simpa using value_y⟩

-- Results of this size never overflow.
theorem le_of_le_two_pow {r : ℚ} (h : r ≤ 2 ^ (53 : ℤ)) : r ≤ 2 ^ (1023 : ℤ) :=
  h.trans (zpow_le_zpow_right₀ one_le_two (by decide))

theorem value_toFloat {m : UInt64} (short : m.toNat < 2 ^ 53) :
    m.toFloat.isFinite = true ∧ value m.toFloat = m.toNat := by
  obtain ⟨y, hy, value_y⟩ := exists_value_eq_nat short
  have bound : |((m.toNat : ℤ) : ℚ) * 2 ^ (0 : ℤ)| ≤ 2 ^ (53 : ℤ) := by
    rw [zpow_zero, mul_one, abs_of_nonneg (by positivity)]
    exact_mod_cast short.le
  have nearest : IsNearest m.toFloat ((m.toNat : ℤ) * 2 ^ (0 : ℤ)) :=
    isNearest_normalize (le_of_le_two_pow bound)
  have same : ((m.toNat : ℤ) : ℚ) * 2 ^ (0 : ℤ) = value y := by simp [value_y]
  rw [same] at nearest
  exact ⟨nearest.finite, (nearest.value_eq hy).trans value_y⟩

theorem value_zero : value 0.0 = 0 := by
  rw [value_of_parts (by decide +kernel : parts 0.0 = .finite false 0 leastExponent)]
  simp

theorem value_one : value 1.0 = 1 := by
  rw [value_of_parts (by decide +kernel : parts 1.0 = .finite false (2 ^ 52) (-52))]
  norm_num

theorem value_ofNat (short : n < 2 ^ 53) :
    (Float.ofNat n).isFinite = true ∧ value (Float.ofNat n) = n := by
  have digits : Float.ofNat n = n.toUInt64.toFloat * 1.0 := by
    change Float.ofScientific n false 0 = _
    rw [Float.ofScientific, dif_pos ⟨short, by decide⟩]
    rfl
  have same : n.toUInt64.toNat = n := Nat.mod_eq_of_lt (short.trans (by decide))
  obtain ⟨finite, value_eq⟩ := value_toFloat (m := n.toUInt64) (by rwa [same])
  rw [same] at value_eq
  have bound : |value n.toUInt64.toFloat * value 1.0| ≤ 2 ^ (53 : ℤ) := by
    rw [value_eq, value_one, mul_one, abs_of_nonneg (by positivity)]
    exact_mod_cast short.le
  have nearest := isNearest_mul finite (by decide +kernel : (1.0 : Float).isFinite = true)
    (le_of_le_two_pow bound)
  rw [value_one, mul_one, ← digits] at nearest
  exact ⟨nearest.finite, (nearest.value_eq finite).trans value_eq⟩

end wholes

end operations

end MetricCollector.Binary
