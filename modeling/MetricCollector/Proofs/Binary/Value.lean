import MetricCollector.Proofs.Binary.Nearest

namespace MetricCollector.Binary

section unpacked

open Float.Model Float.Model.UnpackedFloat

-- The parts of an unpacked number.
def partsOf : UnpackedFloat → Parts
  | .notANumber     => .nan
  | .infinity s     => .infinite (s == .negative)
  | .zero s         => .finite (s == .negative) 0 leastExponent
  | .finite s m e _ => .finite (s == .negative) m e

-- The cases are those of the exponent, as in unpacking.
theorem parts_eq_partsOf (x : Float) : parts x = partsOf x.toModel.unpack := by
  obtain ⟨b, bits, unpacked⟩ : ∃ b : BitVec Format.binary64.numBits,
      b.toNat = x.toBits.toNat ∧ x.toModel.unpack = unpack Format.binary64 b := ⟨_, rfl, rfl⟩
  have he := toNat_unpackExponent b
  have hm := toNat_unpackMantissa b
  have full : unpackExponent b = -1#11 ↔ b.toNat / 2 ^ 52 % 2 ^ 11 = 2 ^ 11 - 1 := by
    rw [← BitVec.toNat_inj, he]
    rfl
  have least : unpackExponent b = 0#11 ↔ b.toNat / 2 ^ 52 % 2 ^ 11 = 0 := by
    rw [← BitVec.toNat_inj, he]
    rfl
  have even : unpackMantissa b = 0#52 ↔ b.toNat % 2 ^ 52 = 0 := by
    rw [← BitVec.toNat_inj, hm]
    rfl
  have bias : ((Format.binary64.exponentBias : Int) + (52 : Nat)) = 1075 := by decide
  have sign : (Sign.ofBitVec (unpackSign b) == .negative) = decide (2 ^ 63 ≤ b.toNat) := by
    rw [ofBitVec_unpackSign]
    by_cases negative : 2 ^ 63 ≤ b.toNat
    · rw [if_pos negative, decide_eq_true negative]
      rfl
    · rw [if_neg negative, decide_eq_false negative]
      rfl
  rw [unpacked]
  simp only [parts, ← bits, normalFrom_eq, signBit_eq, exponentRange_eq, leastExponent,
    UnpackedFloat.unpack, full, least, even]
  by_cases hfull : b.toNat / 2 ^ 52 % 2 ^ 11 = 2 ^ 11 - 1
  case pos =>
    rw [if_pos hfull, if_pos hfull]
    split
    case isTrue => rw [partsOf, sign]
    case isFalse => rfl
  case neg =>
    rw [if_neg hfull, if_neg hfull]
    by_cases hleast : b.toNat / 2 ^ 52 % 2 ^ 11 = 0
    case pos =>
      rw [if_pos hleast, if_pos hleast]
      split
      case isTrue heven =>
        rw [partsOf, sign, heven]
        rfl
      case isFalse =>
        simp only [partsOf, sign, bias, he, hm, hleast]
        rfl
    case neg =>
      rw [if_neg hleast, if_neg hleast]
      simp only [partsOf, sign, bias, he, toNat_implicit_append, hm]
      congr 1
      omega

-- What a finite number denotes.
def value (x : Float) : ℚ :=
  match parts x with
  | .finite negative m q => (if negative then -(m : ℚ) else m) * 2 ^ q
  | _                    => 0

-- A magnitude with a sign.
def withSign (s : Sign) (r : ℚ) : ℚ :=
  match s with
  | .positive => r
  | .negative => -r

theorem value_of_parts {x : Float} {negative : Bool} {m : Nat} {q : Int}
    (h : parts x = .finite negative m q) :
    value x = (if negative then -(m : ℚ) else m) * 2 ^ q := by
  rw [value, h]

-- What is not below zero is a quotient of naturals.
theorem value_eq_ratio {x : Float} {negative : Bool} {m : Nat} {q : Int}
    (h : parts x = .finite negative m q) (nonneg : 0 ≤ value x) :
    value x = (m * twoTo q.toNat : ℕ) / (twoTo (-q).toNat : ℕ) := by
  rw [value_of_parts h] at nonneg ⊢
  have magnitude : (if negative then -(m : ℚ) else m) * 2 ^ q = m * 2 ^ q := by
    cases negative
    case false => rfl
    case true =>
      have : (0 : ℚ) ≤ m * 2 ^ q := by positivity
      simp only [if_true] at nonneg ⊢
      linarith
  rw [magnitude, two_zpow_eq]
  push_cast
  rw [mul_div_assoc]

-- What an unpacked number denotes, if it is finite.
def worth : UnpackedFloat → ℚ
  | .finite s m e _ => withSign s (m * 2 ^ e)
  | _               => 0

theorem value_eq_worth (x : Float) : value x = worth x.toModel.unpack := by
  rw [value, parts_eq_partsOf]
  cases x.toModel.unpack
  case notANumber | infinity => rfl
  case zero s => cases s <;> simp [partsOf, worth]
  case finite s m e _ => cases s <;> simp [partsOf, worth, withSign]

@[simp] theorem worth_zero (s : Sign) : worth (.zero s) = 0 := rfl

@[simp] theorem worth_finite {s : Sign} {m : Nat} {e : Int} {pos : 0 < m} :
    worth (.finite s m e pos) = withSign s (m * 2 ^ e) := rfl

theorem withSign_mul (s s' : Sign) (a b : ℚ) :
    withSign s a * withSign s' b = withSign (s * s') (a * b) := by
  cases s <;> cases s'
  case positive.positive => rfl
  case positive.negative => exact mul_neg a b
  case negative.positive => exact neg_mul a b
  case negative.negative => exact neg_mul_neg a b

theorem withSign_div (s s' : Sign) (a b : ℚ) :
    withSign s a / withSign s' b = withSign (s / s') (a / b) := by
  cases s <;> cases s'
  case positive.positive => rfl
  case positive.negative => exact div_neg a
  case negative.positive => exact neg_div b a
  case negative.negative => exact neg_div_neg_eq a b

@[simp] theorem abs_withSign (s : Sign) (a : ℚ) : |withSign s a| = |a| := by
  cases s
  · exact abs_neg a
  · rfl

variable {s : Sign} {m : Nat} {e : Int}

theorem parts_pack (scaled : IsScaled m e) (pos : 0 < m) :
    parts ⟨Float.Model.pack (.finite s m e pos)⟩ = .finite (s == .negative) m e := by
  have short := scaled.short
  have least := scaled.least
  have full := scaled.full
  have most := scaled.most
  rw [normalFrom_eq] at short full
  rw [leastExponent] at least full
  refine parts_of_isScaled scaled ?_
  have bits : (⟨Float.Model.pack (.finite s m e pos)⟩ : Float).toBits.toNat =
      s.toBitVec.toNat * 2 ^ 63 + (if 2 ^ 52 ≤ m then (e + 1075).toNat % 2 ^ 11 else 0) * 2 ^ 52 +
        m % 2 ^ 52 := by
    have exponent : (if 2 ^ 52 ≤ m then BitVec.ofNat 11 (e + 1075).toNat else 0).toNat =
        if 2 ^ 52 ≤ m then (e + 1075).toNat % 2 ^ 11 else 0 := by
      split <;> rfl
    rw [← exponent]
    refine (congrArg BitVec.toNat (@pack_finite s m e pos most (by omega))).trans ?_
    exact toNat_packComponents ..
  have sign : s.toBitVec.toNat * 2 ^ 63 = if (s == .negative) = true then 2 ^ 63 else 0 := by
    cases s <;> rfl
  rw [bits, sign, Nat.add_assoc, scaledBits, normalFrom_eq, leastExponent]
  clear bits sign
  refine Nat.add_left_cancel_iff.mpr ?_
  split <;> omega

theorem value_pack (scaled : IsScaled m e) (pos : 0 < m) :
    value ⟨Float.Model.pack (.finite s m e pos)⟩ = withSign s (m * 2 ^ e) := by
  rw [value_of_parts (parts_pack scaled pos)]
  cases s <;> simp [withSign]

-- A mantissa that may be zero.
def unpacked (s : Sign) (m : Nat) (e : Int) : UnpackedFloat :=
  if pos : 0 < m then .finite s m e pos else .zero s

theorem parts_unpacked (scaled : IsScaled m e) :
    parts ⟨Float.Model.pack (unpacked s m e)⟩ = .finite (s == .negative) m e := by
  rcases Nat.eq_zero_or_pos m with rfl | pos
  · have full := scaled.full
    have least : e = leastExponent := by
      rw [normalFrom_eq] at full
      have := scaled.least
      omega
    subst least
    cases s <;> decide
  · rw [unpacked, dif_pos pos]
    exact parts_pack scaled pos

theorem value_unpacked (scaled : IsScaled m e) :
    value ⟨Float.Model.pack (unpacked s m e)⟩ = withSign s (m * 2 ^ e) := by
  rw [value_of_parts (parts_unpacked scaled)]
  cases s <;> simp [withSign]

-- A mantissa of fewer bits can be that of a lower exponent.
theorem exists_isScaled (short : m < 2 ^ 53) (least : leastExponent ≤ e) (most : e ≤ 971) :
    ∃ m' e', IsScaled m' e' ∧ (m' * 2 ^ e' : ℚ) = m * 2 ^ e := by
  obtain ⟨room, above⟩ := Int.le.dest least
  rcases Nat.eq_zero_or_pos m with rfl | pos
  · have scaled : IsScaled 0 leastExponent :=
      ⟨le_refl _, by decide, by decide, fun h => absurd h (lt_irrefl _)⟩
    exact ⟨0, leastExponent, scaled, by simp⟩
  · have low := Nat.log2_self_le pos.ne'
    have log : m.log2 ≤ 52 := by
      have := (Nat.log2_lt pos.ne').mpr short
      omega
    have high := Nat.lt_log2_self (n := m)
    obtain ⟨d, hd⟩ : ∃ d, d = min (52 - m.log2) room := ⟨_, rfl⟩
    have product : m * 2 ^ d < 2 ^ 53 :=
      calc m * 2 ^ d < 2 ^ (m.log2 + 1) * 2 ^ d := Nat.mul_lt_mul_of_pos_right high (by positivity)
        _ = 2 ^ (m.log2 + 1 + d) := (pow_add ..).symm
        _ ≤ 2 ^ 53 := Nat.pow_le_pow_right two_pos (by omega)
    refine ⟨m * 2 ^ d, e - d, ⟨by omega, by omega, ?_, fun inner => ?_⟩, ?_⟩
    · rw [normalFrom_eq]
      omega
    · rw [normalFrom_eq]
      calc 2 ^ 52 = 2 ^ (m.log2 + d) := by congr 1; omega
        _ = 2 ^ m.log2 * 2 ^ d := pow_add ..
        _ ≤ m * 2 ^ d := Nat.mul_le_mul_right _ low
    · rw [zpow_sub₀ two_ne_zero, zpow_natCast]
      push_cast
      field_simp

end unpacked

section

variable {x y : Float} {r : ℚ}

-- A greater exponent outweighs any mantissa, in the bits as in the value.
theorem scaled_lt {m m' : Nat} {q q' : Int} (h : IsScaled m q) (h' : IsScaled m' q')
    (less : scaledBits m q < scaledBits m' q') : (m * 2 ^ q : ℚ) < m' * 2 ^ q' := by
  have least := h.least
  have least' := h'.least
  have short := h.short
  have short' := h'.short
  have full := h.full
  have full' := h'.full
  rw [leastExponent] at least least' full full'
  rw [normalFrom_eq] at short short' full full'
  rw [scaledBits, scaledBits, normalFrom_eq, leastExponent] at less
  rcases lt_trichotomy q q' with below | rfl | above
  · have short : (m : ℚ) < 2 ^ 53 := by exact_mod_cast short
    have full' : (2 : ℚ) ^ 52 ≤ m' := by exact_mod_cast full' (by omega)
    have step : (2 : ℚ) ^ (q + 1) ≤ 2 ^ q' := zpow_le_zpow_right₀ one_le_two (by omega)
    calc (m : ℚ) * 2 ^ q < 2 ^ 53 * 2 ^ q := by gcongr
      _ = 2 ^ 52 * 2 ^ (q + 1) := by rw [zpow_add_one₀ two_ne_zero]; ring
      _ ≤ m' * 2 ^ q' := by gcongr
  · have : m < m' := by omega
    gcongr
  · have := full (by omega)
    omega

theorem scaledBits_injective {m m' : Nat} {q q' : Int} (h : IsScaled m q) (h' : IsScaled m' q')
    (same : scaledBits m q = scaledBits m' q') : m = m' ∧ q = q' := by
  obtain ⟨least, _, short, full⟩ := h
  obtain ⟨least', _, short', full'⟩ := h'
  rw [leastExponent] at least least' full full'
  rw [normalFrom_eq] at short short' full full'
  rw [scaledBits, scaledBits, normalFrom_eq, leastExponent] at same
  omega

theorem value_lt_of_place_lt (hx : x.isFinite = true) (hy : y.isFinite = true)
    (less : place x < place y) : value x < value y := by
  obtain ⟨negative, m, q, parts⟩ := exists_parts hx
  obtain ⟨negative', m', q', parts'⟩ := exists_parts hy
  have scaled := (isScaled_of_parts parts).1
  have scaled' := (isScaled_of_parts parts').1
  rw [place_of_parts parts, place_of_parts parts'] at less
  rw [value_of_parts parts, value_of_parts parts']
  have positive {m : Nat} {q : Int} (h : IsScaled m q) (pos : 0 < scaledBits m q) :
      (0 : ℚ) < m * 2 ^ q := by
    have zero : IsScaled 0 leastExponent :=
      ⟨le_refl _, by decide, by decide, fun h => absurd h (lt_irrefl _)⟩
    simpa using scaled_lt zero h (by simpa [scaledBits] using pos)
  have nonneg (m : Nat) (q : Int) : (0 : ℚ) ≤ m * 2 ^ q := by positivity
  cases negative <;> cases negative' <;> simp at less ⊢
  case false.false => exact scaled_lt scaled scaled' (by omega)
  case true.true => exact scaled_lt scaled' scaled (by omega)
  case false.true => omega
  case true.false =>
    rcases (by omega : 0 < scaledBits m q ∨ 0 < scaledBits m' q') with pos | pos
    · linarith [positive scaled pos, nonneg m' q']
    · linarith [positive scaled' pos, nonneg m q]

theorem value_eq_of_place_eq (hx : x.isFinite = true) (hy : y.isFinite = true)
    (same : place x = place y) : value x = value y := by
  obtain ⟨negative, m, q, parts⟩ := exists_parts hx
  obtain ⟨negative', m', q', parts'⟩ := exists_parts hy
  have scaled := (isScaled_of_parts parts).1
  have scaled' := (isScaled_of_parts parts').1
  rw [place_of_parts parts, place_of_parts parts'] at same
  rw [value_of_parts parts, value_of_parts parts']
  have zero {m : Nat} {q : Int} (none : scaledBits m q = 0) : (m : ℚ) = 0 := by
    rw [scaledBits] at none
    exact_mod_cast (Nat.add_eq_zero_iff.mp none).2
  cases negative <;> cases negative' <;> simp only [if_true, if_false, Bool.false_eq_true] at same ⊢
  case false.false =>
    obtain ⟨rfl, rfl⟩ := scaledBits_injective scaled scaled' (by omega)
    rfl
  case true.true =>
    obtain ⟨rfl, rfl⟩ := scaledBits_injective scaled scaled' (by omega)
    rfl
  case false.true | true.false =>
    rw [zero (by omega : scaledBits m q = 0), zero (by omega : scaledBits m' q' = 0)]
    simp

theorem value_lt_iff (hx : x.isFinite = true) (hy : y.isFinite = true) :
    value x < value y ↔ x < y := by
  rw [lt_iff (isNaN_eq_false hx) (isNaN_eq_false hy)]
  refine ⟨fun less => ?_, value_lt_of_place_lt hx hy⟩
  by_contra! above
  rcases above.lt_or_eq with above | same
  · exact (value_lt_of_place_lt hy hx above).asymm less
  · exact less.ne (value_eq_of_place_eq hx hy same.symm)

theorem value_le_iff (hx : x.isFinite = true) (hy : y.isFinite = true) :
    value x ≤ value y ↔ x ≤ y := by
  rw [← not_lt, value_lt_iff hy hx, lt_iff (isNaN_eq_false hy) (isNaN_eq_false hx),
    le_iff (isNaN_eq_false hx) (isNaN_eq_false hy), not_lt]

-- The mantissa of a number with its sign in front.
theorem exists_value_eq (h : x.isFinite = true) :
    ∃ k q : ℤ, value x = k * 2 ^ q ∧ |k| < 2 ^ 53 ∧ leastExponent ≤ q := by
  obtain ⟨negative, m, q, parts⟩ := exists_parts h
  have scaled := (isScaled_of_parts parts).1
  have short : (m : ℤ) < 2 ^ 53 := by
    have := scaled.short
    rw [normalFrom_eq] at this
    omega
  refine ⟨if negative then -m else m, q, ?_, ?_, scaled.least⟩
  · rw [value_of_parts parts]
    split <;> simp
  · split <;> simpa using short

-- Every whole number of up to 53 bits, times a power of two, is the value of a number.
theorem exists_of_short {k i : ℤ} (short : |k| ≤ 2 ^ 53) (least : leastExponent ≤ i)
    (most : i ≤ 970) :
    ∃ y : Float, y.isFinite = true ∧ value y = k * 2 ^ i := by
  obtain ⟨m, e, scaled, same⟩ : ∃ m e, IsScaled m e ∧ (m * 2 ^ e : ℚ) = |k| * 2 ^ i := by
    obtain ⟨n, hn⟩ := Int.eq_ofNat_of_zero_le (abs_nonneg k)
    rw [hn] at short ⊢
    rcases (by omega : n < 2 ^ 53 ∨ n = 2 ^ 53) with inside | rfl
    · exact_mod_cast exists_isScaled inside least (by omega)
    · refine ⟨2 ^ 52, i + 1, ⟨by omega, by omega, by decide, fun _ => by decide⟩, ?_⟩
      rw [zpow_add_one₀ two_ne_zero]
      push_cast
      ring
  rcases abs_choice k with sign | sign <;> rw [sign] at same
  · exact ⟨_, isFinite_of_parts (parts_unpacked (s := .positive) scaled),
      (value_unpacked scaled).trans same⟩
  · refine ⟨_, isFinite_of_parts (parts_unpacked (s := .negative) scaled), ?_⟩
    rw [value_unpacked scaled, withSign, same]
    push_cast
    ring

-- Whether no number is nearer to a ratio.
structure IsNearest (x : Float) (r : ℚ) : Prop where
  finite  : x.isFinite = true
  nearest : ∀ y : Float, y.isFinite = true → |value x - r| ≤ |value y - r|

-- Of the whole numbers, none is nearer than one that is at most a half away.
theorem abs_sub_le_of_near {w : ℚ} {n : ℤ} (near : |w - n| ≤ 1 / 2) (j : ℤ) :
    |w - n| ≤ |w - j| := by
  rcases eq_or_ne j n with rfl | apart
  · exact le_refl _
  · have one : (1 : ℚ) ≤ |(j - n : ℤ)| := by exact_mod_cast Int.one_le_abs (sub_ne_zero.mpr apart)
    have split : |((j - n : ℤ) : ℚ)| ≤ |w - j| + |w - n| := by
      have : ((j - n : ℤ) : ℚ) = (w - n) - (w - j) := by push_cast; ring
      rw [this]
      have := abs_sub (w - n) (w - j)
      linarith
    push_cast at one
    push_cast at split
    linarith

-- A whole multiple of `2 ^ t` that is at most half a unit away is the nearest number, since the
-- numbers between the multiples are all nearer to zero than `r` is.
theorem nearest_of_near {n t : ℤ} (near : |r / 2 ^ t - n| ≤ 1 / 2)
    (full : t = leastExponent ∨ 2 ^ 52 ≤ |r / 2 ^ t|) (hy : y.isFinite = true) :
    |n * 2 ^ t - r| ≤ |value y - r| := by
  obtain ⟨k, q, hv, short, above⟩ := exists_value_eq hy
  have unit : (0 : ℚ) < 2 ^ t := by positivity
  have scaled (z : ℚ) : |z - r| = |r / 2 ^ t - z / 2 ^ t| * 2 ^ t := by
    rw [← abs_of_pos unit, ← abs_mul, abs_of_pos unit, sub_mul, div_mul_cancel₀ _ unit.ne',
      div_mul_cancel₀ _ unit.ne', abs_sub_comm]
  rw [scaled, scaled, mul_div_cancel_right₀ _ unit.ne']
  generalize r / 2 ^ t = w at *
  refine mul_le_mul_of_nonneg_right ?_ unit.le
  rcases le_or_gt t q with high | low
  case inl =>
    obtain ⟨d, rfl⟩ := Int.le.dest high
    have whole : value y / 2 ^ t = (k * 2 ^ d : ℤ) := by
      rw [hv, zpow_add₀ two_ne_zero]
      field_simp
      push_cast
      rw [zpow_natCast]
    rw [whole]
    exact abs_sub_le_of_near near _
  case inr =>
    have high : 2 ^ 52 ≤ |w| := full.resolve_left (by omega)
    have inside : |value y / 2 ^ t| ≤ 2 ^ 52 := by
      have short : |(k : ℚ)| ≤ 2 ^ 53 := by exact_mod_cast short.le
      have half : (2 : ℚ) ^ (q - t) ≤ 2 ^ (-1 : ℤ) := by gcongr <;> [norm_num; omega]
      have step : (0 : ℚ) < 2 ^ (q - t) := by positivity
      rw [hv, mul_div_assoc, ← zpow_sub₀ two_ne_zero, abs_mul, abs_of_pos step]
      calc |(k : ℚ)| * 2 ^ (q - t) ≤ 2 ^ 53 * 2 ^ (-1 : ℤ) := by gcongr
        _ = 2 ^ 52 := by norm_num
    -- The end of the binade is a whole multiple, too.
    have edge : |w - n| ≤ |w| - 2 ^ 52 := by
      rcases abs_cases w with ⟨h, _⟩ | ⟨h, _⟩
      · have := abs_sub_le_of_near near (2 ^ 52)
        rw [Int.cast_pow, Int.cast_ofNat] at this
        rw [abs_of_nonneg (by linarith : (0 : ℚ) ≤ w - 2 ^ 52)] at this
        linarith
      · have := abs_sub_le_of_near near (-2 ^ 52)
        rw [Int.cast_neg, Int.cast_pow, Int.cast_ofNat] at this
        rw [abs_of_nonpos (by linarith : w - -2 ^ 52 ≤ (0 : ℚ))] at this
        linarith
    have := abs_sub_abs_le_abs_sub w (value y / 2 ^ t)
    linarith

theorem value_abs (h : x.isFinite = true) : value x.abs = |value x| := by
  obtain ⟨negative, m, q, parts⟩ := exists_parts h
  rw [value_of_parts parts, value_of_parts (parts_abs parts)]
  cases negative <;> simp [abs_mul, abs_of_pos (by positivity : (0 : ℚ) < 2 ^ q)]

namespace IsNearest

theorem self (h : x.isFinite = true) : IsNearest x (value x) where
  finite := h
  nearest y _ := by simp

-- A number whose value is to be rounded stays as it is.
theorem value_eq (h : IsNearest x (value y)) (hy : y.isFinite = true) : value x = value y := by
  have := h.nearest y hy
  rw [sub_self, abs_zero] at this
  exact sub_eq_zero.mp (abs_nonpos_iff.mp this)

-- Rounding does not pass a number.
theorem value_le (h : IsNearest x r) (hy : y.isFinite = true) (le : r ≤ value y) :
    value x ≤ value y := by
  by_contra! above
  have := h.nearest y hy
  rw [abs_of_pos (by linarith), abs_of_nonneg (by linarith)] at this
  linarith

theorem le_value (h : IsNearest x r) (hy : y.isFinite = true) (le : value y ≤ r) :
    value y ≤ value x := by
  by_contra! below
  have := h.nearest y hy
  rw [abs_of_neg (by linarith), abs_of_nonpos (by linarith)] at this
  linarith

-- Rounding keeps ratios in order.
theorem value_le_value {s : ℚ} (hx : IsNearest x r) (hy : IsNearest y s) (less : r < s) :
    value x ≤ value y := by
  by_contra! above
  have below : value x + value y ≤ 2 * r := by
    have := sq_le_sq.mpr (hx.nearest y hy.finite)
    nlinarith
  have beyond : 2 * s ≤ value x + value y := by
    have := sq_le_sq.mpr (hy.nearest x hx.finite)
    nlinarith
  linarith

-- The error is at most half the distance of the whole multiples that have 53 bits.
theorem abs_sub_le {i : ℤ} (h : IsNearest x r) (bound : |r| ≤ 2 ^ 53 * 2 ^ i)
    (least : leastExponent ≤ i) (most : i ≤ 970) : |value x - r| ≤ 2 ^ i / 2 := by
  have unit : (0 : ℚ) < 2 ^ i := by positivity
  have near := abs_sub_round (r / 2 ^ i)
  have short : |round (r / 2 ^ i)| ≤ 2 ^ 53 := by
    have inside : |r / 2 ^ i| ≤ 2 ^ 53 := by rwa [abs_div, abs_of_pos unit, div_le_iff₀ unit]
    have : |(round (r / 2 ^ i) : ℚ)| < 2 ^ 53 + 1 := by
      have := abs_sub_abs_le_abs_sub (round (r / 2 ^ i) : ℚ) (r / 2 ^ i)
      rw [abs_sub_comm] at this
      linarith
    exact Int.lt_add_one_iff.mp (by exact_mod_cast this)
  obtain ⟨y, hy, value_y⟩ := exists_of_short short least most
  refine (h.nearest y hy).trans ?_
  have apart : r - round (r / 2 ^ i) * 2 ^ i = (r / 2 ^ i - round (r / 2 ^ i)) * 2 ^ i := by
    field_simp
  rw [value_y, abs_sub_comm, apart, abs_mul, abs_of_pos unit]
  linarith [mul_le_mul_of_nonneg_right near unit.le]

end IsNearest

end

end MetricCollector.Binary
