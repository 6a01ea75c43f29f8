import Mathlib
import MetricCollector.Binary.Parts

namespace MetricCollector.Binary

open Float.Model Float.Model.UnpackedFloat

-- The bits of an unpacked number as a whole number with its sign. The exponent counts from the
-- least one, and the mantissa of a normal number carries into it.
def standing : UnpackedFloat → Int
  | .notANumber     => 0
  | .infinity s     => s.apply (2047 * 2 ^ 52)
  | .zero _         => 0
  | .finite s m e _ => s.apply ((e + 1074) * 2 ^ 52 + m)

-- What unpacking guarantees. Only numbers with the least exponent have a short mantissa.
def IsCanonical : UnpackedFloat → Prop
  | .finite _ m e _ => -1074 ≤ e ∧ e ≤ 971 ∧ m < 2 ^ 53 ∧ (e = -1074 ∨ 2 ^ 52 ≤ m)
  | _               => True

theorem toNat_unpackExponent (b : BitVec Format.binary64.numBits) :
    (unpackExponent b).toNat = b.toNat / 2 ^ 52 % 2 ^ 11 := by
  simp [unpackExponent, BitVec.extractLsb_toNat, Nat.shiftRight_eq_div_pow]

theorem toNat_unpackMantissa (b : BitVec Format.binary64.numBits) :
    (unpackMantissa b).toNat = b.toNat % 2 ^ 52 := by
  simp [unpackMantissa, BitVec.extractLsb_toNat, Nat.shiftRight_eq_div_pow]

theorem toNat_unpackSign (b : BitVec Format.binary64.numBits) :
    (unpackSign b).toNat = b.toNat / 2 ^ 63 := by
  have : b.toNat < 2 ^ 64 := b.isLt
  simp only [unpackSign, BitVec.toNat_cast, BitVec.extractLsb_toNat, Nat.shiftRight_eq_div_pow]
  omega

theorem toNat_implicit_append (m : BitVec 52) : (1#1 ++ m).toNat = 2 ^ 52 + m.toNat := by
  rw [BitVec.toNat_append, ← Nat.shiftLeft_add_eq_or_of_lt m.isLt]
  simp [Nat.shiftLeft_eq]

theorem ofBitVec_unpackSign (b : BitVec Format.binary64.numBits) :
    Sign.ofBitVec (unpackSign b) = if 2 ^ 63 ≤ b.toNat then .negative else .positive := by
  have hb : b.toNat < 2 ^ 64 := b.isLt
  have hs := toNat_unpackSign b
  have : unpackSign b = 0#1 ↔ ¬ 2 ^ 63 ≤ b.toNat := by
    rw [← BitVec.toNat_inj, hs]
    simp only [BitVec.toNat_ofNat]
    omega
  simp only [Sign.ofBitVec, this]
  split <;> simp_all

theorem apply_ofBitVec_unpackSign (b : BitVec Format.binary64.numBits) (n : Int) :
    (Sign.ofBitVec (unpackSign b)).apply n = if 2 ^ 63 ≤ b.toNat then -n else n := by
  rw [ofBitVec_unpackSign]
  split <;> rfl

-- The bits of a number with the sign in front.
def signedBits (n : Nat) : Int :=
  if 2 ^ 63 ≤ n then -(n % 2 ^ 63 : Nat) else (n % 2 ^ 63 : Nat)

-- The cases are those of the exponent: the greatest one, the least one, and those between.
theorem unpack_spec (b : BitVec Format.binary64.numBits) :
    let u := UnpackedFloat.unpack Format.binary64 b
    IsCanonical u ∧ (u ≠ .notANumber → standing u = signedBits b.toNat) := by
  have hb : b.toNat < 2 ^ 64 := b.isLt
  have he := toNat_unpackExponent b
  have hm := toNat_unpackMantissa b
  have full : unpackExponent b = -1#11 ↔ b.toNat / 2 ^ 52 % 2 ^ 11 = 2047 := by
    rw [← BitVec.toNat_inj, he]
    rfl
  have least : unpackExponent b = 0#11 ↔ b.toNat / 2 ^ 52 % 2 ^ 11 = 0 := by
    rw [← BitVec.toNat_inj, he]
    rfl
  have even : unpackMantissa b = 0#52 ↔ b.toNat % 2 ^ 52 = 0 := by
    rw [← BitVec.toNat_inj, hm]
    rfl
  have bias : ((Format.binary64.exponentBias : Int) + (52 : Nat)) = 1075 := by decide
  simp only [UnpackedFloat.unpack]
  split
  case isTrue hfull =>
    have hfull := full.mp hfull
    split
    case isTrue heven =>
      have heven := even.mp heven
      refine ⟨trivial, fun _ => ?_⟩
      simp only [standing, apply_ofBitVec_unpackSign, signedBits]
      split <;> omega
    case isFalse => exact ⟨trivial, fun h => absurd rfl h⟩
  case isFalse hfull =>
    have hfull := mt full.mpr hfull
    split
    case isTrue hleast =>
      have hleast := least.mp hleast
      split
      case isTrue heven =>
        have heven := even.mp heven
        refine ⟨trivial, fun _ => ?_⟩
        simp only [standing, signedBits]
        split <;> omega
      case isFalse =>
        simp only [IsCanonical, standing, apply_ofBitVec_unpackSign, signedBits, bias, he, hm]
        refine ⟨by omega, fun _ => ?_⟩
        split <;> omega
    case isFalse hleast =>
      have hleast := mt least.mpr hleast
      simp only [IsCanonical, standing, apply_ofBitVec_unpackSign, signedBits, bias, he, hm,
        toNat_implicit_append]
      refine ⟨by omega, fun _ => ?_⟩
      split <;> omega

-- A greater exponent outweighs any mantissa.
theorem scale_lt {e e' : Int} {m m' : Nat} (h : e < e') (hm : m < 2 ^ 53) (hm' : 2 ^ 52 ≤ m') :
    (e + 1074) * 2 ^ 52 + m < (e' + 1074) * 2 ^ 52 + m' := by
  have : (e + 1074 + 1) * 2 ^ 52 ≤ (e' + 1074) * 2 ^ 52 :=
    Int.mul_le_mul_of_nonneg_right (by omega) (by decide)
  rw [Int.add_mul (e + 1074) 1] at this
  generalize (e + 1074) * 2 ^ 52 = x at this ⊢
  generalize (e' + 1074) * 2 ^ 52 = y at this ⊢
  omega

theorem compare_scale {s s' : Sign} {m m' : Nat} {e e' : Int} {hm : 0 < m} {hm' : 0 < m'}
    (h : IsCanonical (.finite s m e hm)) (h' : IsCanonical (.finite s' m' e' hm')) :
    (compare e e').then (compare m m') =
      compare ((e + 1074) * 2 ^ 52 + m : Int) ((e' + 1074) * 2 ^ 52 + m') := by
  simp only [IsCanonical] at h h'
  rcases Int.lt_trichotomy e e' with he | he | he
  · rw [Int.compare_eq_lt.mpr he, Int.compare_eq_lt.mpr (scale_lt he (by omega) (by omega))]
    rfl
  · subst he
    rw [Int.compare_eq_eq.mpr rfl, Ordering.eq_then]
    rcases Nat.lt_trichotomy m m' with hm | hm | hm
    · rw [Nat.compare_eq_lt.mpr hm, Int.compare_eq_lt.mpr (by omega)]
    · rw [Nat.compare_eq_eq.mpr hm, Int.compare_eq_eq.mpr (by omega)]
    · rw [Nat.compare_eq_gt.mpr hm, Int.compare_eq_gt.mpr (by omega)]
  · rw [Int.compare_eq_gt.mpr he, Int.compare_eq_gt.mpr (scale_lt he (by omega) (by omega))]
    rfl

theorem scale_bounds {s : Sign} {m : Nat} {e : Int} {hm : 0 < m}
    (h : IsCanonical (.finite s m e hm)) :
    0 < (e + 1074) * 2 ^ 52 + m ∧ (e + 1074) * 2 ^ 52 + m < 2047 * 2 ^ 52 := by
  simp only [IsCanonical] at h
  omega

theorem compare_neg_neg (a b : Int) : compare (-a) (-b) = compare b a := by
  rcases Int.lt_trichotomy a b with h | h | h
  · rw [Int.compare_eq_gt.mpr h, Int.compare_eq_gt.mpr (Int.neg_lt_neg h)]
  · rw [h]
    rw [Int.compare_eq_eq.mpr rfl, Int.compare_eq_eq.mpr rfl]
  · rw [Int.compare_eq_lt.mpr h, Int.compare_eq_lt.mpr (Int.neg_lt_neg h)]

theorem compare_eq {a b : UnpackedFloat} (ha : IsCanonical a) (hb : IsCanonical b)
    (na : a ≠ .notANumber) (nb : b ≠ .notANumber) :
    a.compare b = some (compare (standing a) (standing b)) := by
  have lt {x y : Int} (h : x < y) : some .lt = some (compare x y) :=
    congrArg some (Int.compare_eq_lt.mpr h).symm
  have gt {x y : Int} (h : y < x) : some .gt = some (compare x y) :=
    congrArg some (Int.compare_eq_gt.mpr h).symm
  cases a <;> cases b
  case notANumber.notANumber | notANumber.infinity | notANumber.zero | notANumber.finite =>
    contradiction
  case infinity.notANumber | zero.notANumber | finite.notANumber => contradiction
  case infinity.infinity s s' => cases s <;> cases s' <;> decide
  case infinity.zero s _ => cases s <;> rfl
  case zero.infinity _ s => cases s <;> rfl
  case zero.zero => rfl
  case infinity.finite s s' _ _ _ =>
    have := scale_bounds hb
    cases s <;> cases s' <;> simp only [standing, Sign.apply]
    case negative.negative | negative.positive => exact lt (by omega)
    case positive.negative | positive.positive => exact gt (by omega)
  case finite.infinity s _ _ _ s' =>
    have := scale_bounds ha
    cases s <;> cases s' <;> simp only [standing, Sign.apply]
    case negative.negative | positive.negative => exact gt (by omega)
    case negative.positive | positive.positive => exact lt (by omega)
  case zero.finite _ s _ _ _ =>
    have := scale_bounds hb
    cases s <;> simp only [standing, Sign.apply]
    case negative => exact gt (by omega)
    case positive => exact lt (by omega)
  case finite.zero s _ _ _ _ =>
    have := scale_bounds ha
    cases s <;> simp only [standing, Sign.apply]
    case negative => exact lt (by omega)
    case positive => exact gt (by omega)
  case finite.finite s _ _ _ s' _ _ _ =>
    have := scale_bounds ha
    have := scale_bounds hb
    have same := compare_scale ha hb
    cases s <;> cases s' <;> simp only [standing, Sign.apply]
    case negative.negative =>
      refine congrArg some ?_
      rw [same, Int.compare_swap, compare_neg_neg]
    case positive.positive => exact congrArg some same
    case negative.positive => exact lt (by omega)
    case positive.negative => exact gt (by omega)

-- Where a number stands among all numbers. Both zeros stand at the same place.
def place (x : Float) : Int :=
  signedBits x.toBits.toNat

variable {x y : Float}

theorem unpack_ne_notANumber (h : x.isNaN = false) : x.toModel.unpack ≠ .notANumber := by
  intro hx
  have : x.isNaN = x.toModel.unpack.isNaN := rfl
  rw [this, hx] at h
  cases h

theorem compare_unpack (hx : x.isNaN = false) (hy : y.isNaN = false) :
    x.toModel.unpack.compare y.toModel.unpack = some (compare (place x) (place y)) := by
  have ⟨cx, sx⟩ := unpack_spec x.toModel.toBits.toBitVec
  have ⟨cy, sy⟩ := unpack_spec y.toModel.toBits.toBitVec
  have nx := unpack_ne_notANumber hx
  have ny := unpack_ne_notANumber hy
  have := compare_eq cx cy nx ny
  rw [sx nx, sy ny] at this
  exact this

theorem lt_iff (hx : x.isNaN = false) (hy : y.isNaN = false) : x < y ↔ place x < place y := by
  have : x < y ↔ (x.toModel.unpack.compare y.toModel.unpack == some .lt) = true :=
    decide_eq_true_iff
  rw [this, compare_unpack hx hy, ← Int.compare_eq_lt]
  simp

theorem le_iff (hx : x.isNaN = false) (hy : y.isNaN = false) : x ≤ y ↔ place x ≤ place y := by
  have : x ≤ y ↔ (x.toModel.unpack.compare y.toModel.unpack).any (·.isLE) = true :=
    decide_eq_true_iff
  rw [this, compare_unpack hx hy]
  simp [Int.isLE_compare]

theorem beq_iff (hx : x.isNaN = false) (hy : y.isNaN = false) :
    (x == y) = true ↔ place x = place y := by
  have : (x == y) = (x.toModel.unpack.compare y.toModel.unpack == some .eq) := rfl
  rw [this, compare_unpack hx hy, ← Int.compare_eq_eq]
  simp

theorem isNaN_eq_false (h : x.isFinite = true) : x.isNaN = false := by
  have finite : x.isFinite = x.toModel.unpack.isFinite := rfl
  have nan : x.isNaN = x.toModel.unpack.isNaN := rfl
  rw [finite] at h
  rw [nan]
  cases hx : x.toModel.unpack
  case notANumber =>
    rw [hx] at h
    cases h
  case infinity | zero | finite => rfl

-- Both infinities stand beyond all finite numbers.
theorem place_bounds (h : x.isFinite = true) :
    -(2047 * 2 ^ 52) < place x ∧ place x < 2047 * 2 ^ 52 := by
  have ⟨canonical, stands⟩ := unpack_spec x.toModel.toBits.toBitVec
  have stands : standing x.toModel.unpack = place x :=
    stands (unpack_ne_notANumber (isNaN_eq_false h))
  have finite : x.isFinite = x.toModel.unpack.isFinite := rfl
  have canonical : IsCanonical x.toModel.unpack := canonical
  rw [finite] at h
  rw [← stands]
  cases hx : x.toModel.unpack <;> rw [hx] at h canonical
  case notANumber | infinity => cases h
  case zero => simp [standing]
  case finite s _ _ _ =>
    have := scale_bounds canonical
    cases s <;> simp only [standing, Sign.apply] <;> omega

-- The total order tells the zeros apart, but otherwise agrees with the places.
theorem place_le_of_rankedLe (h : rankedLe x y = true) : place x ≤ place y := by
  have power : twoTo 63 = 2 ^ 63 := by decide
  simp only [rankedLe, rankKey, magnitudeBits, power, decide_eq_true_eq] at h
  simp only [place, signedBits]
  by_cases hx : 2 ^ 63 ≤ x.toBits.toNat <;> by_cases hy : 2 ^ 63 ≤ y.toBits.toNat <;>
    simp only [hx, hy, if_true, if_false] at h ⊢ <;> omega

end MetricCollector.Binary
