import MetricCollector.Proofs.Binary.Value

namespace MetricCollector.Binary

open Float.Model Float.Model.UnpackedFloat

section extended

-- The ratios that a mantissa with two more bits stands for. The first of them says whether a half
-- is reached, the second whether there is more.
def Stands (em : ExtendedMantissa) (w : ℚ) : Prop :=
  match em.roundBit, em.stickyBit with
  | false, false => w = em.mantissa
  | false, true  => em.mantissa < w ∧ w < em.mantissa + 1 / 2
  | true,  false => w = em.mantissa + 1 / 2
  | true,  true  => em.mantissa + 1 / 2 < w ∧ w < em.mantissa + 1

variable {em : ExtendedMantissa} {w : ℚ}

theorem Stands.bounds (h : Stands em w) : em.mantissa ≤ w ∧ w < em.mantissa + 1 := by
  obtain ⟨m, r, s⟩ := em
  cases r <;> cases s <;> simp only [Stands] at h ⊢ <;> constructor <;> linarith

theorem Stands.near (h : Stands em w) : |w - em.roundedMantissa| ≤ 1 / 2 := by
  obtain ⟨m, r, s⟩ := em
  have parity : m % 2 = 0 ∨ m % 2 = 1 := by omega
  cases r <;> cases s <;> simp only [Stands] at h <;>
    simp only [ExtendedMantissa.roundedMantissa, ExtendedMantissa.accuracy,
      Accuracy.roundToNearestEven, abs_le]
  case true.false => rcases parity with p | p <;> rw [p] <;> push_cast <;> constructor <;> linarith
  all_goals push_cast; constructor <;> linarith

theorem Stands.shiftRightOne (h : Stands em w) : Stands em.shiftRightOne (w / 2) := by
  obtain ⟨m, r, s⟩ := em
  have whole : ((m % 2 : ℕ) : ℚ) + 2 * (m / 2 : ℕ) = m := by exact_mod_cast Nat.mod_add_div m 2
  have parity : m % 2 = 0 ∨ m % 2 = 1 := by omega
  cases r <;> cases s <;> rcases parity with p | p <;> rw [p] at whole <;> push_cast at whole <;>
    simp only [Stands] at h <;> simp [Stands, ExtendedMantissa.shiftRightOne, p] <;>
    (try constructor) <;> linarith

theorem Stands.shiftRight (h : Stands em w) (k : Nat) : Stands (em >>> k) (w / 2 ^ k) := by
  change Stands (k.repeat ExtendedMantissa.shiftRightOne em) _
  induction k
  case zero => simpa [Nat.repeat] using h
  case succ k ih =>
    rw [pow_succ, ← div_div]
    exact ih.shiftRightOne

theorem stands_exact (m : Nat) : Stands (.ofMantissaAndAccuracy m .exact) m := rfl

end extended

section rounded

variable {m : Nat} {e : Int} {acc : Accuracy} {w : ℚ} {s : Sign}

-- The exponent that leaves 53 bits to a mantissa, or fewer if it is the least one.
def target (m : Nat) (e : Int) : Int :=
  max (m.log2 + e - 52) leastExponent

theorem targetExponent_eq (m : Nat) (e : Int) :
    Format.binary64.targetExponent (totalExponent m e) = target m e := by
  simp only [Format.targetExponent, totalExponent, Format.mantissaBits, Format.minExponent, target,
    leastExponent]
  norm_num
  omega

theorem shiftToTargetExponent_eq (m : Nat) (e : Int) (acc : Accuracy) :
    shiftToTargetExponent Format.binary64 m e acc =
      (ExtendedMantissa.ofMantissaAndAccuracy m acc >>> (target m e - e).toNat,
        e + (target m e - e).toNat) := by
  rw [shiftToTargetExponent, targetExponent_eq]
  rfl

-- A mantissa that rounds up to the next power of two carries.
def carried (s : Sign) (n : Nat) (t : Int) : UnpackedFloat :=
  if n < 2 ^ 53 then unpacked s n t else unpacked s (2 ^ 52) (t + 1)

theorem roundWithAccuracy_eq :
    roundWithAccuracy Format.binary64 s m e acc =
      let first := shiftToTargetExponent Format.binary64 m e acc
      let second := shiftToTargetExponent Format.binary64 first.1.roundedMantissa first.2 .exact
      unpacked s second.1.mantissa second.2 := by
  simp only [roundWithAccuracy, unpacked, Nat.pos_iff_ne_zero]
  split <;> simp_all

theorem shiftToTargetExponent_short {n : Nat} {t : Int} (least : leastExponent ≤ t)
    (short : n < 2 ^ 53) :
    shiftToTargetExponent Format.binary64 n t .exact = (⟨n, false, false⟩, t) := by
  have log : n.log2 ≤ 52 := by
    rcases Nat.eq_zero_or_pos n with rfl | pos
    · decide
    · have := (Nat.log2_lt pos.ne').mpr short
      omega
  have stays : (target n t - t).toNat = 0 := by
    rw [target]
    omega
  rw [shiftToTargetExponent_eq, stays]
  simp [HShiftRight.hShiftRight, Nat.repeat, ExtendedMantissa.ofMantissaAndAccuracy]

theorem shiftToTargetExponent_power {t : Int} (least : leastExponent ≤ t) :
    shiftToTargetExponent Format.binary64 (2 ^ 53) t .exact = (⟨2 ^ 52, false, false⟩, t + 1) := by
  have once : (target (2 ^ 53) t - t).toNat = 1 := by
    rw [target, Nat.log2_two_pow]
    omega
  rw [shiftToTargetExponent_eq, once]
  simp [HShiftRight.hShiftRight, Nat.repeat, ExtendedMantissa.ofMantissaAndAccuracy,
    ExtendedMantissa.shiftRightOne]

-- `n * 2 ^ t` is a ratio rounded to 53 bits, or to fewer if `t` is the least exponent.
structure IsRounded (w : ℚ) (n : Nat) (t : Int) : Prop where
  least : leastExponent ≤ t
  near  : |w / 2 ^ t - n| ≤ 1 / 2
  full  : t = leastExponent ∨ 2 ^ 52 ≤ w / 2 ^ t
  short : n ≤ 2 ^ 53

theorem roundWithAccuracy_spec (s : Sign) (stands : Stands (.ofMantissaAndAccuracy m acc) w)
    (low : e ≤ target m e) :
    ∃ n, roundWithAccuracy Format.binary64 s m e acc = carried s n (target m e) ∧
      IsRounded (w * 2 ^ e) n (target m e) := by
  obtain ⟨k, above⟩ := Int.le.dest low
  have shift : (target m e - e).toNat = k := by omega
  have least : leastExponent ≤ target m e := le_max_right _ _
  have log : m.log2 ≤ 52 + k := by
    rw [target] at above
    omega
  have shifted := stands.shiftRight k
  have first := shiftToTargetExponent_eq m e acc
  rw [shift, above] at first
  have unit : w * 2 ^ e / 2 ^ target m e = w / 2 ^ k := by
    rw [← above, zpow_add₀ two_ne_zero, zpow_natCast]
    field_simp
  have mantissa : (ExtendedMantissa.ofMantissaAndAccuracy m acc).mantissa = m := by
    cases acc
    case exact => rfl
    case inexact o => cases o <;> rfl
  have floor := stands.bounds
  rw [mantissa] at floor
  generalize ExtendedMantissa.ofMantissaAndAccuracy m acc >>> k = em at *
  have rounded : em.roundedMantissa ≤ 2 ^ 53 := by
    have top : m + 1 ≤ 2 ^ (53 + k) := by
      have := Nat.lt_log2_self (n := m)
      have : 2 ^ (m.log2 + 1) ≤ 2 ^ (53 + k) := Nat.pow_le_pow_right (by decide) (by omega)
      omega
    have top : (m + 1 : ℚ) ≤ 2 ^ 53 * 2 ^ k := by
      rw [← pow_add]
      exact_mod_cast top
    have below : w / 2 ^ k < 2 ^ 53 := by
      rw [div_lt_iff₀ (by positivity)]
      linarith
    have floor : em.mantissa < 2 ^ 53 := by
      have := shifted.bounds.1.trans_lt below
      exact_mod_cast this
    obtain ⟨mantissa, r, s⟩ := em
    cases r <;> cases s <;> simp only [ExtendedMantissa.roundedMantissa,
      ExtendedMantissa.accuracy, Accuracy.roundToNearestEven] at floor ⊢ <;> omega
  refine ⟨em.roundedMantissa, ?_, least, ?_, ?_, rounded⟩
  · -- Rounding up to the next power of two is all that is left to shift.
    simp only [roundWithAccuracy_eq, first, carried]
    by_cases short : em.roundedMantissa < 2 ^ 53
    · rw [if_pos short, shiftToTargetExponent_short least short]
    · obtain power : em.roundedMantissa = 2 ^ 53 := by omega
      rw [if_neg short, power, shiftToTargetExponent_power least]
  · rw [unit]
    exact shifted.near
  · refine or_iff_not_imp_left.mpr fun inner => ?_
    have exact : m.log2 = 52 + k := by
      rw [target] at inner above
      omega
    have positive : m ≠ 0 := by
      rintro rfl
      rw [Nat.log2_zero] at exact
      omega
    have power : ((2 ^ (52 + k) : ℕ) : ℚ) ≤ m := by
      exact_mod_cast exact ▸ Nat.log2_self_le positive
    rw [unit, le_div_iff₀ (by positivity), ← pow_add]
    push_cast at power
    exact power.trans floor.1

section nearest

variable {r : ℚ} {n : Nat} {t : Int}

theorem IsRounded.exponent_le (h : IsRounded r n t) (bound : r ≤ 2 ^ (1023 : ℤ)) : t ≤ 971 := by
  rcases h.full with least | full
  · rw [least, leastExponent]
    decide
  · rw [le_div_iff₀ (by positivity), ← zpow_natCast, ← zpow_add₀ two_ne_zero] at full
    have := (zpow_le_zpow_iff_right₀ one_lt_two).mp (full.trans bound)
    omega

theorem IsRounded.exponent_lt (h : IsRounded r (2 ^ 53) t) (bound : r ≤ 2 ^ (1023 : ℤ)) :
    t + 1 ≤ 971 := by
  have near := (abs_le.mp h.near).1
  have above : (2 : ℚ) ^ (52 : ℤ) < r / 2 ^ t := by
    push_cast at near
    norm_num at near ⊢
    linarith
  rw [lt_div_iff₀ (by positivity), ← zpow_add₀ two_ne_zero] at above
  have := (zpow_lt_zpow_iff_right₀ one_lt_two).mp (above.trans_le bound)
  omega

theorem IsRounded.isScaled (h : IsRounded r n t) (bound : r ≤ 2 ^ (1023 : ℤ)) (short : n < 2 ^ 53) :
    IsScaled n t where
  least := h.least
  most := h.exponent_le bound
  short := by rwa [normalFrom_eq]
  full inner := by
    rw [normalFrom_eq]
    have full := h.full.resolve_left (ne_of_gt inner)
    have near := (abs_le.mp h.near).2
    have : ((2 ^ 52 : ℕ) : ℚ) < (n + 1 : ℕ) := by
      push_cast
      linarith
    have := Nat.cast_lt.mp this
    omega

theorem value_carried (h : IsRounded r n t) (bound : r ≤ 2 ^ (1023 : ℤ)) :
    Float.isFinite ⟨Float.Model.pack (carried s n t)⟩ = true ∧
      value ⟨Float.Model.pack (carried s n t)⟩ = withSign s (n * 2 ^ t) := by
  rw [carried]
  split
  case isTrue short =>
    have scaled := h.isScaled bound short
    exact ⟨isFinite_of_parts (parts_unpacked scaled), value_unpacked scaled⟩
  case isFalse long =>
    obtain rfl : n = 2 ^ 53 := by have := h.short; omega
    have scaled : IsScaled (2 ^ 52) (t + 1) :=
      ⟨h.least.trans (by omega), h.exponent_lt bound, by decide, fun _ => by decide⟩
    refine ⟨isFinite_of_parts (parts_unpacked scaled), ?_⟩
    have same : ((2 ^ 52 : ℕ) * 2 ^ (t + 1) : ℚ) = (2 ^ 53 : ℕ) * 2 ^ t := by
      rw [zpow_add_one₀ two_ne_zero]
      push_cast
      ring
    rw [value_unpacked scaled, same]

-- Rounding gives the nearest number.
theorem isNearest_carried (h : IsRounded r n t) (bound : r ≤ 2 ^ (1023 : ℤ)) :
    IsNearest ⟨Float.Model.pack (carried s n t)⟩ (withSign s r) := by
  obtain ⟨finite, value⟩ := value_carried (s := s) h bound
  refine ⟨finite, fun y hy => ?_⟩
  have near := h.near
  have full : t = leastExponent ∨ 2 ^ 52 ≤ |r / 2 ^ t| := h.full.imp_right (·.trans (le_abs_self _))
  rw [value]
  cases s
  case positive =>
    exact nearest_of_near (n := n) (by exact_mod_cast near) full hy
  case negative =>
    have := nearest_of_near (r := -r) (n := -n) (t := t) (y := y)
      (by rw [neg_div, ← abs_neg]; convert near using 2; push_cast; ring)
      (by rwa [neg_div, abs_neg]) hy
    simpa [withSign] using this

end nearest

theorem isNearest_roundWithAccuracy (stands : Stands (.ofMantissaAndAccuracy m acc) w)
    (low : e ≤ target m e) (bound : w * 2 ^ e ≤ 2 ^ (1023 : ℤ)) :
    IsNearest ⟨Float.Model.pack (roundWithAccuracy Format.binary64 s m e acc)⟩
      (withSign s (w * 2 ^ e)) := by
  obtain ⟨n, result, rounded⟩ := roundWithAccuracy_spec s stands low
  rw [result]
  exact isNearest_carried rounded bound

end rounded

end MetricCollector.Binary
