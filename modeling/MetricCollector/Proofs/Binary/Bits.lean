import MetricCollector.Binary.Nearest
import MetricCollector.Proofs.Binary.Order

namespace MetricCollector.Binary

open Float.Model Float.Model.UnpackedFloat

theorem normalFrom_eq : normalFrom = 2 ^ 52 := by decide

theorem infinityBits_eq : infinityBits = 2047 * 2 ^ 52 := by decide

theorem signBit_eq : twoTo 63 = 2 ^ 63 := by decide

theorem exponentRange_eq : twoTo 11 = 2 ^ 11 := by decide

section

variable {b : BitVec Format.binary64.numBits}

theorem toNat_packComponents (s : Sign) (e : BitVec 11) (m : BitVec 52) :
    (packComponents Format.binary64 s e m).toNat =
      s.toBitVec.toNat * 2 ^ 63 + e.toNat * 2 ^ 52 + m.toNat := by
  change ((s.toBitVec ++ e) ++ m).toNat = _
  rw [BitVec.toNat_append, ← Nat.shiftLeft_add_eq_or_of_lt m.isLt, BitVec.toNat_append,
    ← Nat.shiftLeft_add_eq_or_of_lt e.isLt, Nat.shiftLeft_eq, Nat.shiftLeft_eq]
  ring

-- The same number with another sign.
def resigned (s : Sign) : UnpackedFloat → UnpackedFloat
  | .notANumber      => .notANumber
  | .infinity _      => .infinity s
  | .zero _          => .zero s
  | .finite _ m e hm => .finite s m e hm

-- A normal mantissa is packed without its first bit, any other as it is.
theorem pack_finite {s : Sign} {m : Nat} {e : Int} {hm : 0 < m} (most : e ≤ 971)
    (canonical : 2 ^ 52 ≤ m ∧ m < 2 ^ 53 ∨ m < 2 ^ 52) :
    pack Format.binary64 (.finite s m e hm) =
      packComponents Format.binary64 s
        (if 2 ^ 52 ≤ m then BitVec.ofNat _ (e + 1075).toNat else 0) (BitVec.ofNat _ m) := by
  have bias : e + Format.binary64.exponentBias + Format.binary64.mantissaBitsWithoutImplicit
      = e + 1075 := by
    change e + 1023 + 52 = e + 1075
    omega
  have fits : ¬2 ^ Format.binary64.exponentBits ≤ (e + 1075).toNat + 1 := by
    change ¬2 ^ 11 ≤ (e + 1075).toNat + 1
    omega
  have normal : m.log2 + 1 = Format.binary64.mantissaBits ↔ 2 ^ 52 ≤ m := by
    change m.log2 + 1 = 53 ↔ 2 ^ 52 ≤ m
    rw [← Nat.le_log2 hm.ne']
    have : m.log2 < 53 := (Nat.log2_lt hm.ne').mpr (by omega)
    omega
  simp only [UnpackedFloat.pack, bias, if_neg fits, normal]
  split <;> rfl

-- The cases are those of the exponent, as in unpacking.
theorem pack_resigned (s : Sign) (number : unpack Format.binary64 b ≠ .notANumber) :
    pack Format.binary64 (resigned s (unpack Format.binary64 b)) =
      packComponents Format.binary64 s (unpackExponent b) (unpackMantissa b) := by
  have he := toNat_unpackExponent b
  have hm := toNat_unpackMantissa b
  have bias : ((Format.binary64.exponentBias : Int) + (52 : Nat)) = 1075 := by decide
  simp only [UnpackedFloat.unpack] at number ⊢
  split at number
  case isTrue full =>
    rw [if_pos full]
    split at number
    case isFalse => exact absurd rfl number
    case isTrue even =>
      rw [if_pos even, full, even]
      rfl
  case isFalse full =>
    rw [if_neg full]
    split
    case isTrue least =>
      split
      case isTrue even =>
        rw [least, even]
        rfl
      case isFalse =>
        have zero : (unpackExponent b).toNat = 0 := congrArg BitVec.toNat least
        have short : (unpackMantissa b).toNat < 2 ^ 52 := (unpackMantissa b).isLt
        rw [resigned, pack_finite (by omega) (.inr short), if_neg (by omega), least,
          BitVec.ofNat_toNat]
        rfl
    case isFalse least =>
      have below : (unpackExponent b).toNat < 2 ^ 11 := (unpackExponent b).isLt
      have short : (unpackMantissa b).toNat < 2 ^ 52 := (unpackMantissa b).isLt
      have notFull : (unpackExponent b).toNat ≠ 2047 := fun h => full (BitVec.eq_of_toNat_eq h)
      have mantissa := toNat_implicit_append (unpackMantissa b)
      have exponent : ((unpackExponent b).toNat - 1075 + 1075 : Int).toNat =
          (unpackExponent b).toNat := by omega
      have kept : BitVec.ofNat 52 (2 ^ 52 + (unpackMantissa b).toNat) = unpackMantissa b :=
        BitVec.eq_of_toNat_eq (by rw [BitVec.toNat_ofNat]; omega)
      simp only [resigned, bias, mantissa]
      rw [pack_finite (by omega) (.inl (by omega)), if_pos (by omega), exponent, kept,
        BitVec.ofNat_toNat, BitVec.setWidth_eq]

theorem toBitVec_ofBitVec (v : BitVec 1) : (Sign.ofBitVec v).toBitVec = v := by
  revert v
  decide

theorem packComponents_unpack (b : BitVec Format.binary64.numBits) :
    packComponents Format.binary64 (Sign.ofBitVec (unpackSign b)) (unpackExponent b)
      (unpackMantissa b) = b := by
  refine BitVec.eq_of_toNat_eq ?_
  have : b.toNat < 2 ^ 64 := b.isLt
  rw [toNat_packComponents, toBitVec_ofBitVec, toNat_unpackSign, toNat_unpackExponent,
    toNat_unpackMantissa]
  omega

theorem resigned_unpack (b : BitVec Format.binary64.numBits) :
    resigned (Sign.ofBitVec (unpackSign b)) (unpack Format.binary64 b) =
      unpack Format.binary64 b := by
  simp only [UnpackedFloat.unpack]
  repeat' split
  all_goals rfl

theorem abs_eq_resigned (u : UnpackedFloat) : u.abs = resigned .positive u := by
  cases u <;> rfl

end

variable {x y : Float}

theorem eq_of_toBits (h : x.toBits = y.toBits) : x = y := by
  obtain ⟨⟨a, _⟩⟩ := x
  obtain ⟨⟨b, _⟩⟩ := y
  cases (show a = b from h)
  rfl

-- Only the zeros share their place.
theorem eq_of_place_eq (other : place x ≠ 0) (same : place x = place y) : x = y := by
  have hx : x.toBits.toNat < 2 ^ 64 := x.toBits.toNat_lt
  have hy : y.toBits.toNat < 2 ^ 64 := y.toBits.toNat_lt
  refine eq_of_toBits (UInt64.toNat_inj.mp ?_)
  simp only [place, signedBits] at other same
  split at same <;> split at same <;> omega

-- Whether bits are those of a number. All others are infinite or not a number.
def AreFinite (bits : Nat) : Prop :=
  bits / 2 ^ 52 % 2 ^ 11 ≠ 2047

theorem unpack_ne_of_areFinite {b : BitVec Format.binary64.numBits} (h : AreFinite b.toNat) :
    unpack Format.binary64 b ≠ .notANumber := by
  have notFull : unpackExponent b ≠ -1#11 := by
    intro full
    have := toNat_unpackExponent b
    rw [full] at this
    exact h this.symm
  intro nan
  simp only [UnpackedFloat.unpack, if_neg notFull] at nan
  repeat' split at nan
  all_goals cases nan

theorem toBits_ofBits {bits : UInt64} (h : AreFinite bits.toNat) :
    (Float.ofBits bits).toBits = bits := by
  let b : BitVec Format.binary64.numBits := bits.toBitVec
  have packed := pack_resigned (Sign.ofBitVec (unpackSign b)) (unpack_ne_of_areFinite h)
  rw [resigned_unpack, packComponents_unpack] at packed
  exact congrArg UInt64.ofBitVec packed

theorem toNat_toBits_abs (h : AreFinite x.toBits.toNat) :
    x.abs.toBits.toNat = x.toBits.toNat % 2 ^ 63 := by
  have number := unpack_ne_of_areFinite (b := x.toBits.toBitVec) h
  have packed := pack_resigned .positive number
  rw [← abs_eq_resigned] at packed
  have bits : x.abs.toBits.toNat = (packComponents Format.binary64 .positive
      (unpackExponent x.toBits.toBitVec) (unpackMantissa x.toBits.toBitVec)).toNat :=
    congrArg BitVec.toNat packed
  rw [bits, toNat_packComponents, toNat_unpackExponent, toNat_unpackMantissa]
  change 0 * 2 ^ 63 + x.toBits.toNat / 2 ^ 52 % 2 ^ 11 * 2 ^ 52 + x.toBits.toNat % 2 ^ 52 = _
  omega

theorem isFinite_unpack_iff {b : BitVec Format.binary64.numBits} :
    (unpack Format.binary64 b).isFinite = true ↔ AreFinite b.toNat := by
  rw [AreFinite, ← toNat_unpackExponent b]
  simp only [UnpackedFloat.unpack]
  split
  case isTrue full =>
    rw [full]
    split <;> simp [UnpackedFloat.isFinite]
  case isFalse full =>
    have notFull : (unpackExponent b).toNat ≠ 2047 := fun h => full (BitVec.eq_of_toNat_eq h)
    repeat' split
    all_goals simp [UnpackedFloat.isFinite, notFull]

theorem isFinite_iff : x.isFinite = true ↔ AreFinite x.toBits.toNat :=
  isFinite_unpack_iff

-- The mantissas and exponents of the finite numbers. Of the many ways to write a number it is the
-- one with the longest mantissa.
structure IsScaled (m : Nat) (q : Int) : Prop where
  least : leastExponent ≤ q
  most  : q ≤ 971
  short : m < 2 * normalFrom
  full  : leastExponent < q → normalFrom ≤ m

-- The bits of `m * 2 ^ q`.
def scaledBits (m : Nat) (q : Int) : Nat :=
  (q - leastExponent).toNat * normalFrom + m

theorem scaledBits_lt {m : Nat} {q : Int} (h : IsScaled m q) : scaledBits m q < infinityBits := by
  obtain ⟨least, most, short, _⟩ := h
  rw [normalFrom_eq] at short
  rw [scaledBits, infinityBits_eq, normalFrom_eq, leastExponent] at *
  omega

section

variable {negative : Bool} {m : Nat} {q : Int}

theorem isScaled_of_parts (h : parts x = .finite negative m q) :
    IsScaled m q ∧ x.toBits.toNat = (if negative then 2 ^ 63 else 0) + scaledBits m q := by
  have bound : x.toBits.toNat < 2 ^ 64 := x.toBits.toNat_lt
  simp only [parts, normalFrom_eq, signBit_eq, exponentRange_eq, leastExponent] at h
  simp only [scaledBits, normalFrom_eq, leastExponent]
  generalize x.toBits.toNat = bits at h bound
  split at h
  case isTrue => split at h <;> cases h
  case isFalse full =>
    split at h
    case isTrue least =>
      cases h
      refine ⟨⟨le_refl _, by decide, ?_, fun above => absurd above (lt_irrefl _)⟩, ?_⟩
      · rw [normalFrom_eq]
        omega
      · simp only [decide_eq_true_eq]
        split <;> omega
    case isFalse =>
      cases h
      refine ⟨⟨?_, ?_, ?_, fun _ => ?_⟩, ?_⟩
      all_goals try simp only [leastExponent, normalFrom_eq, decide_eq_true_eq]
      · omega
      · omega
      · omega
      · omega
      · split <;> omega

-- The sign, the exponent and the mantissa are read from different places of the bits. A normal
-- mantissa carries into the exponent.
theorem parts_of_isScaled (scaled : IsScaled m q)
    (bits : x.toBits.toNat = (if negative then 2 ^ 63 else 0) + scaledBits m q) :
    parts x = .finite negative m q := by
  obtain ⟨least, most, short, full⟩ := scaled
  rw [leastExponent] at least full
  rw [normalFrom_eq] at short full
  obtain ⟨k, rfl⟩ : ∃ k : Nat, q = k - 1074 := ⟨(q + 1074).toNat, by omega⟩
  have exponent : ((k - 1074 : Int) - -1074).toNat = k := by omega
  rw [scaledBits, leastExponent, normalFrom_eq, exponent] at bits
  simp only [parts, normalFrom_eq, signBit_eq, exponentRange_eq, leastExponent, bits]
  generalize hs : (if negative = true then 2 ^ 63 else 0) = sign
  have top : negative = true ∧ sign = 2 ^ 63 ∨ negative = false ∧ sign = 0 := by
    cases negative <;> simp_all
  have negative_iff : 2 ^ 63 ≤ sign + (k * 2 ^ 52 + m) ↔ negative = true := by
    rcases top with ⟨rfl, rfl⟩ | ⟨rfl, rfl⟩ <;> simp
    omega
  by_cases normal : 2 ^ 52 ≤ m
  case pos =>
    have biased : (sign + (k * 2 ^ 52 + m)) / 2 ^ 52 % 2 ^ 11 = k + 1 := by omega
    have fraction : 2 ^ 52 + (sign + (k * 2 ^ 52 + m)) % 2 ^ 52 = m := by omega
    rw [biased, fraction, if_neg (by omega), if_neg (by omega)]
    simp only [negative_iff, Bool.decide_eq_true, Parts.finite.injEq, true_and]
    omega
  case neg =>
    have biased : (sign + (k * 2 ^ 52 + m)) / 2 ^ 52 % 2 ^ 11 = 0 := by omega
    have fraction : (sign + (k * 2 ^ 52 + m)) % 2 ^ 52 = m := by omega
    rw [biased, fraction, if_neg (by omega), if_pos rfl]
    simp only [negative_iff, Bool.decide_eq_true, Parts.finite.injEq, true_and]
    omega

end

theorem exists_parts (h : x.isFinite = true) : ∃ negative m q, parts x = .finite negative m q := by
  have areFinite := isFinite_iff.mp h
  rw [AreFinite] at areFinite
  simp only [parts, normalFrom_eq, exponentRange_eq]
  rw [if_neg (by omega)]
  split
  case isTrue  => exact ⟨_, _, _, rfl⟩
  case isFalse => exact ⟨_, _, _, rfl⟩

-- Numbers with the same parts are the same, where the parts are those of a number.
theorem eq_of_parts {negative : Bool} {m : Nat} {q : Int} (hx : parts x = .finite negative m q)
    (hy : parts y = .finite negative m q) : x = y := by
  have bits := (isScaled_of_parts hx).2.trans (isScaled_of_parts hy).2.symm
  exact eq_of_toBits (UInt64.toNat_inj.mp bits)

section

variable {negative : Bool} {m : Nat} {q : Int} (h : parts x = .finite negative m q)

include h

theorem bits_of_parts : scaledBits m q < 2047 * 2 ^ 52 ∧
    x.toBits.toNat = (if negative then 2 ^ 63 else 0) + scaledBits m q := by
  obtain ⟨scaled, bits⟩ := isScaled_of_parts h
  exact ⟨infinityBits_eq ▸ scaledBits_lt scaled, bits⟩

theorem place_of_parts : place x = if negative then -(scaledBits m q : Int) else scaledBits m q := by
  obtain ⟨below, bits⟩ := bits_of_parts h
  rw [place, signedBits, bits]
  cases negative <;> simp <;> omega

theorem areFinite_of_parts : AreFinite x.toBits.toNat := by
  obtain ⟨below, bits⟩ := bits_of_parts h
  rw [AreFinite, bits]
  split <;> omega

theorem isFinite_of_parts : x.isFinite = true :=
  isFinite_iff.mpr (areFinite_of_parts h)

theorem parts_abs : parts x.abs = .finite false m q := by
  obtain ⟨below, bits⟩ := bits_of_parts h
  refine parts_of_isScaled (isScaled_of_parts h).1 ?_
  rw [toNat_toBits_abs (areFinite_of_parts h), bits]
  cases negative <;> simp <;> omega

-- Where the nearest bits are those of a number, that number is the nearest.
theorem nearest_eq {num den : Nat} (bits : nearestBits num den = scaledBits m q) :
    nearest negative num den = x := by
  refine eq_of_toBits ?_
  have same : UInt64.ofNat ((if negative then twoTo 63 else 0) + nearestBits num den) =
      x.toBits := by
    rw [bits, signBit_eq, ← (isScaled_of_parts h).2, UInt64.ofNat_toNat]
  rw [nearest, same]
  exact toBits_ofBits (areFinite_of_parts h)

end
end MetricCollector.Binary
