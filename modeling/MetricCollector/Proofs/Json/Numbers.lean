import MetricCollector.Proofs.Decimal.Shortest
import MetricCollector.Proofs.Json.Scalars

namespace MetricCollector.Json

namespace Numeral

section

variable {d : Decimal} (negative : Bool)

theorem isNegative_ofDecimal : (ofDecimal negative d).isNegative = negative := by
  rw [ofDecimal]
  split
  · split <;> rfl
  · rfl

theorem isPlain_ofDecimal : (ofDecimal negative d).IsPlain := by
  rw [ofDecimal]
  split
  case isTrue =>
    split
    case isTrue        => exact .inl one_ne_zero
    case isFalse below => exact .inl (by omega)
  case isFalse far =>
    refine .inr fun zero => far (.inr ?_)
    rw [isPositional, zero]
    decide

theorem width_pos {n : Nat} (h : n ≠ 0) : 0 < Decimal.width n := by
  rw [Decimal.width_eq n h]
  exact Nat.succ_pos _

theorem value_decimal_ofDecimal : (ofDecimal negative d).decimal.value = d.value := by
  rw [ofDecimal]
  split
  case isTrue =>
    split
    case isTrue above =>
      obtain ⟨n, hn⟩ := Int.eq_ofNat_of_zero_le above
      simp only [decimal, Decimal.value, hn, Int.toNat_natCast, tenTo, Nat.pow_eq, Nat.cast_one,
        zero_sub, zpow_natCast, zpow_neg_one, pow_succ]
      push_cast
      field_simp
    case isFalse below =>
      have exponent : (0 : ℤ) - (-d.exponent).toNat = d.exponent := by omega
      rw [decimal, exponent]
  case isFalse far =>
    have pos := width_pos fun zero => far (.inl zero)
    have exponent : d.leadingExponent - (Decimal.width d.digits - 1 : ℕ) = d.exponent := by
      rw [Decimal.leadingExponent]
      omega
    rw [decimal, exponent]

end

section

variable {x : Float} {n : Numeral}

theorem exists_ofFloat? (finite : x.isFinite = true) : ∃ n, ofFloat? x = some n := by
  obtain ⟨negative, m, q, parts⟩ := Binary.exists_parts finite
  rw [ofFloat?, parts]
  cases m <;> exact ⟨_, rfl⟩

-- What is written for a number: its sign, and a decimal that identifies it.
theorem ofFloat?_inv (h : ofFloat? x = some n) : ∃ negative m q d,
    Binary.parts x = .finite negative m q ∧ n = ofDecimal negative d ∧
      (m = 0 ∧ d = ⟨0, 0⟩ ∨ 0 < m ∧ (Decimal.Interval.around m q).Contains d.value) := by
  unfold ofFloat? at h
  split at h
  case h_1 negative q parts =>
    exact ⟨negative, 0, q, _, parts, (Option.some.inj h).symm, .inl ⟨rfl, rfl⟩⟩
  case h_2 negative m q apart parts =>
    have pos : 0 < m := Nat.pos_of_ne_zero fun zero => apart zero
    exact ⟨negative, m, q, _, parts, (Option.some.inj h).symm,
      .inr ⟨pos, Decimal.contains_shortest pos⟩⟩
  case h_3 => cases h

theorem isPlain_of_ofFloat? (h : ofFloat? x = some n) : n.IsPlain := by
  obtain ⟨negative, _, _, d, _, rfl, _⟩ := ofFloat?_inv h
  exact isPlain_ofDecimal negative

theorem nearest?_of_ofFloat? (h : ofFloat? x = some n) : nearest? n = some x := by
  obtain ⟨negative, m, q, d, parts, rfl, identified⟩ := ofFloat?_inv h
  have same : (ofDecimal negative d).decimal.toFloat negative = x := by
    rcases identified with ⟨rfl, rfl⟩ | ⟨pos, mem⟩
    · exact Decimal.toFloat_zero parts rfl
    · rw [← value_decimal_ofDecimal negative] at mem
      exact Decimal.toFloat_of_contains parts pos mem
  rw [nearest?, isNegative_ofDecimal, same, finite?, if_pos (Binary.isFinite_of_parts parts)]

theorem isFinite_of_nearest? (h : nearest? n = some x) : x.isFinite = true := by
  unfold nearest? finite? at h
  split at h
  case isTrue finite => exact Option.some.inj h ▸ finite
  case isFalse       => cases h

end

end Numeral

theorem exists_ofFloat_eq {x : Float} (finite : x.isFinite = true) :
    ∃ n : Numeral, ofFloat x = .number n ∧ n.IsPlain ∧ n.nearest? = some x := by
  obtain ⟨n, written⟩ := Numeral.exists_ofFloat? finite
  exact ⟨n, by rw [ofFloat, written], Numeral.isPlain_of_ofFloat? written,
    Numeral.nearest?_of_ofFloat? written⟩

end MetricCollector.Json
