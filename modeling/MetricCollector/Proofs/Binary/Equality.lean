import MetricCollector.Proofs.Binary.Extremes
import MetricCollector.Proofs.Binary.Value

namespace MetricCollector

namespace Binary

variable {x y : Float}

theorem value_eq_iff (hx : x.isFinite = true) (hy : y.isFinite = true) :
    value x = value y ↔ place x = place y := by
  refine ⟨fun same => ?_, value_eq_of_place_eq hx hy⟩
  rcases lt_trichotomy (place x) (place y) with less | equal | greater
  · exact absurd same (value_lt_of_place_lt hx hy less).ne
  · exact equal
  · exact absurd same (value_lt_of_place_lt hy hx greater).ne'

theorem beq_iff_value_eq (hx : x.isFinite = true) (hy : y.isFinite = true) :
    (x == y) = true ↔ value x = value y := by
  rw [value_eq_iff hx hy, beq_iff (isNaN_eq_false hx) (isNaN_eq_false hy)]

-- The two numbers that are equal without being the same.
def AreBothZeros (x y : Float) : Prop :=
  x = 0.0 ∧ y = -0.0 ∨ x = -0.0 ∧ y = 0.0

theorem zero_ne_neg_zero : (0.0 : Float) ≠ -0.0 := by decide +kernel

theorem eq_zero_of_place_eq_zero (h : place x = 0) : x = 0.0 ∨ x = -0.0 := by
  have bound : x.toBits.toNat < 2 ^ 64 := x.toBits.toNat_lt
  have bits : x.toBits.toNat = 0 ∨ x.toBits.toNat = 2 ^ 63 := by
    simp only [place, signedBits] at h
    split at h <;> omega
  refine bits.imp (fun zero => ?_) fun zero => ?_
  · exact eq_of_toBits (UInt64.toNat_inj.mp (zero.trans (by decide +kernel)))
  · exact eq_of_toBits (UInt64.toNat_inj.mp (zero.trans (by decide +kernel)))

theorem eq_or_areBothZeros (same : place x = place y) : x = y ∨ AreBothZeros x y := by
  by_cases zero : place x = 0
  case neg => exact .inl (eq_of_place_eq zero same)
  case pos =>
    rcases eq_zero_of_place_eq_zero zero with rfl | rfl <;>
      rcases eq_zero_of_place_eq_zero (same ▸ zero) with rfl | rfl
    · exact .inl rfl
    · exact .inr (.inl ⟨rfl, rfl⟩)
    · exact .inr (.inr ⟨rfl, rfl⟩)
    · exact .inl rfl

theorem eq_iff_place_eq : x = y ↔ place x = place y ∧ ¬AreBothZeros x y := by
  constructor
  case mp =>
    rintro rfl
    refine ⟨rfl, fun both => ?_⟩
    rcases both with ⟨positive, negative⟩ | ⟨negative, positive⟩ <;>
      exact zero_ne_neg_zero (positive.symm.trans negative)
  case mpr =>
    rintro ⟨same, apart⟩
    exact (eq_or_areBothZeros same).resolve_right apart

section

variable {s : Finset Float} (finite : ∀ x ∈ s, x.isFinite = true)

theorem AreBothZeros.mem (h : AreBothZeros x y) (hx : x ∈ s) (hy : y ∈ s) :
    0.0 ∈ s ∧ -0.0 ∈ s := by
  rcases h with ⟨rfl, rfl⟩ | ⟨rfl, rfl⟩
  · exact ⟨hx, hy⟩
  · exact ⟨hy, hx⟩

include finite

-- As long as not both zeros are among some numbers, these have as many values.
theorem card_image_value (zeros : ¬(0.0 ∈ s ∧ -0.0 ∈ s)) : (s.image value).card = s.card := by
  refine Finset.card_image_of_injOn fun x hx y hy same => ?_
  have place := (value_eq_iff (finite x hx) (finite y hy)).mp same
  exact (eq_or_areBothZeros place).resolve_right fun both => zeros (both.mem hx hy)

-- Otherwise one of the zeros can be left out without losing a value.
theorem card_image_value_add_one (positive : 0.0 ∈ s) (negative : -0.0 ∈ s) :
    (s.image value).card + 1 = s.card := by
  have equal : value (-0.0) = value 0.0 := by decide +kernel
  have rest : (s.erase (-0.0)).image value = s.image value := by
    rw [← Finset.insert_erase negative, Finset.image_insert, equal, Finset.erase_insert_eq_erase,
      Finset.erase_idem, Finset.insert_eq_of_mem]
    exact Finset.mem_image_of_mem _ (Finset.mem_erase.mpr ⟨zero_ne_neg_zero, positive⟩)
  have fewer := card_image_value (s := s.erase (-0.0))
    (fun x mem => finite x (Finset.mem_of_mem_erase mem))
    (fun both => Finset.notMem_erase _ _ both.2)
  rw [← rest, fewer, Finset.card_erase_add_one negative]

end
end Binary

open Binary

-- How many different numbers there are among some. Both zeros are the same number.
def distinct (xs : List Float) : Nat :=
  (xs.map value).toFinset.card

theorem card_toFinset {xs : List Float} (finite : AllFinite xs) :
    (¬(0.0 ∈ xs ∧ -0.0 ∈ xs) → xs.toFinset.card = distinct xs) ∧
    (0.0 ∈ xs → -0.0 ∈ xs → xs.toFinset.card = distinct xs + 1) := by
  have values : (xs.map value).toFinset = xs.toFinset.image value := by
    ext v
    simp
  have finite : ∀ x ∈ xs.toFinset, x.isFinite = true :=
    fun x mem => finite x (List.mem_toFinset.mp mem)
  simp only [distinct, values, ← List.mem_toFinset (l := xs)]
  exact ⟨fun zeros => (card_image_value finite zeros).symm,
    fun positive negative => (card_image_value_add_one finite positive negative).symm⟩

end MetricCollector
