import MetricCollector.Power

namespace MetricCollector.Binary

-- A number as its bits describe it. `finite negative m q` stands for `± m * 2 ^ q`.
inductive Parts
  | nan
  | infinite (negative : Bool)
  | finite (negative : Bool) (mantissa : Nat) (exponent : Int)
  deriving DecidableEq, Repr

-- The least exponent, that of the subnormal numbers.
def leastExponent : Int := -1074

-- The first mantissa of a normal number.
def normalFrom : Nat := twoTo 52

-- The parts of `x`. A zero keeps its sign and has mantissa zero.
def parts (x : Float) : Parts :=
  let bits := x.toBits.toNat
  let negative := decide (twoTo 63 ≤ bits)
  let biased := bits / normalFrom % twoTo 11
  let fraction := bits % normalFrom
  if biased = twoTo 11 - 1 then
    if fraction = 0 then .infinite negative else .nan
  else if biased = 0 then .finite negative fraction leastExponent
  else .finite negative (normalFrom + fraction) (leastExponent + (biased - 1 : Nat))

-- The bits below the sign, which grow with the magnitude.
def magnitudeBits (x : Float) : Nat :=
  x.toBits.toNat % twoTo 63

-- A key that ranks all numbers, by value and, between the two zeros, by sign.
def rankKey (x : Float) : Int :=
  if twoTo 63 ≤ x.toBits.toNat then -(magnitudeBits x : Int) - 1 else magnitudeBits x

-- The total order of `rankKey`.
def rankedLe (x y : Float) : Bool :=
  decide (rankKey x ≤ rankKey y)

theorem rankedLe_total (x y : Float) : (rankedLe x y || rankedLe y x) = true := by
  simp only [rankedLe, Bool.or_eq_true, decide_eq_true_eq]
  omega

theorem rankedLe_trans (x y z : Float) (h₁ : rankedLe x y = true) (h₂ : rankedLe y z = true) :
    rankedLe x z = true := by
  simp only [rankedLe, decide_eq_true_eq] at *
  omega

end MetricCollector.Binary
