import MetricCollector.Binary.Nearest

namespace MetricCollector

-- `digits * 10 ^ exponent`, which is what a number text denotes before it is rounded.
structure Decimal where
  digits : Nat
  exponent : Int
  deriving DecidableEq, Repr

namespace Decimal

-- How many decimal digits a natural has; zero has none.
def width (n : Nat) : Nat :=
  if n = 0 then 0 else width (n / 10) + 1
termination_by n
decreasing_by omega

-- Moves trailing zeros from the digits into the exponent. Zero has exponent zero.
def normalize (digits : Nat) (exponent : Int) : Decimal :=
  if digits = 0 then ⟨0, 0⟩
  else if digits % 10 = 0 then normalize (digits / 10) (exponent + 1)
  else ⟨digits, exponent⟩
termination_by digits
decreasing_by omega

-- Digits that do not fit into a word of 64 bits are dropped from the end.
def dropToWord (digits : Nat) (exponent : Int) : Decimal :=
  if digits < twoTo 64 then ⟨digits, exponent⟩ else dropToWord (digits / 10) (exponent + 1)
termination_by digits
decreasing_by
  have := twoTo_pos 64
  omega

def inWord (d : Decimal) : Decimal :=
  dropToWord d.digits d.exponent

-- From this power of ten on, a decimal is beyond every finite number.
def beyondLargest : Int := 310

-- Up to this power of ten, a decimal rounds to zero.
def belowLeast : Int := -325

-- The binary64 number nearest to `± d`. A decimal far outside the range is settled by its size
-- alone, so that no huge power of ten is ever computed.
def toFloat (negative : Bool) (d : Decimal) : Float :=
  let size := width d.digits + d.exponent
  if d.digits = 0 ∨ size ≤ belowLeast then Binary.nearest negative 0 1
  else if beyondLargest < size then Binary.nearest negative (twoTo 1024) 1
  else Binary.nearest negative (d.digits * tenTo d.exponent.toNat) (tenTo (-d.exponent).toNat)

end Decimal
end MetricCollector
