import MetricCollector.Binary.Parts
import MetricCollector.Rounding

namespace MetricCollector.Binary

-- The greatest `t` with `2 ^ t ≤ num / den`, for positive `num` and `den`.
def binade (num den : Nat) : Int :=
  let guess : Int := num.log2 - den.log2
  if den * twoTo guess.toNat ≤ num * twoTo (-guess).toNat then guess else guess - 1

-- The exponent of the numbers around `num / den`.
def exponentFor (num den : Nat) : Int :=
  max (binade num den - 52) leastExponent

-- The bits of infinity, which are also the least that no finite number has.
def infinityBits : Nat := (twoTo 11 - 1) * normalFrom

-- The bits of the number nearest to `num / den`, for a positive `den`. A mantissa that rounds up to
-- the next power of two carries into the exponent, since the bits of neighbours are consecutive.
def nearestBits (num den : Nat) : Nat :=
  if num = 0 then 0
  else
    let q := exponentFor num den
    let mantissa := roundQuotient .toEven (num * twoTo (-q).toNat) (den * twoTo q.toNat)
    min ((q - leastExponent).toNat * normalFrom + mantissa) infinityBits

-- A positive ratio is rounded once: its binade fixes the exponent, and the mantissa is the quotient
-- rounded to nearest with ties to even. Beyond the largest number stands infinity.
def nearest (negative : Bool) (num den : Nat) : Float :=
  let sign := if negative then twoTo 63 else 0
  Float.ofBits (UInt64.ofNat (sign + nearestBits num den))

end MetricCollector.Binary
