import MetricCollector.Decimal.Layout

namespace MetricCollector.Json

-- A number is kept as a decimal, so that nothing is lost before it is known what the number is for:
-- counts have to be written as whole numbers, and all else becomes a binary64 number.
inductive Numeral
  -- Digits alone.
  | whole (negative : Bool) (n : Nat)
  -- With a point in front of the last `places` digits, or with an exponent, which is `scale`.
  | scaled (negative : Bool) (digits places : Nat) (scale : Int)
  deriving DecidableEq, Repr

namespace Numeral

def isNegative : Numeral → Bool
  | whole negative _   => negative
  | scaled negative .. => negative

-- The magnitude.
def decimal : Numeral → Decimal
  | whole _ n                    => ⟨n, 0⟩
  | scaled _ digits places scale => ⟨digits, scale - places⟩

-- What is kept of the magnitude in a word. The digits in front of the point take their place first.
def word : Numeral → Decimal
  | whole _ n                    => Decimal.inWord ⟨n, 0⟩
  | scaled _ digits places scale =>
    let front := Decimal.inWord ⟨digits / tenTo places, 0⟩
    let rest := digits % tenTo places
    Decimal.inWord ⟨front.digits * tenTo places + rest, front.exponent + scale - places⟩

-- A number, unless it lies beyond all of them.
def finite? (x : Float) : Option Float :=
  if x.isFinite then some x else none

-- The nearest binary64 number, unless the number lies beyond all of them.
def nearest? (n : Numeral) : Option Float :=
  finite? (n.decimal.toFloat n.isNegative)

-- The greatest power of ten that is a binary64 number when rounded.
def greatestPower : Nat := 308

-- The binary64 number nearest to a power of ten.
def powerOfTen (n : Nat) : Float :=
  Decimal.toFloat false ⟨1, n⟩

-- `digits * 10 ^ exponent`, where the digits are rounded first and the multiplication or division
-- by the power of ten rounds again. A power that is too small to divide by is divided out in two
-- steps.
def scale? (d : Decimal) : Option Float :=
  let x := Float.ofNat d.digits
  if d.digits = 0 then some 0.0
  else if 0 ≤ d.exponent then
    if d.exponent ≤ greatestPower then finite? (x * powerOfTen d.exponent.toNat) else none
  else
    let places := (-d.exponent).toNat
    if places ≤ greatestPower then some (x / powerOfTen places)
    else if places ≤ 2 * greatestPower then
      some (x / powerOfTen greatestPower / powerOfTen (places - greatestPower))
    else some 0.0

-- Reading works in words of 64 bits: the digits that fit into one are kept, the word is rounded,
-- and the result is scaled by a power of ten, which rounds once more. For up to fifteen digits and
-- small exponents this gives the nearest number, otherwise it can miss it by a little. Nothing is
-- read of a number that lies beyond all of them.
def toFloat? (n : Numeral) : Option Float :=
  (scale? n.word).map fun x => if n.isNegative then -x else x

-- The count that the number stands for. Counts are words of 64 bits.
def toCount? : Numeral → Option Nat
  | whole false n => if n < twoTo 64 then some n else none
  | _             => none

-- Of two equally short and equally near decimals the one with the even last digit is written.
def tie : Tie := .toEven

-- Decimals whose leading digit stands for one of these powers of ten are written positionally.
def isPositional (d : Decimal) : Bool :=
  -5 ≤ d.leadingExponent ∧ d.leadingExponent < 16

-- `± d`, either without an exponent and with at least one digit behind the point, or with one digit
-- in front of the point.
def ofDecimal (negative : Bool) (d : Decimal) : Numeral :=
  if d.digits = 0 ∨ isPositional d then
    if 0 ≤ d.exponent then .scaled negative (d.digits * tenTo (d.exponent.toNat + 1)) 1 0
    else .scaled negative d.digits (-d.exponent).toNat 0
  else .scaled negative d.digits (Decimal.width d.digits - 1) d.leadingExponent

-- The number that identifies `x`, if `x` is finite.
def ofFloat? (x : Float) : Option Numeral :=
  match Binary.parts x with
  | .finite negative 0 _ => some (ofDecimal negative ⟨0, 0⟩)
  | .finite negative m q => some (ofDecimal negative (Decimal.shortest tie m q))
  | _                    => none

-- The digits of `n` with a point in front of the last `places` ones.
def pointed (n places : Nat) : List Char :=
  let ds := Nat.toDigits 10 n
  let padded := Decimal.zeros (places + 1 - ds.length) ++ ds
  if places = 0 then ds
  else padded.take (padded.length - places) ++ '.' :: padded.drop (padded.length - places)

def exponentChars (scale : Int) : List Char :=
  if scale = 0 then []
  else 'e' :: (if scale < 0 then '-' else '+') :: Nat.toDigits 10 scale.natAbs

def magnitude : Numeral → List Char
  | whole _ n                    => Nat.toDigits 10 n
  | scaled _ digits places scale => pointed digits places ++ exponentChars scale

def chars (n : Numeral) : List Char :=
  if n.isNegative then '-' :: n.magnitude else n.magnitude

end Numeral
end MetricCollector.Json
