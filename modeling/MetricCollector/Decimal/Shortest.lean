import MetricCollector.Decimal.Basic

namespace MetricCollector.Decimal

-- The half-open and closed intervals around `m * 2 ^ q`, whose decimals round to it, are measured
-- in quarters of `2 ^ q`: the ends are `low` and `high`, and they belong to it iff `m` is even.
structure Interval where
  low : Nat
  high : Nat
  closed : Bool
  exponent : Int

-- Below a power of two the next number is only half as far away as above it, except where the
-- subnormal numbers begin.
def Interval.around (mantissa : Nat) (exponent : Int) : Interval where
  low      := if mantissa = Binary.normalFrom ∧ Binary.leastExponent < exponent
              then 4 * mantissa - 1 else 4 * mantissa - 2
  high     := 4 * mantissa + 2
  closed   := mantissa % 2 = 0
  exponent := exponent - 2

-- Compares `a * 10 ^ i` with `n * 2 ^ j`.
def compareScaled (a : Nat) (i : Int) (n : Nat) (j : Int) : Ordering :=
  compare (a * tenTo i.toNat * twoTo (-j).toNat) (n * twoTo j.toNat * tenTo (-i).toNat)

-- Whether the decimal `digits * 10 ^ exponent` lies in the interval.
def Interval.holds (r : Interval) (digits : Nat) (exponent : Int) : Bool :=
  let low := compareScaled digits exponent r.low r.exponent
  let high := compareScaled digits exponent r.high r.exponent
  (low = .gt || (r.closed && low = .eq)) && (high = .lt || (r.closed && high = .eq))

-- The `k` with `10 ^ (k - 1) ≤ num / den < 10 ^ k`.
def scale (num den : Nat) : Int :=
  if den ≤ num then width (num / den) else 1 - width ((den - 1) / num)

-- The point of the grid `10 ^ exponent` that identifies `m * 2 ^ q`, if there is one.
def onGrid (tie : Tie) (mantissa : Nat) (q : Int) (exponent : Int) : Option Decimal :=
  let r := Interval.around mantissa q
  let num := mantissa * twoTo q.toNat * tenTo (-exponent).toNat
  let den := twoTo (-q).toNat * tenTo exponent.toNat
  let below := num / den
  match r.holds below exponent, r.holds (below + 1) exponent with
  | true, true   => some ⟨roundQuotient tie num den, exponent⟩
  | true, false  => some ⟨below, exponent⟩
  | false, true  => some ⟨below + 1, exponent⟩
  | false, false => none

-- `m * 2 ^ q` itself, as a decimal.
def exact (mantissa : Nat) (q : Int) : Decimal :=
  ⟨mantissa * twoTo q.toNat * Nat.pow 5 (-q).toNat, min q 0⟩

-- The shortest decimal that identifies `m * 2 ^ q`, for a positive `m`. `tie` chooses between two
-- decimals that are equally near. Coarse grids of decimals are tried before fine ones; on each grid
-- only the two points around the number matter. Seventeen digits are enough for every number.
def shortest (tie : Tie) (mantissa : Nat) (q : Int) : Decimal :=
  let k := scale (mantissa * twoTo q.toNat) (twoTo (-q).toNat)
  let found := (List.range 17).findSome? fun (n : Nat) => onGrid tie mantissa q (k - n - 1)
  let d := found.getD (exact mantissa q)
  normalize d.digits d.exponent

end MetricCollector.Decimal
