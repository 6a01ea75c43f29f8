import MetricCollector.Decimal.Shortest

namespace MetricCollector.Decimal

def zeros (n : Nat) : List Char :=
  List.replicate n '0'

-- `d` without an exponent, and without a point if it is whole.
def positional (d : Decimal) : List Char :=
  let ds := Nat.toDigits 10 d.digits
  let places := (-d.exponent).toNat
  if 0 ≤ d.exponent then ds ++ zeros d.exponent.toNat
  else if places < ds.length then
    ds.take (ds.length - places) ++ '.' :: ds.drop (ds.length - places)
  else '0' :: '.' :: (zeros (places - ds.length) ++ ds)

-- The power of ten of the leading digit.
def leadingExponent (d : Decimal) : Int :=
  width d.digits + d.exponent - 1

end MetricCollector.Decimal
