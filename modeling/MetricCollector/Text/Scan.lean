import MetricCollector.Decimal.Reader

namespace MetricCollector.Text

-- What stands at the start of a text, and what follows it.
abbrev Scan (α : Type) := List Char → Option (α × List Char)

def expect (c : Char) : Scan Unit
  | []      => none
  | d :: cs => if c = d then some ((), cs) else none

def scanNumber (bound : Nat) : Scan Nat := fun cs =>
  let n := Decimal.digitsValue (cs.takeWhile Char.isDigit)
  if cs.takeWhile Char.isDigit ≠ [] ∧ n < bound then some (n, cs.dropWhile Char.isDigit) else none

end MetricCollector.Text
