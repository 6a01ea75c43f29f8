import MetricCollector.Decimal.Basic

namespace MetricCollector.Decimal

-- The natural that decimal digits denote.
def digitsValue (cs : List Char) : Nat :=
  cs.foldl (fun n c => 10 * n + (c.toNat - '0'.toNat)) 0

-- A sign, if there is one, and what follows it.
def signed : List Char → Bool × List Char
  | '-' :: cs => (true, cs)
  | '+' :: cs => (false, cs)
  | cs        => (false, cs)

-- An exponent behind its mark: an optional sign and at least one digit, up to the end.
def exponent? (cs : List Char) : Option Int :=
  let (negative, digits) := signed cs
  if digits ≠ [] ∧ digits.all Char.isDigit then
    let n := digitsValue digits
    some (if negative then -n else n)
  else none

-- What may follow the digits: nothing, or an exponent.
def scaleOf? : List Char → Option Int
  | []      => some 0
  | c :: cs => if c = 'e' ∨ c = 'E' then exponent? cs else none

-- The decimal of an unsigned number text. A digit is required on one side of the point.
def unsigned? (cs : List Char) : Option Decimal :=
  let whole := cs.takeWhile Char.isDigit
  let (fraction, rest) := match cs.dropWhile Char.isDigit with
    | '.' :: tail => (tail.takeWhile Char.isDigit, tail.dropWhile Char.isDigit)
    | rest        => ([], rest)
  if whole = [] ∧ fraction = [] then none
  else (scaleOf? rest).map fun scale => ⟨digitsValue (whole ++ fraction), scale - fraction.length⟩

-- The words for numbers that no digits denote, in any mixture of cases.
def special? (negative : Bool) (cs : List Char) : Option Float :=
  match String.ofList (cs.map Char.toLower) with
  | "inf" | "infinity" => some (nearestInfinity negative)
  | "nan"              => some (0.0 / 0.0)
  | _                  => none
where
  nearestInfinity (negative : Bool) : Float := Binary.nearest negative (twoTo 1024) 1

-- The binary64 number nearest to the decimal that a text denotes, if it is a number text: an
-- optional sign, digits with an optional point, and an optional exponent, or one of the words for
-- infinity and not-a-number.
def readChars? (cs : List Char) : Option Float :=
  let (negative, rest) := signed cs
  match special? negative rest with
  | some x => some x
  | none   => (unsigned? rest).map (toFloat negative)

-- The number that `text` denotes, if it is a number text.
def read? (text : String) : Option Float :=
  readChars? text.toList

end MetricCollector.Decimal
