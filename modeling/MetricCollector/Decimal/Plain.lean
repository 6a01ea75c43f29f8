import MetricCollector.Decimal.Layout

namespace MetricCollector

-- Of two equally short and equally near decimals the larger one is written.
def plainTie : Tie := .awayFromZero

def signChars (negative : Bool) : List Char :=
  if negative then ['-'] else []

-- The characters of `x` as plain text. A zero keeps its sign.
def plainChars (x : Float) : List Char :=
  match Binary.parts x with
  | .nan                => ['N', 'a', 'N']
  | .infinite negative  => signChars negative ++ ['i', 'n', 'f']
  | .finite negative 0 _ => signChars negative ++ ['0']
  | .finite negative m q => signChars negative ++ (Decimal.shortest plainTie m q).positional

-- Numbers are written with the fewest digits that identify them, never with an exponent, and
-- without a point if they are whole.
def plainText (x : Float) : String :=
  String.ofList (plainChars x)

-- A count as plain text.
def countText (n : Nat) : String :=
  String.ofList (Nat.toDigits 10 n)

end MetricCollector
