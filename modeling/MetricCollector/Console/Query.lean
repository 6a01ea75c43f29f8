import MetricCollector.Text.Cut
import MetricCollector.Text.Hexadecimal
import MetricCollector.Text.Utf8

namespace MetricCollector.Query

def decodeBytes : List Char → List UInt8
  | '%' :: a :: b :: cs =>
    if Text.isHexDigit a ∧ Text.isHexDigit b then
      (Text.hexNumber [a, b]).toUInt8 :: decodeBytes cs
    else '%'.toUInt8 :: decodeBytes (a :: b :: cs)
  | '+' :: cs => ' '.toUInt8 :: decodeBytes cs
  | c :: cs   => (String.singleton c).toUTF8.toList ++ decodeBytes cs
  | []        => []

-- The text that a part of a query stands for.
def decode (cs : List Char) : String :=
  Text.Utf8.decodeLossy (decodeBytes cs)

-- A parameter. Without an equals sign it has an empty value.
def parameter (cs : List Char) : String × String :=
  match Text.cutAt? '=' cs with
  | some (name, value) => (decode name, decode value)
  | none               => (decode cs, "")

-- The parameters of a query, in order.
def parameters (query : List Char) : List (String × String) :=
  ((query.splitOn '&').filter (· ≠ [])).map parameter

end MetricCollector.Query
