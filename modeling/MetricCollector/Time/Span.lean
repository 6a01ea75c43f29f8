import MetricCollector.Decimal.Plain

namespace MetricCollector

-- A whole number of nanoseconds.
structure Span where
  nanoseconds : Nat
  deriving DecidableEq, Ord, Repr

namespace Span

def nanosPerSecond : Nat := 1000000000

instance : LE Span := ⟨fun a b => a.nanoseconds ≤ b.nanoseconds⟩

instance : LT Span := ⟨fun a b => a.nanoseconds < b.nanoseconds⟩

instance (a b : Span) : Decidable (a ≤ b) :=
  inferInstanceAs (Decidable (a.nanoseconds ≤ b.nanoseconds))

instance (a b : Span) : Decidable (a < b) :=
  inferInstanceAs (Decidable (a.nanoseconds < b.nanoseconds))

def zero : Span := ⟨0⟩

def ofSeconds (n : Nat) : Span := ⟨n * nanosPerSecond⟩

def nanosPerMillisecond : Nat := 1000000

def ofMilliseconds (n : Nat) : Span := ⟨n * nanosPerMillisecond⟩

def isZero (s : Span) : Bool :=
  s.nanoseconds = 0

-- The whole seconds.
def seconds (s : Span) : Nat :=
  s.nanoseconds / nanosPerSecond

-- The nanoseconds beyond the whole seconds.
def subsecond (s : Span) : Nat :=
  s.nanoseconds % nanosPerSecond

-- Spans are kept to this many whole seconds.
def secondsLimit : Nat := twoTo 64

-- The span in seconds. The two parts are rounded before they are added.
def toSeconds (s : Span) : Float :=
  Float.ofNat s.seconds + Float.ofNat s.subsecond / 1000000000.0

-- A decimal fraction of up to `places` digits, without the zeros at its end.
def fractionChars (places : Nat) (fraction : Nat) : List Char :=
  let ds := Nat.toDigits 10 fraction
  let padded := List.replicate (places - ds.length) '0' ++ ds
  match (padded.reverse.dropWhile (· = '0')).reverse with
  | []     => []
  | digits => '.' :: digits

-- `n` nanoseconds in a unit of `10 ^ places` nanoseconds.
def inUnit (n places : Nat) (unit : String) : String :=
  let size := tenTo places
  let fraction := if places = 0 then [] else fractionChars places (n % size)
  String.ofList (Nat.toDigits 10 (n / size) ++ fraction) ++ unit

-- The span in the largest of four units whose whole part is not zero.
def text (s : Span) : String :=
  let n := s.nanoseconds
  if nanosPerSecond ≤ n then inUnit n 9 "s"
  else if 1000000 ≤ n then inUnit n 6 "ms"
  else if 1000 ≤ n then inUnit n 3 "µs"
  else inUnit n 0 "ns"

def secondsText (s : Span) : String :=
  "PT" ++ plainText s.toSeconds ++ "S"

-- The span nearest to a number of seconds, halves to the even nanosecond.
def ofSeconds? (x : Float) : Option Span :=
  match Binary.parts x with
  | .finite negative m q =>
    if negative ∧ m ≠ 0 then none
    else
      let n := roundQuotient .toEven (m * nanosPerSecond * twoTo q.toNat) (twoTo (-q).toNat)
      if n < secondsLimit * nanosPerSecond then some ⟨n⟩ else none
  | _ => none

end Span
end MetricCollector
