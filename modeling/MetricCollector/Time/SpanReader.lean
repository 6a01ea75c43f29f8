import MetricCollector.Decimal.Reader
import MetricCollector.Text.Blank
import MetricCollector.Text.Cut
import MetricCollector.Text.Quoted
import MetricCollector.Time.Span

namespace MetricCollector

-- A text that denotes no span.
structure InvalidSpan where
  text : String
  deriving DecidableEq, Repr

def InvalidSpan.message (e : InvalidSpan) : String :=
  "invalid duration: " ++ Text.quoted e.text

namespace Span

-- A unit of time. Fractions of a coarse unit have to be whole seconds.
structure TimeUnit where
  names  : List String
  nanos  : Nat
  coarse : Bool
  deriving DecidableEq

def secondsUnit (names : List String) (seconds : Nat) (coarse : Bool) : TimeUnit :=
  ⟨names, seconds * nanosPerSecond, coarse⟩

-- A month is 30.44 days and a year 365.25 days.
def timeUnits : List TimeUnit :=
  [⟨["nanos", "nsec", "ns"], 1, false⟩,
   ⟨["usec", "us", "µs"], 1000, false⟩,
   ⟨["millis", "msec", "ms"], 1000000, false⟩,
   secondsUnit ["seconds", "second", "secs", "sec", "s"] 1 false,
   secondsUnit ["minutes", "minute", "min", "mins", "m"] 60 false,
   secondsUnit ["hours", "hour", "hr", "hrs", "h"] 3600 true,
   secondsUnit ["days", "day", "d"] 86400 true,
   secondsUnit ["weeks", "week", "wk", "wks", "w"] 604800 true,
   secondsUnit ["months", "month", "M"] 2630016 true,
   secondsUnit ["years", "year", "yr", "yrs", "y"] 31557600 true]

def TimeUnit.named? (name : String) : Option TimeUnit :=
  timeUnits.find? (name ∈ ·.names)

-- Amounts are read into words of 64 bits; what does not fit is refused.
def word? (n : Nat) : Option Nat :=
  if n < twoTo 64 then some n else none

-- A fraction of an amount: `numerator / denominator`, where the denominator is a power of ten.
structure Fraction where
  numerator   : Nat
  denominator : Nat

-- The subseconds are added in a word of their own.
def addParts (total seconds nanos : Nat) : Option Nat := do
  let _ ← word? (total % nanosPerSecond + nanos)
  let sum := total + seconds * nanosPerSecond + nanos
  if sum < secondsLimit * nanosPerSecond then some sum else none

-- `quantity` units of `size` nanoseconds, added to `total`.
def addAmount (total quantity size : Nat) : Option Nat :=
  if nanosPerSecond ≤ size then
    (word? (quantity * (size / nanosPerSecond))).bind (addParts total · 0)
  else
    (word? (quantity * size)).bind (addParts total 0)

-- A fraction of a unit, which has to be a whole number of nanoseconds or, if the unit is coarse, of
-- seconds. The unit of one nanosecond has no fractions.
def addFraction (total : Nat) (unit : TimeUnit) (fraction : Fraction) : Option Nat := do
  let step := if unit.coarse then nanosPerSecond else 1
  if unit.nanos = 1 then none
  let product ← word? (fraction.numerator * (unit.nanos / step))
  if product % fraction.denominator = 0 then
    addAmount total (product / fraction.denominator) step
  else none

-- Where the reader of amounts stands. `total` is the sum of the amounts that are complete.
inductive Reading
  -- Between two amounts, where `some` amount has to come if there was none.
  | between (total : Nat) (some : Bool)
  | whole (total n : Nat)
  | fraction (total n : Nat) (fraction : Fraction)
  | unit (total n : Nat) (fraction : Option Fraction) (letters : List Char)

-- The characters that units are spelled with.
def isUnitLetter (c : Char) : Bool :=
  c.isAlpha || c = 'µ'

def digitValue (c : Char) : Nat :=
  c.toNat - '0'.toNat

-- Adds the amount of a unit whose letters are complete, last letter first.
def complete (total n : Nat) (fraction : Option Fraction) (letters : List Char) : Option Nat := do
  let unit ← TimeUnit.named? (String.ofList letters.reverse)
  let total ← addAmount total n unit.nanos
  match fraction with
  | none          => some total
  | some fraction => addFraction total unit fraction

def Reading.step : Reading → Char → Option Reading
  | .between total any, c =>
    if c.isDigit then some (.whole total (digitValue c))
    else if Text.isBlank c then some (.between total any)
    else none
  | .whole total n, c =>
    if c.isDigit then (word? (10 * n + digitValue c)).map (.whole total)
    else if Text.isBlank c then some (.whole total n)
    else if isUnitLetter c then some (.unit total n none [c])
    else if c = '.' then some (.fraction total n ⟨0, 1⟩)
    else none
  | .fraction total n f, c =>
    if c.isDigit then do
      let numerator ← word? (10 * f.numerator + digitValue c)
      let denominator ← word? (10 * f.denominator)
      some (.fraction total n ⟨numerator, denominator⟩)
    else if Text.isBlank c then some (.fraction total n f)
    else if isUnitLetter c ∧ f.denominator ≠ 1 then some (.unit total n (some f) [c])
    else none
  | .unit total n f letters, c =>
    if c.isDigit then (complete total n f letters).map (.whole · (digitValue c))
    else if Text.isBlank c then (complete total n f letters).map (.between · true)
    else if isUnitLetter c then some (.unit total n f (c :: letters))
    else none

def Reading.finish : Reading → Option Span
  | .between total any      => if any then some ⟨total⟩ else none
  | .unit total n f letters => (complete total n f letters).map (⟨·⟩)
  | _                       => none

-- The sum of the amounts of a text, of which there has to be one.
def amounts? (cs : List Char) : Option Span :=
  (cs.foldlM Reading.step (.between 0 false)).bind Reading.finish

-- What stands between `PT` and `S`.
def betweenMarks? (cs : List Char) : Option (List Char) :=
  (Text.after? ['P', 'T'] cs).bind (Text.before? 'S')

-- The span of a text without blanks around it.
def readTrimmed? (cs : List Char) : Option Span :=
  match cs with
  | [] | '-' :: _ => none
  | _ =>
    match betweenMarks? cs with
    | some seconds => (Decimal.readChars? seconds).bind ofSeconds?
    | none =>
      let cs := (Text.after? ['+'] cs).getD cs
      if cs = ['0'] then some zero else amounts? cs

-- A span is written as seconds between `PT` and `S`, or as a sum of amounts with units such as
-- `1m 30s`. The first notation goes through a binary64 number, the second is exact.
def read (text : String) : Except InvalidSpan Span :=
  match readTrimmed? (Text.trimChars text.toList) with
  | some span => .ok span
  | none      => .error ⟨text⟩

end Span
end MetricCollector
