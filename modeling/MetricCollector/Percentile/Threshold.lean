import MetricCollector.Decimal.Plain
import MetricCollector.Decimal.Reader
import MetricCollector.Text.Blank

namespace MetricCollector

-- Whether a number can be a threshold: finite, not zero, and at most 100 in magnitude.
def isThreshold (x : Float) : Bool :=
  x.isFinite && x != 0.0 && (-100.0 ≤ x && x ≤ 100.0)

-- A percentage of the samples of a timer. A positive one counts from the lowest sample and a
-- negative one from the highest.
structure Threshold where
  value : Float
  valid : isThreshold value = true

-- A number, or a text, that is no threshold.
structure InvalidThreshold where
  text : String
  deriving DecidableEq, Repr

def InvalidThreshold.message (e : InvalidThreshold) : String :=
  "invalid percentile threshold: " ++ e.text

namespace Threshold

instance : BEq Threshold := ⟨fun s t => s.value == t.value⟩

-- The 90th percentile.
def ninety : Threshold where
  value := 90.0
  valid := by decide +kernel

instance : Inhabited Threshold := ⟨ninety⟩

def ofFloat (x : Float) : Except InvalidThreshold Threshold :=
  if h : isThreshold x = true then .ok ⟨x, h⟩ else .error ⟨plainText x⟩

-- The threshold that a text denotes. Blanks around the number do not matter.
def read (text : String) : Except InvalidThreshold Threshold :=
  match Decimal.read? (Text.trim text) with
  | some x => ofFloat x
  | none   => .error ⟨text⟩

def isBottom (t : Threshold) : Bool :=
  t.value < 0.0

-- The digits of the magnitude, with an underscore for the point.
def magnitudeLabel (t : Threshold) : List Char :=
  (plainChars t.value.abs).map fun c => if c = '.' then '_' else c

def label (t : Threshold) : String :=
  (if t.isBottom then "bottom_" else "") ++ String.ofList t.magnitudeLabel

-- How many units of the rank computation make one percent.
def unitsPerPercent : Nat := 1000000

-- A non-negative number rounded to the nearest natural, halves upwards.
def roundHalfUp (x : Float) : Nat :=
  match Binary.parts x with
  | .finite _ m q => roundQuotient .awayFromZero (m * twoTo q.toNat) (twoTo (-q).toNat)
  | _             => 0

-- The magnitude in millionths of a percent. In this unit thresholds of up to six places are whole,
-- so that the rank of such a threshold is not disturbed by the error of its binary form.
def units (t : Threshold) : Nat :=
  roundHalfUp (t.value.abs * 1000000.0)

-- How many of `n` samples the threshold selects, at least one and at most all of them.
def rank (t : Threshold) (n : Nat) : Nat :=
  let whole := 100 * unitsPerPercent
  max 1 (min n ((t.units * n + whole - 1) / whole))

end Threshold
end MetricCollector
