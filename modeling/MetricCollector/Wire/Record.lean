import MetricCollector.Decimal.Reader
import MetricCollector.Metric.Basic
import MetricCollector.Text.Blank
import MetricCollector.Text.Cut

namespace MetricCollector

-- Why a line is not a record.
inductive RecordError
  | unknownKind (e : UnknownKind)
  | missingValue (line : String)
  | invalidValue (text : String)
  | invalidSampleRate (text : String)
  | malformed (line : String)
  deriving DecidableEq, Repr

def RecordError.message : RecordError → String
  | unknownKind e          => e.message
  | missingValue line      => "missing value in " ++ Text.quoted line
  | invalidValue text      => "invalid value " ++ Text.quoted text
  | invalidSampleRate text => "invalid sample rate " ++ Text.quoted text
  | malformed line         => "malformed record " ++ Text.quoted line

namespace Record

open Text (cutAt? trimChars)

-- A name behind the namespace, if there is one.
def qualified (scope : Option String) (name : String) : String :=
  match scope with
  | none       => name
  | some scope => if scope = "" then name else scope ++ "." ++ name

-- The kind that a component names.
def kind (component : List Char) : Except RecordError Kind :=
  let tag := String.ofList component
  match Kind.ofTag? tag with
  | some kind => .ok kind
  | none      => .error (.unknownKind ⟨tag⟩)

-- The value of a record has to be finite.
def value (component : List Char) : Except RecordError Float :=
  match Decimal.readChars? component with
  | some x => if x.isFinite then .ok x else .error (.invalidValue (String.ofList component))
  | none   => .error (.invalidValue (String.ofList component))

def sampleRate (component : List Char) : Except RecordError Float :=
  match Decimal.readChars? component with
  | some x =>
    if Metric.isSampleRate x then .ok x else .error (.invalidSampleRate (String.ofList component))
  | none   => .error (.invalidSampleRate (String.ofList component))

-- Tags are separated by commas. Blanks around a tag do not belong to it, and blank tags do not
-- count.
def tags (component : List Char) : TagSet :=
  .ofList (((component.splitOn ',').map trimChars).filter (· ≠ []) |>.map String.ofList)

-- What a component behind the kind adds to a metric.
def addComponent (m : Metric) : List Char → Except RecordError Metric
  | '@' :: rate => do return { m with sampleRate := ← sampleRate rate }
  | '#' :: list => .ok { m with tags := tags list }
  | _           => .ok m

-- The metric of a line `name:value|kind`, followed by any number of components of which `@rate` and
-- `#tag,tag` have a meaning, with its name put behind `scope`. Of two components with the same
-- meaning the later one counts.
def parse (scope : Option String) (line : String) : Except RecordError Metric := do
  match line.toList.splitOn '|' with
  | [] => throw (.malformed line)
  | head :: components =>
    let some (name, text) := cutAt? ':' head | throw (.malformed line)
    if name = [] then throw (.malformed line)
    if text = [] then throw (.missingValue line)
    let tag :: others := components | throw (.malformed line)
    let kind ← kind tag
    let value ← value text
    let metric : Metric := { name := qualified scope (String.ofList name), kind, value }
    others.foldlM addComponent metric

end Record
end MetricCollector
