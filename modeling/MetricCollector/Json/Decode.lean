import MetricCollector.Json.Reader
import MetricCollector.Time.SpanReader

namespace MetricCollector.Json

-- Why a text does not describe what it should.
inductive Unreadable
  -- It is no JSON, or JSON of another shape.
  | shape
  -- It holds a text that should denote a span of time and does not.
  | span (e : InvalidSpan)
  deriving DecidableEq, Repr

abbrev Decoder (α : Type) := Json → Except Unreadable α

-- How numbers are turned into binary64 numbers. Those beyond all of them cannot be.
abbrev Rounding := Numeral → Option Float

def require {α : Type} : Option α → Except Unreadable α
  | some a => .ok a
  | none   => .error .shape

def toBool : Decoder Bool
  | .bool b => .ok b
  | _       => .error .shape

def toText : Decoder String
  | .text s => require s
  | _       => .error .shape

def toFloat (round : Rounding) : Decoder Float
  | .number n => require (round n)
  | _         => .error .shape

def toCount : Decoder Nat
  | .number n => require n.toCount?
  | _         => .error .shape

def toParsed {α : Type} (parse? : String → Option α) : Decoder α :=
  fun j => do require (parse? (← toText j))

def toSpan : Decoder Span :=
  fun j => do (Span.read (← toText j)).mapError .span

-- Null, or a value.
def toOption {α : Type} (value : Decoder α) : Decoder (Option α)
  | .null => .ok none
  | j     => some <$> value j

def toList {α : Type} (item : Decoder α) : Decoder (List α)
  | .array items => items.mapM item
  | _            => .error .shape

-- A name, or an object with null under the name.
def toNamed {α : Type} (named? : String → Option α) : Decoder α
  | .object [(name, .null)] => do require (named? (← require name))
  | j                       => toParsed named? j

-- A field of a record that is read into `σ`.
structure Field (σ : Type) where
  name : String
  put  : σ → Decoder σ

def field {σ α : Type} (name : String) (value : Decoder α) (store : σ → α → σ) : Field σ where
  name := name
  put  := fun s j => store s <$> value j

-- A record while its members are read, and the names of the fields that were given.
structure Progress (σ : Type) where
  record : σ
  given  : List String

-- A member may not repeat a field. Members that are no field are passed over.
def Progress.member {σ : Type} (fields : List (Field σ)) (p : Progress σ)
    (member : Option String × Json) : Except Unreadable (Progress σ) := do
  let name ← require member.1
  match fields.find? (·.name = name) with
  | none   => return p
  | some f =>
    if name ∈ p.given then throw .shape
    return { record := ← f.put p.record member.2, given := name :: p.given }

-- Fields in their order, of which the last ones may be left out.
def putInOrder {σ : Type} : List (Field σ) → σ → List Json → Except Unreadable σ
  | _,       s, []      => .ok s
  | [],      _, _ :: _  => .error .shape
  | f :: fs, s, j :: js => do putInOrder fs (← f.put s j) js

-- The record that starts as `start` and has the fields of a value put into it. Records are objects
-- whose members may stand in any order, or arrays of the fields in their order.
def toRecord {σ : Type} (fields : List (Field σ)) (start : σ) : Decoder σ
  | .object members =>
    Progress.record <$> members.foldlM (Progress.member fields) { record := start, given := [] }
  | .array items    => putInOrder fields start items
  | _               => .error .shape

-- Whether every part of a value can be decoded into something: numbers are within range, strings
-- denote texts, and no more than `depth` arrays and objects are nested.
def isSound (round : Rounding) : Nat → Json → Bool
  | _,         .number n       => (round n).isSome
  | _,         .text s         => s.isSome
  | 0,         .array _        => false
  | depth + 1, .array items    => items.all (isSound round depth)
  | 0,         .object _       => false
  | depth + 1, .object members => members.all fun m => m.1.isSome && isSound round depth m.2
  | _,         _               => true

-- What a text describes. Faults count in the order of the text, and that the text breaks off counts
-- as its last one.
def decodeText {α : Type} (decode : Decoder α) (text : String) : Except Unreadable α := do
  let document := Document.read text
  let a ← decode (← require document.root)
  if document.complete then return a else throw .shape

end MetricCollector.Json
