import MetricCollector.Collection.OrderedMap
import MetricCollector.Json.Numeral

namespace MetricCollector

-- A value is what a text denotes before it is known what the text is about: members of objects keep
-- their order, and one name may stand more than once.
inductive Json
  | null
  | bool (b : Bool)
  | number (n : Json.Numeral)
  -- Escapes in a string can name half of a surrogate pair. Such a string denotes no text.
  | text (s : Option String)
  | array (items : List Json)
  | object (members : List (Option String × Json))
  deriving Inhabited

namespace Json

def ofString (s : String) : Json :=
  .text (some s)

def ofNat (n : Nat) : Json :=
  .number (.whole false n)

-- The number `x`, or null if it is none.
def ofFloat (x : Float) : Json :=
  match Numeral.ofFloat? x with
  | some n => .number n
  | none   => .null

def record (members : List (String × Json)) : Json :=
  .object (members.map fun m => (some m.1, m.2))

def ofMap {κ α : Type} [Ord κ] (name : κ → String) (value : α → Json) (m : OrderedMap κ α) : Json :=
  record (m.entries.map fun e => (name e.1, value e.2))

end Json
end MetricCollector
