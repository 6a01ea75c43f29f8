import MetricCollector.Decimal.Reader
import MetricCollector.Json.Basic
import MetricCollector.Text.Hexadecimal

namespace MetricCollector.Json

-- A value at the start of a text. Reading never fails: what is read of a text that breaks off is
-- the part of the value in front of the break. A configuration is checked member by member, and the
-- first fault in the order of the text is the one to report, so that the part in front of a break
-- matters.
inductive Reading (α : Type)
  -- The value ends, and `rest` follows it.
  | whole (value : α) (rest : List Char)
  -- The text breaks off. `part` is what there is of the value.
  | torn (part : Option α)

-- Only these blanks may stand between the tokens.
def isSpace (c : Char) : Bool :=
  c = ' ' || c = '\n' || c = '\r' || c = '\t'

def skip (cs : List Char) : List Char :=
  cs.dropWhile isSpace

-- What a string consists of: characters, and 16-bit units named by escapes.
inductive Piece
  | char (c : Char)
  | unit (n : Nat)
  deriving DecidableEq, Repr

-- The character that a letter behind a backslash stands for.
def escapedBy? : Char → Option Char
  | '"'  => some '"'
  | '\\' => some '\\'
  | '/'  => some '/'
  | 'b'  => some '\x08'
  | 'f'  => some '\x0c'
  | 'n'  => some '\n'
  | 'r'  => some '\r'
  | 't'  => some '\t'
  | _    => none

-- The unit that four hexadecimal digits name.
def unit? (a b c d : Char) : Option Nat :=
  if [a, b, c, d].all Text.isHexDigit then some (Text.hexNumber [a, b, c, d]) else none

-- The pieces of a string up to its closing quote, and what follows the quote.
def pieces? : List Char → Option (List Piece × List Char)
  | []         => none
  | '"' :: cs  => some ([], cs)
  | '\\' :: 'u' :: a :: b :: c :: d :: cs => do
    let n ← unit? a b c d
    let (ps, rest) ← pieces? cs
    some (.unit n :: ps, rest)
  | '\\' :: c :: cs => do
    let c ← escapedBy? c
    let (ps, rest) ← pieces? cs
    some (.char c :: ps, rest)
  | c :: cs =>
    if c.toNat < 0x20 then none
    else (pieces? cs).map fun (ps, rest) => (.char c :: ps, rest)

def isHighHalf (n : Nat) : Bool :=
  0xD800 ≤ n && n ≤ 0xDBFF

def isLowHalf (n : Nat) : Bool :=
  0xDC00 ≤ n && n ≤ 0xDFFF

-- The character that the two halves of a pair stand for.
def paired (high low : Nat) : Char :=
  Char.ofNat (0x10000 + (high - 0xD800) * 0x400 + (low - 0xDC00))

-- The characters that pieces denote, unless half of a pair stands alone.
def denoted? : List Piece → Option (List Char)
  | []            => some []
  | .char c :: ps => (denoted? ps).map (c :: ·)
  | .unit m :: .unit n :: ps =>
    if isHighHalf m ∧ isLowHalf n then (denoted? ps).map (paired m n :: ·)
    else if isHighHalf m ∨ isLowHalf m then none
    else (denoted? (.unit n :: ps)).map (Char.ofNat m :: ·)
  | .unit m :: ps =>
    if isHighHalf m ∨ isLowHalf m then none else (denoted? ps).map (Char.ofNat m :: ·)

def string? (cs : List Char) : Option (Option String × List Char) :=
  (pieces? cs).map fun (ps, rest) => ((denoted? ps).map String.ofList, rest)

-- At least one digit, and what follows the digits.
def digits? (cs : List Char) : Option (List Char × List Char) :=
  match cs.takeWhile Char.isDigit with
  | [] => none
  | ds => some (ds, cs.dropWhile Char.isDigit)

-- The digits before the point. They do not start with a zero, except for zero itself.
def wholeDigits? (cs : List Char) : Option (List Char × List Char) := do
  let (ds, rest) ← digits? cs
  if ds.head? = some '0' ∧ ds ≠ ['0'] then none else some (ds, rest)

-- A fraction behind the digits, if there is one.
def fraction? : List Char → Option (List Char × List Char)
  | '.' :: cs => digits? cs
  | cs        => some ([], cs)

-- An exponent behind the digits, if there is one.
def exponent? : List Char → Option (Option Int × List Char)
  | [] => some (none, [])
  | c :: cs =>
    if c = 'e' ∨ c = 'E' then do
      let (negative, cs) := Decimal.signed cs
      let (ds, rest) ← digits? cs
      let n : Int := Decimal.digitsValue ds
      some (some (if negative then -n else n), rest)
    else some (none, c :: cs)

-- A number without its sign.
def magnitude? (negative : Bool) (cs : List Char) : Option (Numeral × List Char) := do
  let (ds, rest) ← wholeDigits? cs
  let (fs, rest) ← fraction? rest
  let (scale, rest) ← exponent? rest
  match fs, scale with
  | [], none => some (.whole negative (Decimal.digitsValue ds), rest)
  | _,  _    =>
    some (.scaled negative (Decimal.digitsValue (ds ++ fs)) fs.length (scale.getD 0), rest)

def number? : List Char → Option (Numeral × List Char)
  | '-' :: cs => magnitude? true cs
  | cs        => magnitude? false cs

-- What the words for constants stand for, and what follows them.
def constant? : List Char → Option (Json × List Char)
  | 'n' :: 'u' :: 'l' :: 'l' :: cs        => some (.null, cs)
  | 't' :: 'r' :: 'u' :: 'e' :: cs        => some (.bool true, cs)
  | 'f' :: 'a' :: 'l' :: 's' :: 'e' :: cs => some (.bool false, cs)
  | _                                     => none

-- A value that is not taken apart.
def scalar? : List Char → Option (Json × List Char)
  | '"' :: cs => (string? cs).map fun (s, rest) => (.text s, rest)
  | cs => match number? cs with
    | some (n, rest) => some (.number n, rest)
    | none           => constant? cs

-- The name of a member and the colon behind it.
def memberName? (cs : List Char) : Option (Option String × List Char) := do
  let '"' :: cs := cs | none
  let (name, rest) ← string? cs
  let ':' :: rest := skip rest | none
  some (name, rest)

def Reading.map {α β : Type} (f : α → β) : Reading α → Reading β
  | whole a rest => .whole (f a) rest
  | torn part    => .torn (part.map f)

-- A list whose first element is known, and whose others follow.
def Reading.after {α : Type} (a : α) : Reading (List α) → Reading (List α)
  | whole as rest => .whole (a :: as) rest
  | torn part     => .torn (some (a :: part.getD []))

mutual

-- A value and what follows it. Every character needs two units of fuel.
def valueIn : Nat → List Char → Reading Json
  | 0,        _  => .torn none
  | fuel + 1, cs => match skip cs with
    | '[' :: cs => match skip cs with
      | ']' :: rest => .whole (.array []) rest
      | cs          => (itemsIn fuel cs).map .array
    | '{' :: cs => match skip cs with
      | '}' :: rest => .whole (.object []) rest
      | cs          => (membersIn fuel cs).map .object
    | cs => match scalar? cs with
      | some (j, rest) => .whole j rest
      | none           => .torn none

-- The items of an array, up to its closing bracket.
def itemsIn : Nat → List Char → Reading (List Json)
  | 0,        _  => .torn (some [])
  | fuel + 1, cs => match valueIn fuel cs with
    | .torn part    => .torn (some part.toList)
    | .whole j rest => match skip rest with
      | ',' :: rest => (itemsIn fuel rest).after j
      | ']' :: rest => .whole [j] rest
      | _           => .torn (some [j])

-- The members of an object, up to its closing brace.
def membersIn : Nat → List Char → Reading (List (Option String × Json))
  | 0,        _  => .torn (some [])
  | fuel + 1, cs => match memberName? (skip cs) with
    | none           => .torn (some [])
    | some (name, cs) => match valueIn fuel cs with
      | .torn part    => .torn (some (part.toList.map (name, ·)))
      | .whole j rest => match skip rest with
        | ',' :: rest => (membersIn fuel rest).after (name, j)
        | '}' :: rest => .whole [(name, j)] rest
        | _           => .torn (some [(name, j)])

end

def readValue (cs : List Char) : Reading Json :=
  valueIn (2 * cs.length + 2) cs

-- A text as far as it can be read.
structure Document where
  -- The value that the text starts with, or what there is of it.
  root : Option Json
  -- Whether the text is that value and nothing else.
  complete : Bool

def Document.read (text : String) : Document :=
  match readValue text.toList with
  | .whole j rest => { root := some j, complete := rest.all isSpace }
  | .torn part    => { root := part, complete := false }

def read? (text : String) : Option Json :=
  let document := Document.read text
  if document.complete then document.root else none

end MetricCollector.Json
