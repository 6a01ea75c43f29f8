import MetricCollector.Json.Basic

namespace MetricCollector.Json

-- The letter behind the backslash, for characters that have one.
def escapeLetter? : Char → Option Char
  | '"'    => some '"'
  | '\\'   => some '\\'
  | '\x08' => some 'b'
  | '\x0c' => some 'f'
  | '\n'   => some 'n'
  | '\r'   => some 'r'
  | '\t'   => some 't'
  | _      => none

-- Characters below the space may not stand in a string.
def isControl (c : Char) : Bool :=
  c.toNat < 0x20

-- The number of a control character, in four hexadecimal digits.
def numbered (c : Char) : List Char :=
  ['\\', 'u', '0', '0', Nat.digitChar (c.toNat / 16), Nat.digitChar (c.toNat % 16)]

def escaped (c : Char) : List Char :=
  match escapeLetter? c with
  | some letter => ['\\', letter]
  | none        => if isControl c then numbered c else [c]

def quotedChars (s : String) : List Char :=
  '"' :: s.toList.flatMap escaped ++ ['"']

-- Texts with a separator between them.
def joined (separator : Char) : List (List Char) → List Char
  | []          => []
  | [cs]        => cs
  | cs :: texts => cs ++ separator :: joined separator texts

-- A string that denotes no text is written as an empty one.
def textChars (s : Option String) : List Char :=
  quotedChars (s.getD "")

mutual

def chars : Json → List Char
  | .null           => ['n', 'u', 'l', 'l']
  | .bool true      => ['t', 'r', 'u', 'e']
  | .bool false     => ['f', 'a', 'l', 's', 'e']
  | .number n       => n.chars
  | .text s         => textChars s
  | .array items    => '[' :: joined ',' (itemChars items) ++ [']']
  | .object members => '{' :: joined ',' (memberChars members) ++ ['}']

def itemChars : List Json → List (List Char)
  | []      => []
  | j :: js => chars j :: itemChars js

def memberChars : List (Option String × Json) → List (List Char)
  | []              => []
  | (name, j) :: ms => (textChars name ++ ':' :: chars j) :: memberChars ms

end

def write (j : Json) : String :=
  String.ofList j.chars

end MetricCollector.Json
