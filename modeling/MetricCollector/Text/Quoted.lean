import MetricCollector.Text.Unprintable

namespace MetricCollector.Text

-- The letter behind the backslash, for characters that have one.
def escapeLetter? : Char → Option Char
  | '"'    => some '"'
  | '\\'   => some '\\'
  | '\n'   => some 'n'
  | '\r'   => some 'r'
  | '\t'   => some 't'
  | '\x00' => some '0'
  | _      => none

-- The code point of `c` in lower case hexadecimal digits, between braces.
def numbered (c : Char) : List Char :=
  ['\\', 'u', '{'] ++ Nat.toDigits 16 c.toNat ++ ['}']

-- A backslash marks the quote, the backslash and the common controls; other characters that would
-- not be seen are written by their number.
def quotedChar (c : Char) : List Char :=
  match escapeLetter? c with
  | some letter => ['\\', letter]
  | none        => if isUnprintable c then numbered c else [c]

def quoted (text : String) : String :=
  String.ofList ('"' :: text.toList.flatMap quotedChar ++ ['"'])

end MetricCollector.Text
