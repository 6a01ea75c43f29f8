namespace MetricCollector.Text.Utf8

-- A character that is not complete yet: its bits so far, how many bytes it still owes, and the
-- range of the next one. The range rules out overlong forms, surrogates and numbers above 0x10FFFF.
structure Pending where
  code : Nat
  owed : Nat
  low  : Nat
  high : Nat

-- What the bytes are read into.
inductive Piece
  | char (c : Char)
  | gap
  deriving DecidableEq

-- A byte where a character has to start.
def lead (b : UInt8) : List Piece × Option Pending :=
  let n := b.toNat
  if n < 0x80 then ([.char (Char.ofNat n)], none)
  else if 0xC2 ≤ n ∧ n ≤ 0xDF then ([], some ⟨n - 0xC0, 1, 0x80, 0xBF⟩)
  else if n = 0xE0 then ([], some ⟨0x0, 2, 0xA0, 0xBF⟩)
  else if n = 0xED then ([], some ⟨0xD, 2, 0x80, 0x9F⟩)
  else if 0xE1 ≤ n ∧ n ≤ 0xEF then ([], some ⟨n - 0xE0, 2, 0x80, 0xBF⟩)
  else if n = 0xF0 then ([], some ⟨0x0, 3, 0x90, 0xBF⟩)
  else if 0xF1 ≤ n ∧ n ≤ 0xF3 then ([], some ⟨n - 0xF0, 3, 0x80, 0xBF⟩)
  else if n = 0xF4 then ([], some ⟨0x4, 3, 0x80, 0x8F⟩)
  else ([.gap], none)

-- A byte where `p` is still incomplete. A byte that does not continue it starts anew.
def continuation (p : Pending) (b : UInt8) : List Piece × Option Pending :=
  let n := b.toNat
  if p.low ≤ n ∧ n ≤ p.high then
    let code := p.code * 0x40 + (n - 0x80)
    if p.owed ≤ 1 then ([.char (Char.ofNat code)], none)
    else ([], some ⟨code, p.owed - 1, 0x80, 0xBF⟩)
  else
    let (pieces, next) := lead b
    (.gap :: pieces, next)

-- The pieces of the bytes that follow what is pending.
def piecesAfter : Option Pending → List UInt8 → List Piece
  | none,   []      => []
  | some _, []      => [.gap]
  | state,  b :: bs =>
    let (pieces, next) := match state with
      | none   => lead b
      | some p => continuation p b
    pieces ++ piecesAfter next bs

-- Bytes are read into characters and, where they are not well-formed, into gaps. A gap is the
-- longest start of a character that the next byte does not continue, or a single byte that starts
-- none.
def pieces (bytes : List UInt8) : List Piece :=
  piecesAfter none bytes

def Piece.char? : Piece → Option Char
  | .char c => some c
  | .gap    => none

-- A gap is shown as the replacement character.
def Piece.shown : Piece → Char
  | .char c => c
  | .gap    => '\uFFFD'

def decode? (bytes : List UInt8) : Option String :=
  ((pieces bytes).mapM Piece.char?).map String.ofList

-- The text of any bytes, with a replacement character for every gap.
def decodeLossy (bytes : List UInt8) : String :=
  String.ofList ((pieces bytes).map Piece.shown)

end MetricCollector.Text.Utf8
