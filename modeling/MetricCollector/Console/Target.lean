import MetricCollector.Text.Cut

namespace MetricCollector.Web

-- A target is a path with a query, an absolute address that ends in them, or just the place that
-- would be asked. What stands behind a `#` does not count.
structure Target where
  path  : List Char
  query : List Char := []
  deriving DecidableEq, Repr

-- What has been seen of the place in an address: a host, perhaps with a user in front of it and
-- with a port behind it.
structure Place where
  -- The colons since the last `@` or `]`.
  colons      : Nat := 0
  -- Whether there is a percent sign since then.
  percent     : Bool := false
  opened      : Bool := false
  closed      : Bool := false

namespace Place

def colonLimit : Nat := 8

def isPlain (c : Char) : Bool :=
  c.isAlphanum || "!$&'()*+,-.;=_~".contains c

-- Goes on by a character. Percent signs are for users and zones, which are not looked into.
def add? (p : Place) (c : Char) : Option Place :=
  match c with
  | ':' => if p.colons < colonLimit then some { p with colons := p.colons + 1 } else none
  | '[' => if p.percent || p.opened then none else some { p with opened := true }
  | ']' =>
    if p.opened && !p.closed
    then some { p with closed := true, colons := 0, percent := false } else none
  | '@' => some { p with colons := 0, percent := false }
  | '%' => some { p with percent := true }
  | c   => if isPlain c then some p else none

def isComplete (p : Place) : Bool :=
  p.opened == p.closed && p.colons ≤ 1 && !p.percent

-- Whether a text names a place, or nothing at all.
def isWellFormed (cs : List Char) : Bool :=
  (cs.foldlM add? {}).any isComplete && cs.getLast? != some '@'

end Place

namespace Target

-- How long targets and schemes may be.
def sizeLimit : Nat := 65534

def schemeLimit : Nat := 64

def isSchemeChar (c : Char) : Bool :=
  c.isAlphanum || "+-.".contains c

def endsPlace (c : Char) : Bool :=
  c = '/' || c = '?' || c = '#'

-- Some characters ought to be written with percent signs, and are let through all the same.
def isPathChar (c : Char) : Bool :=
  ' ' < c && !"#<>?`".contains c

def isQueryChar (c : Char) : Bool :=
  ' ' < c && !"\"#<>".contains c

-- A path with a query. An empty path is that of the root.
def ofPath? (cs : List Char) : Option Target :=
  let cs := cs.takeWhile (· ≠ '#')
  let (path, query) := (Text.cutAt? '?' cs).getD (cs, [])
  if path.all isPathChar && query.all isQueryChar
  then some ⟨if path.isEmpty then ['/'] else path, query⟩ else none

-- The scheme of an absolute address, and what stands behind it.
def scheme? (cs : List Char) : Option (List Char × List Char) :=
  (Text.after? "://".toList (cs.dropWhile isSchemeChar)).map (cs.takeWhile isSchemeChar, ·)

-- What an absolute address leads to, of which the scheme is left out here.
def ofPlace? (cs : List Char) : Option Target :=
  let place := cs.takeWhile (!endsPlace ·)
  if !place.isEmpty && Place.isWellFormed place then ofPath? (cs.dropWhile (!endsPlace ·)) else none

-- The target that a text denotes. A place alone has no path.
def parse? (text : String) : Option Target :=
  let cs := text.toList
  if text.utf8ByteSize > sizeLimit then none
  else if cs = ['*'] then some ⟨cs, []⟩
  else if cs.head? = some '/' then ofPath? cs
  else match scheme? cs with
    | some (scheme, rest) => if scheme.length ≤ schemeLimit then ofPlace? rest else none
    | none =>
      if !cs.isEmpty && !cs.any endsPlace && Place.isWellFormed cs then some ⟨[], []⟩ else none

end Target

end MetricCollector.Web
