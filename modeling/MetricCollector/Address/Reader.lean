import MetricCollector.Address.Basic
import MetricCollector.Text.Blank
import MetricCollector.Text.Hexadecimal
import MetricCollector.Text.Scan

namespace MetricCollector

open Text (Scan expect scanNumber)

namespace HostV4

-- A number below 256, of at most three digits and without a leading zero.
def octet? : Scan UInt8 := fun cs =>
  let ds := cs.takeWhile Char.isDigit
  if 3 < ds.length ∨ (ds.head? = some '0' ∧ 1 < ds.length) then none
  else (scanNumber 256 cs).map fun (n, rest) => (n.toUInt8, rest)

def scan : Scan HostV4 := fun cs => do
  let (a, cs) ← octet? cs
  let (_, cs) ← expect '.' cs
  let (b, cs) ← octet? cs
  let (_, cs) ← expect '.' cs
  let (c, cs) ← octet? cs
  let (_, cs) ← expect '.' cs
  let (d, cs) ← octet? cs
  some (⟨[a, b, c, d], rfl⟩, cs)

-- The octets in pairs.
def groups (h : HostV4) : List UInt16 :=
  match h.octets with
  | [a, b, c, d] =>
    [(a.toNat * 256 + b.toNat).toUInt16, (c.toNat * 256 + d.toNat).toUInt16]
  | _ => []

end HostV4

namespace HostV6

-- A hexadecimal number of at most four digits.
def group? : Scan UInt16 := fun cs =>
  let ds := cs.takeWhile Text.isHexDigit
  if ds = [] ∨ 4 < ds.length then none
  else some ((Text.hexNumber ds).toUInt16, cs.dropWhile Text.isHexDigit)

-- What comes behind a colon, or at the beginning without one.
def behindColon {α : Type} (first : Bool) (scan : Scan α) : Scan α := fun cs =>
  if first then scan cs else (expect ':' cs).bind fun (_, cs) => scan cs

-- Groups of a host, and whether the last two were written like a host in version 4.
structure Groups where
  groups   : List UInt16
  embedded : Bool := false

-- As many groups as there are, but no more than `room`.
def scanGroups : (room : Nat) → (first : Bool) → List Char → Groups × List Char
  | 0,        _,     cs => ({ groups := [] }, cs)
  | room + 1, first, cs =>
    match if room = 0 then none else behindColon first HostV4.scan cs with
    | some (host, rest) => ({ groups := host.groups, embedded := true }, rest)
    | none =>
      match behindColon first group? cs with
      | some (g, rest) =>
        let (more, rest) := scanGroups room false rest
        ({ more with groups := g :: more.groups }, rest)
      | none => ({ groups := [] }, cs)

-- A host of these groups, if they are eight.
def ofGroups? (gs : List UInt16) : Option HostV6 :=
  if h : gs.length = 8 then some ⟨gs, h⟩ else none

-- Eight groups, or fewer with two colons in place of the zeros that are left out.
def scan : Scan HostV6 := fun cs => do
  let (head, cs) := scanGroups 8 true cs
  match ofGroups? head.groups with
  | some host => some (host, cs)
  | none =>
    if head.embedded then none
    let (_, cs) ← expect ':' cs
    let (_, cs) ← expect ':' cs
    let (tail, cs) := scanGroups (7 - head.groups.length) true cs
    let zeros := List.replicate (8 - head.groups.length - tail.groups.length) 0
    (ofGroups? (head.groups ++ zeros ++ tail.groups)).map (·, cs)

end HostV6

namespace Address

-- Unlike an octet a port may have leading zeros.
def port? : Scan UInt16 := fun cs => do
  let (_, cs) ← expect ':' cs
  let (n, cs) ← scanNumber (twoTo 16) cs
  some (n.toUInt16, cs)

def scope? : Scan UInt32 := fun cs => do
  let (_, cs) ← expect '%' cs
  let (n, cs) ← scanNumber (twoTo 32) cs
  some (n.toUInt32, cs)

def scanV4 : Scan Address := fun cs => do
  let (host, cs) ← HostV4.scan cs
  let (port, cs) ← port? cs
  some (.v4 host port, cs)

def scanV6 : Scan Address := fun cs => do
  let (_, cs) ← expect '[' cs
  let (host, cs) ← HostV6.scan cs
  let (scope, cs) := (scope? cs).getD (0, cs)
  let (_, cs) ← expect ']' cs
  let (port, cs) ← port? cs
  some (.v6 host scope port, cs)

def readChars? (cs : List Char) : Option Address := do
  let (address, rest) ← (scanV4 cs).or (scanV6 cs)
  if rest = [] then some address else none

def read? (text : String) : Option Address :=
  readChars? text.toList

end Address

-- A text that is no address to listen on.
structure InvalidListenAddress where
  text : String
  deriving DecidableEq, Repr

def InvalidListenAddress.message (e : InvalidListenAddress) : String :=
  "invalid listen address: " ++ e.text

-- The address to listen on that a text denotes. Without a host it is a port on every interface, and
-- an empty text asks not to listen at all.
def Address.readListen (text : String) : Except InvalidListenAddress (Option Address) :=
  match Text.trimChars text.toList with
  | [] => .ok none
  | cs =>
    let candidate := if cs.head? = some ':' then "0.0.0.0".toList ++ cs else cs
    match readChars? candidate with
    | some address => .ok (some address)
    | none         => .error ⟨String.ofList cs⟩

end MetricCollector
