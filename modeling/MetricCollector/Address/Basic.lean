namespace MetricCollector

-- Four octets.
structure HostV4 where
  octets : List UInt8
  complete : octets.length = 4
  deriving DecidableEq

-- Eight groups of 16 bits.
structure HostV6 where
  groups : List UInt16
  complete : groups.length = 8
  deriving DecidableEq

inductive Address
  | v4 (host : HostV4) (port : UInt16)
  -- The scope tells which network a local address belongs to; zero is none.
  | v6 (host : HostV6) (scope : UInt32) (port : UInt16)
  deriving DecidableEq

def HostV4.chars (h : HostV4) : List Char :=
  ['.'].intercalate (h.octets.map fun o => Nat.toDigits 10 o.toNat)

namespace HostV6

-- A run of zero groups.
structure Run where
  start  : Nat
  length : Nat
  deriving DecidableEq, Repr

-- The first of the longest runs of zeros in `gs`, where `index` groups precede, `here` is the run
-- that ends in front of `gs`, and `best` the longest one so far.
def longestRun : List UInt16 → (index : Nat) → (here best : Run) → Run
  | [],      _,     _,    best => best
  | g :: gs, index, here, best =>
    if g = 0 then
      let here := if here.length = 0 then ⟨index, 1⟩ else { here with length := here.length + 1 }
      longestRun gs (index + 1) here (if best.length < here.length then here else best)
    else longestRun gs (index + 1) ⟨0, 0⟩ best

def groupsChars (gs : List UInt16) : List Char :=
  [':'].intercalate (gs.map fun g => Nat.toDigits 16 g.toNat)

-- Groups with the longest run of zeros left out, if it is longer than one.
def compressed (gs : List UInt16) : List Char :=
  let run := longestRun gs 0 ⟨0, 0⟩ ⟨0, 0⟩
  if 1 < run.length then
    groupsChars (gs.take run.start) ++ ':' :: ':' :: groupsChars (gs.drop (run.start + run.length))
  else groupsChars gs

-- The octets of a group.
def octetsOf (g : UInt16) : List UInt8 :=
  [(g.toNat / 256).toUInt8, (g.toNat % 256).toUInt8]

-- The host of version 4 that these groups stand for, if they are of the form that is set apart for
-- such hosts.
def mapped? (h : HostV6) : Option HostV4 :=
  match h.groups with
  | [0, 0, 0, 0, 0, 0xFFFF, a, b] => some ⟨octetsOf a ++ octetsOf b, rfl⟩
  | _ => none

def chars (h : HostV6) : List Char :=
  match h.mapped? with
  | some host => "::ffff:".toList ++ host.chars
  | none      => compressed h.groups

end HostV6

namespace Address

def scopeChars (scope : UInt32) : List Char :=
  if scope = 0 then [] else '%' :: Nat.toDigits 10 scope.toNat

def chars : Address → List Char
  | v4 host port       => host.chars ++ ':' :: Nat.toDigits 10 port.toNat
  | v6 host scope port =>
    '[' :: host.chars ++ scopeChars scope ++ ']' :: ':' :: Nat.toDigits 10 port.toNat

def text (a : Address) : String :=
  String.ofList a.chars

-- A port on every interface of the machine.
def everywhere (port : UInt16) : Address :=
  .v4 ⟨[0, 0, 0, 0], rfl⟩ port

end Address
end MetricCollector
