import MetricCollector.Collector
import MetricCollector.Console.Query
import MetricCollector.Console.Target
import MetricCollector.Json.Writer
import MetricCollector.Table.SnapshotJson

namespace MetricCollector

namespace Web

inductive Route
  | everything
  | kind (k : Kind)
  | stats
  deriving DecidableEq, Repr

def Route.ofPath? (path : List Char) : Option Route :=
  match path with
  | ['/']     => some .everything
  | '/' :: cs =>
    let name := String.ofList cs
    if name = "stats" then some .stats else (Kind.ofPlural? name).map .kind
  | _         => none

-- What is served.
inductive Body
  | nothing
  | message (text : String)
  | snapshot (s : Snapshot)
  | stats (s : Stats)

def Body.text : Body → String
  | nothing      => ""
  | message text => text
  | snapshot s   => s.toJson.write
  | stats s      => s.toJson.write

structure Reply where
  status : Nat
  body   : Body

structure Request where
  method : String
  target : Target
  deriving DecidableEq, Repr

def isMethodChar (c : Char) : Bool :=
  c.isAlphanum || "!#$%&'*+-.^_`|~".contains c

-- The request that a method and a target make, if they are well-formed.
def Request.read? (method target : String) : Option Request :=
  if !method.isEmpty && method.toList.all isMethodChar
  then (Target.parse? target).map (⟨method, ·⟩) else none

-- The only parameter that counts, of which there must be at most one.
def startParameter : String := "prefix"

def start? (query : List Char) : Except String (Option String) :=
  match (Query.parameters query).filter (·.1 = startParameter) with
  | []           => .ok none
  | [(_, value)] => .ok (some value)
  | _            => .error "Failed to deserialize query string: duplicate field `prefix`"

def Route.kind? : Route → Option Kind
  | kind k => some k
  | _      => none

def served : Except EngineError Snapshot → Reply
  | .ok s    => ⟨200, .snapshot s⟩
  | .error e => ⟨503, .message e.message⟩

end Web

open Web in
def Collector.serveRoute (c : Collector) (route : Route) (query : List Char) :
    Reply × Collector :=
  match route with
  | .stats => (⟨200, .stats c.stats⟩, c)
  | route  =>
    match start? query with
    | .error text => (⟨400, .message text⟩, c)
    | .ok start?  =>
      let (snapshot, c) := c.snapshot { kind? := route.kind?, start? }
      (served snapshot, c)

open Web in
-- Answers a request. One for the head alone has the same status and no body.
def Collector.serve (c : Collector) (r : Request) : Reply × Collector :=
  match Route.ofPath? r.target.path with
  | none       => (⟨404, .nothing⟩, c)
  | some route =>
    match r.method with
    | "GET"  => c.serveRoute route r.target.query
    | "HEAD" =>
      let (reply, c) := c.serveRoute route r.target.query
      ({ reply with body := .nothing }, c)
    | _      => (⟨405, .nothing⟩, c)

end MetricCollector
