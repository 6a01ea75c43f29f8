import MetricCollector.Engine.Stats
import MetricCollector.Table.Snapshot

namespace MetricCollector.Console

def counterText (c : Counter) : String :=
  plainText c.value ++ " (total " ++ plainText c.total ++ ")"

-- Without samples there is nothing to tell about a timer.
def timerText (t : Timer) : String :=
  match t.mean? with
  | none      => "count=0"
  | some mean =>
    "count=" ++ countText t.count ++ " sum=" ++ plainText t.sum ++ " min=" ++ plainText t.min
      ++ " max=" ++ plainText t.max ++ " mean=" ++ plainText mean

def membersText (s : Members) : String :=
  countText s.size ++ " [" ++ String.intercalate ", " s.toList ++ "]"

-- A line for every entry of a map.
def lines {α : Type} (text : α → String) (m : OrderedMap Series α) : List String :=
  m.entries.map fun e => e.1.text ++ ": " ++ text e.2 ++ "\n"

def listing (s : Snapshot) : Kind → List String
  | .counter => lines counterText s.counters
  | .gauge   => lines plainText s.gauges
  | .timer   => lines timerText s.timers
  | .set     => lines membersText s.sets

def listingText (s : Snapshot) (k : Kind) : String :=
  String.join (listing s k)

-- The operational counters, one to a line.
def statsText (s : Stats) : String :=
  String.join (s.named.map fun (name, n) => name ++ ": " ++ countText n ++ "\n")

end MetricCollector.Console
