import MetricCollector.Json.Decode
import MetricCollector.Json.Writer
import MetricCollector.Settings.Basic

namespace MetricCollector

open Json (field toBool toText toFloat toCount toParsed toSpan toOption toList toNamed toRecord)

namespace GraphiteSettings

def fields : List (Json.Field GraphiteSettings) :=
  [field "address" toText fun s x => { s with address := x },
   field "prefix" toText fun s x => { s with root := x }]

end GraphiteSettings

namespace Backend

-- The member that tells which kind of sink the others are for.
def tag : String := "type"

-- The only member of that name, and the other members.
def untag? (members : List (Option String × Json)) : Option (Json × List (Option String × Json)) :=
  match members.partition fun m => m.1 == some tag with
  | ([(_, j)], others) => some (j, others)
  | _                  => none

-- A backend whose kind is known. There is nothing to be read about standard output, but an array
-- must not go on for it.
def ofContent (content : Json) : Backend → Except Json.Unreadable Backend
  | .graphite start => .graphite <$> toRecord GraphiteSettings.fields start content
  | .stdout => match content with
    | .array (_ :: _) => .error .shape
    | _               => .ok .stdout

-- An object with the tag anywhere among the members, or an array that starts with it.
def ofSound : Json.Decoder Backend
  | .object members => do
    let (kind, others) ← Json.require (untag? members)
    ofContent (.object others) (← toParsed named? kind)
  | .array (kind :: others) => do ofContent (.array others) (← toParsed named? kind)
  | _ => .error .shape

-- A backend. Until the tag is found nothing is known about the other members, so that all of them
-- have to be sound, and `depth` limits how deep they are nested.
def ofJson (round : Json.Rounding) (depth : Nat) : Json.Decoder Backend :=
  fun j => if j.isSound round depth then ofSound j else .error .shape

def toJson : Backend → Json
  | graphite s =>
    .record
      [(tag, .ofString "graphite"), ("address", .ofString s.address), ("prefix", .ofString s.root)]
  | stdout => .record [(tag, .ofString "stdout")]

-- How deep arrays and objects of a text may be nested.
def nestingLimit : Nat := 127

def read (text : String) : Except Json.Unreadable Backend :=
  Json.decodeText (ofJson Json.Numeral.toFloat? nestingLimit) text

end Backend

namespace Settings

-- Backends are listed in an array within an object.
def backendDepth : Nat := Backend.nestingLimit - 2

def fields (round : Json.Rounding) : List (Json.Field Settings) :=
  [field "metricsAddr" (toParsed Address.read?) fun s x => { s with metricsAddress := x },
   field "receiverWorkers" toCount fun s x => { s with receiverWorkers := x },
   field "namespace" (toOption toText) fun s x => { s with scope := x },
   field "consoleAddr" (toOption (toParsed Address.read?)) fun s x => { s with consoleAddress := x },
   field "webConsoleAddr" (toOption (toParsed Address.read?)) fun s x => { s with webAddress := x },
   field "flushInterval" toSpan fun s x => { s with flushInterval := x },
   field "expiryInterval" toSpan fun s x => { s with expiryInterval := x },
   field "percentThresholds" (toList (toFloat round)) fun s x => { s with thresholds := x },
   field "queueCapacity" toCount fun s x => { s with queueCapacity := x },
   field "overflowPolicy" (toNamed OverflowPolicy.ofName?) fun s x => { s with overflowPolicy := x },
   field "flushOnShutdown" toBool fun s x => { s with flushOnShutdown := x },
   field "sinkTimeout" (toOption toSpan) fun s x => { s with sinkTimeout? := x },
   field "summaryBacklog" toCount fun s x => { s with summaryBacklog := x },
   field "backends" (toList (Backend.ofJson round backendDepth)) fun s x =>
     { s with backends := x }]

def ofJson (round : Json.Rounding) : Json.Decoder Settings :=
  toRecord (fields round) {}

-- The settings that a text describes, where `round` says how numbers are read.
def readWith (round : Json.Rounding) (text : String) : Except Json.Unreadable Settings :=
  Json.decodeText (ofJson round) text

def read (text : String) : Except Json.Unreadable Settings :=
  readWith Json.Numeral.toFloat? text

-- Null, or what there is.
def optionJson {α : Type} (toJson : α → Json) : Option α → Json
  | some a => toJson a
  | none   => .null

def addressJson (a : Address) : Json :=
  .ofString a.text

def spanJson (s : Span) : Json :=
  .ofString s.secondsText

def toJson (s : Settings) : Json :=
  .record <|
    [("metricsAddr", addressJson s.metricsAddress),
     ("receiverWorkers", .ofNat s.receiverWorkers),
     ("namespace", optionJson .ofString s.scope),
     ("consoleAddr", optionJson addressJson s.consoleAddress),
     ("webConsoleAddr", optionJson addressJson s.webAddress),
     ("flushInterval", spanJson s.flushInterval),
     ("expiryInterval", spanJson s.expiryInterval),
     ("percentThresholds", .array (s.thresholds.map .ofFloat)),
     ("queueCapacity", .ofNat s.queueCapacity),
     ("overflowPolicy", .ofString s.overflowPolicy.name),
     ("flushOnShutdown", .bool s.flushOnShutdown)]
    ++ (s.sinkTimeout?.toList.map fun timeout => ("sinkTimeout", spanJson timeout))
    ++ [("summaryBacklog", .ofNat s.summaryBacklog),
        ("backends", .array (s.backends.map Backend.toJson))]

def write (s : Settings) : String :=
  s.toJson.write

end Settings
end MetricCollector
