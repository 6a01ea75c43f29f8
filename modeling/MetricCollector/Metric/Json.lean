import MetricCollector.Json.Decode
import MetricCollector.Json.Writer
import MetricCollector.Metric.Basic

namespace MetricCollector

def TagSet.toJson (tags : TagSet) : Json :=
  .array (tags.toList.map .ofString)

def Series.toJson (s : Series) : Json :=
  .ofString s.text

namespace Metric

def toJson (m : Metric) : Json :=
  .record
    [("name", .ofString m.name),
     ("type", .ofString m.kind.name),
     ("value", .ofFloat m.value),
     ("tags", TagSet.toJson m.tags),
     ("sample_rate", .ofFloat m.sampleRate)]

-- A metric while its fields are read. The first three have to be given.
structure Draft where
  name?  : Option String := none
  kind?  : Option Kind := none
  value? : Option Float := none
  tags   : TagSet := .empty
  sampleRate : Float := 1.0

open Json (field toText toNamed toFloat toList toRecord) in
def fields : List (Json.Field Draft) :=
  [field "name" toText fun d x => { d with name? := some x },
   field "type" (toNamed Kind.ofName?) fun d x => { d with kind? := some x },
   field "value" (toFloat Json.Numeral.toFloat?) fun d x => { d with value? := some x },
   field "tags" (toList toText) fun d x => { d with tags := .ofList x },
   field "sample_rate" (toFloat Json.Numeral.toFloat?) fun d x => { d with sampleRate := x }]

def Draft.complete? (d : Draft) : Option Metric := do
  return { name := ← d.name?, kind := ← d.kind?, value := ← d.value?, tags := d.tags,
           sampleRate := d.sampleRate }

def ofJson : Json.Decoder Metric :=
  fun j => do Json.require (← Json.toRecord fields {} j).complete?

def read (text : String) : Except Json.Unreadable Metric :=
  Json.decodeText ofJson text

end Metric
end MetricCollector
