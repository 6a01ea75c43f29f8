import MetricCollector.Text.Utf8
import MetricCollector.Wire.Record

namespace MetricCollector.Packet

def newline : UInt8 := 10

def carriageReturn : UInt8 := 13

-- A line without the carriage return at its end.
def withoutReturn (line : List UInt8) : List UInt8 :=
  (Text.before? carriageReturn line).getD line

-- A carriage return at the end of a line does not belong to it, and empty lines hold no record.
def lines (packet : List UInt8) : List (List UInt8) :=
  ((packet.splitOn newline).map withoutReturn).filter (· ≠ [])

-- A line that is not text is no record, and is shown with its gaps replaced.
def parseLine (scope : Option String) (line : List UInt8) : Except RecordError Metric :=
  match Text.Utf8.decode? line with
  | some text => Record.parse scope text
  | none      => .error (.malformed (Text.Utf8.decodeLossy line))

-- The result of every record of a packet, in order.
def parse (scope : Option String) (packet : List UInt8) : List (Except RecordError Metric) :=
  (lines packet).map (parseLine scope)

end MetricCollector.Packet
