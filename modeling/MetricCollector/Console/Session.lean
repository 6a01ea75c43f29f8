import MetricCollector.Console.Request

namespace MetricCollector

namespace Console

-- The lines of what was sent. The last one need not be ended.
def sessionLines (bytes : List UInt8) : List (List UInt8) :=
  let pieces := bytes.splitOn Packet.newline
  let pieces := if pieces.getLast? = some [] then pieces.dropLast else pieces
  pieces.map Packet.withoutReturn

end Console

def Collector.converse (c : Collector) : List (List UInt8) → String × Collector
  | []            => ("", c)
  | line :: lines =>
    match Text.Utf8.decode? line with
    | none      => ("", c)
    | some line =>
      match c.answer line with
      | (none, c)       => ("", c)
      | (some reply, c) =>
        let (replies, c) := converse c lines
        (reply ++ replies, c)

-- The lines are answered in order. A session ends at the request to do so, at a line that is not
-- text, or when nothing more comes.
def Collector.session (c : Collector) (bytes : List UInt8) : String × Collector :=
  c.converse (Console.sessionLines bytes)

end MetricCollector
