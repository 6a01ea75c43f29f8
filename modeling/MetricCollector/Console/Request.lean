import MetricCollector.Collector
import MetricCollector.Console.Listing
import MetricCollector.Text.Blank

namespace MetricCollector

namespace Console

-- Every line is a request, and gets a text for an answer.
inductive Request
  | blank
  | quit
  | help
  | stats
  -- The series of one kind, or those whose name starts like this.
  | list (k : Kind) (start? : Option String)
  | unknown
  deriving DecidableEq, Repr

-- The request of a line. Only its first two words count.
def Request.read (line : String) : Request :=
  match Text.words line with
  | []              => .blank
  | command :: rest =>
    match command with
    | "quit" | "exit" => .quit
    | "help"          => .help
    | "stats"         => .stats
    | _ =>
      match Kind.ofPlural? command with
      | some k => .list k rest.head?
      | none   => .unknown

-- What can be requested.
def help : String :=
  "Commands:\n" ++
  "  stats                 operational counters\n" ++
  "  counters [prefix]     current counters\n" ++
  "  gauges [prefix]       current gauges\n" ++
  "  timers [prefix]       current timers\n" ++
  "  sets [prefix]         current sets\n" ++
  "  help                  this message\n" ++
  "  quit                  close the connection\n"

def listed (k : Kind) : Except EngineError Snapshot → String
  | .ok s    => listingText s k
  | .error e => "error: " ++ e.message ++ "\n"

end Console

-- Answers one line, unless it ends the session.
def Collector.answer (c : Collector) (line : String) : Option String × Collector :=
  match Console.Request.read line with
  | .blank         => (some "", c)
  | .quit          => (none, c)
  | .help          => (some Console.help, c)
  | .stats         => (some (Console.statsText c.stats), c)
  | .list k start? =>
    let (snapshot, c) := c.snapshot { kind? := some k, start? }
    (some (Console.listed k snapshot), c)
  | .unknown       => (some "unknown command\n", c)

end MetricCollector
