import MetricCollector.CommandLine.Arguments
import MetricCollector.CommandLine.Load
import MetricCollector.Console.Request
import MetricCollector.Daemon

namespace MetricCollector.Program

-- What is said about arguments that do not make sense.
def usageText : UsageError → String
  | .unknownArgument       => "unexpected argument"
  | .missingValue          => "a value is required"
  | .invalidValue none     => "invalid value"
  | .invalidValue (some e) => e.message
  | .repeated              => "an argument cannot be used more than once"
  | .unexpectedValue       => "unexpected value"
  | .showHelp              => "Flags: " ++ ", ".intercalate (Flag.all.map fun f => "--" ++ f.name)
  | .showVersion           => "0.1.0"

def loadText : LoadError → String
  | .file      => "Failed to read config file"
  | .content e => unreadableSettings ++ e.cause?.elim "" (": " ++ ·)
  | .flags e   => e.message

-- Where settings make no sense, that is said.
def ready (s : Settings) : Except String Collector := do
  let daemon ← (Daemon.create s).mapError SettingsError.message
  if Collector.isFeasible s then (daemon.start [] .origin).mapError SettingsError.message
  else throw "the queue or the backlog is too large"

def report (c : Collector) : String :=
  String.join ((Kind.all.map Kind.plural ++ ["stats"]).map fun request =>
    (c.answer request).1.getD "")

-- Receives every line as a packet of its own.
partial def collect (input : IO.FS.Stream) (c : Collector) : IO Collector := do
  let line ← input.getLine
  if line.isEmpty then return c
  collect input (c.receive line.toUTF8.toList).2

-- The settings file that the flags name, if it can be read.
def contents (flags : Flags) : IO (Option String) := do
  let some path := flags.configPath? | return none
  try return some (← IO.FS.readFile path) catch _ => return none

end MetricCollector.Program

open MetricCollector Program in
def main (arguments : List String) : IO UInt32 := do
  match Arguments.read arguments with
  | .error e =>
    IO.eprintln (usageText e)
    return if e = .showHelp ∨ e = .showVersion then 0 else 2
  | .ok flags =>
    let text ← contents flags
    match (flags.load fun _ => text).mapError loadText >>= ready with
    | .error message =>
      IO.eprintln message
      return 1
    | .ok c =>
      IO.print (report (← collect (← IO.getStdin) c))
      return 0
