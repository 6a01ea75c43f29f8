import MetricCollector.CommandLine.Flag

namespace MetricCollector

-- Why arguments are not acceptable, or ask for something else than to run.
inductive UsageError
  | unknownArgument
  | missingValue
  -- A value that cannot be read, and the reason if there is one to tell.
  | invalidValue (reason : Option SettingsError)
  -- A flag that stands twice.
  | repeated
  | unexpectedValue
  | showHelp
  | showVersion
  deriving DecidableEq, Repr

-- What has been read.
structure Arguments where
  flags   : Flags := {}
  -- The flags that stood on the command line.
  given   : List Flag := []
  -- A flag whose value is still to come or still to be looked at.
  pending : Option (Flag × Option (List Char)) := none
  -- Whether no more flags can follow.
  closed  : Bool := false

namespace Arguments

-- The parts between commas. An empty text has one part.
def listed (text : List Char) : List String :=
  (text.splitOn ',').map String.ofList

def span (text : String) : Except UsageError Span :=
  (Span.read text).mapError fun e => .invalidValue (some (.span e))

def threshold (text : String) : Except UsageError Threshold :=
  (Threshold.read text).mapError fun e => .invalidValue (some (.threshold e))

def address (text : String) : Except UsageError Address :=
  match Address.read? text with
  | some address => .ok address
  | none         => .error (.invalidValue none)

-- A path must not be empty.
def path (text : String) : Except UsageError String :=
  if text = "" then .error .missingValue else .ok text

def put (f : Flags) (value : List Char) : Flag → Except UsageError Flags
  | .configPath     => do return { f with configPath? := some (← path text) }
  | .backends       => .ok { f with backends? := some (f.backends?.getD [] ++ listed value) }
  | .expiryInterval => do return { f with expiryInterval? := some (← span text) }
  | .flushInterval  => do return { f with flushInterval? := some (← span text) }
  | .metricsAddress => do return { f with metricsAddress? := some (← address text) }
  | .scope          => .ok { f with scope? := some text }
  | .consoleAddress => .ok { f with consoleAddress? := some text }
  | .webAddress     => .ok { f with webAddress? := some text }
  | .thresholds     => do
    let ts ← (listed value).mapM threshold
    return { f with thresholds? := some (f.thresholds?.getD [] ++ ts) }
  | .verbose        => .ok { f with verbose := true }
  | .help           => .error .showHelp
  | .version        => .error .showVersion
where
  text := String.ofList value

-- Notes that a flag stands on the command line, with its value.
def take (a : Arguments) (flag : Flag) (value : List Char) : Except UsageError Arguments := do
  if !flag.addsUp ∧ flag ∈ a.given then throw .repeated
  return { a with flags := ← put a.flags value flag, given := flag :: a.given }

def settle (a : Arguments) : Except UsageError Arguments :=
  match a.pending with
  | none                    => .ok a
  | some (_, none)          => .error .missingValue
  | some (flag, some value) => take { a with pending := none } flag value

-- A flag that comes with its value, or without one.
def attach (a : Arguments) (flag : Flag) (value : List Char) : Except UsageError Arguments := do
  take (← a.settle) flag value

-- A flag whose value has to follow.
def await (a : Arguments) (flag : Flag) : Except UsageError Arguments := do
  return { ← a.settle with pending := some (flag, none) }

-- A flag by its name, as it stands behind two hyphens.
def long (a : Arguments) (cs : List Char) : Except UsageError Arguments :=
  let (name, value?) := match Text.cutAt? '=' cs with
    | some (name, value) => (name, some value)
    | none               => (cs, none)
  match Flag.ofName? name with
  | none      => .error .unknownArgument
  | some flag =>
    match flag.takesValue, value? with
    | true,  some value => a.attach flag value
    | true,  none       => a.await flag
    | false, some _     => .error .unexpectedValue
    | false, none       => a.attach flag []

-- Flags by their letters. What follows the letter of a flag with a value is that value.
def short (a : Arguments) : List Char → Except UsageError Arguments
  | []      => .ok a
  | c :: cs =>
    match Flag.ofLetter? c with
    | none      => .error .unknownArgument
    | some flag =>
      if flag.takesValue then
        match cs with
        | []           => a.await flag
        | '=' :: value => a.attach flag value
        | value        => a.attach flag value
      else do short (← a.attach flag []) cs

-- The flag that waits for its value.
def awaiting? (a : Arguments) : Option Flag :=
  match a.pending with
  | some (flag, none) => some flag
  | _                 => none

-- An argument that is no flag, which is the value of the flag before.
def plain (a : Arguments) (cs : List Char) : Except UsageError Arguments :=
  match a.awaiting? with
  | some flag => .ok { a with pending := some (flag, some cs) }
  | none      => .error .unknownArgument

def next (a : Arguments) (argument : String) : Except UsageError Arguments :=
  let cs := argument.toList
  if a.closed then .error .unknownArgument
  else if a.awaiting?.any Flag.takesAnything then a.plain cs
  else match cs with
    | ['-', '-']       => .ok { a with closed := true }
    | '-' :: '-' :: cs => a.long cs
    | '-' :: c :: cs   => a.short (c :: cs)
    | cs               => a.plain cs

-- Arguments are read from left to right. The value of a flag is only looked at once it is certain
-- that nothing else belongs to it, which is when the next flag comes or the arguments end.
def read (arguments : List String) : Except UsageError Flags := do
  let a ← arguments.foldlM next {}
  return (← a.settle).flags

end Arguments
end MetricCollector
