import MetricCollector.Settings.Basic

namespace MetricCollector

inductive Flag
  | configPath
  | backends
  | expiryInterval
  | flushInterval
  | metricsAddress
  | scope
  | consoleAddress
  | webAddress
  | thresholds
  | verbose
  | help
  | version
  deriving DecidableEq, Repr

namespace Flag

def all : List Flag :=
  [configPath, backends, expiryInterval, flushInterval, metricsAddress, scope, consoleAddress,
   webAddress, thresholds, verbose, help, version]

def name : Flag → String
  | configPath     => "config-path"
  | backends       => "backends"
  | expiryInterval => "expiry-interval"
  | flushInterval  => "flush-interval"
  | metricsAddress => "metrics-addr"
  | scope          => "namespace"
  | consoleAddress => "console-addr"
  | webAddress     => "web-addr"
  | thresholds     => "percent-threshold"
  | verbose        => "verbose"
  | help           => "help"
  | version        => "version"

def letter? : Flag → Option Char
  | configPath => some 'c'
  | verbose    => some 'v'
  | help       => some 'h'
  | version    => some 'V'
  | _          => none

def ofName? (name : List Char) : Option Flag :=
  all.find? (·.name.toList = name)

def ofLetter? (c : Char) : Option Flag :=
  all.find? (·.letter? = some c)

def takesValue : Flag → Bool
  | verbose | help | version => false
  | _                        => true

-- Whether the values of several occurrences add up. Other flags stand at most once.
def addsUp : Flag → Bool
  | backends | thresholds => true
  | _                     => false

-- Whether whatever follows is the value, even if it looks like a flag.
def takesAnything : Flag → Bool
  | thresholds => true
  | _          => false

end Flag

-- What the flags of a command line say.
structure Flags where
  configPath?     : Option String := none
  backends?       : Option (List String) := none
  expiryInterval? : Option Span := none
  flushInterval?  : Option Span := none
  metricsAddress? : Option Address := none
  scope?          : Option String := none
  consoleAddress? : Option String := none
  webAddress?     : Option String := none
  thresholds?     : Option (List Threshold) := none
  verbose         : Bool := false

namespace Flags

-- What a listed name says: blank names are passed over.
def namedBackends (names : List String) : Except SettingsError (List Backend) :=
  ((names.filter fun name => Text.trim name ≠ "").mapM Backend.ofName).mapError .setting

def listenAddress (text : String) : Except SettingsError (Option Address) :=
  (Address.readListen text).mapError fun e => .setting (.listenAddress e)

-- The settings with those replaced that flags were given for. An empty namespace is none.
def overlay (f : Flags) (s : Settings) : Except SettingsError Settings := do
  let backends ← f.backends?.elim (pure s.backends) namedBackends
  let consoleAddress ← f.consoleAddress?.elim (pure s.consoleAddress) listenAddress
  let webAddress ← f.webAddress?.elim (pure s.webAddress) listenAddress
  return { s with
    backends
    consoleAddress
    webAddress
    expiryInterval := f.expiryInterval?.getD s.expiryInterval
    flushInterval  := f.flushInterval?.getD s.flushInterval
    metricsAddress := f.metricsAddress?.getD s.metricsAddress
    scope          := f.scope?.elim s.scope fun scope => if scope = "" then none else some scope
    thresholds     := f.thresholds?.elim s.thresholds fun ts => ts.map Threshold.value }

end Flags
end MetricCollector
