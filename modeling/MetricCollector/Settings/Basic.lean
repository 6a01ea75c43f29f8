import MetricCollector.Settings.Backend

namespace MetricCollector

-- What happens to an observation when the queue of the engine is full.
inductive OverflowPolicy
  -- The sender waits.
  | block
  -- The observation is lost, and counted.
  | drop
  deriving DecidableEq, Repr

namespace OverflowPolicy

def name : OverflowPolicy → String
  | block => "block"
  | drop  => "drop"

def ofName? (text : String) : Option OverflowPolicy :=
  [block, drop].find? (·.name = text)

end OverflowPolicy

-- The settings of the engine, which can run with all of them.
structure EngineSettings where
  flushInterval     : Span := .ofSeconds 1
  -- Series that were not observed for longer than this expire, unless it is zero.
  expiryInterval    : Span := .ofSeconds 300
  thresholds        : List Threshold := [.ninety]
  queueCapacity     : Nat := 10000
  overflowPolicy    : OverflowPolicy := .block
  flushOnShutdown   : Bool := true
  flushInterval_pos : 0 < flushInterval.nanoseconds := by decide
  queueCapacity_pos : 0 < queueCapacity := by decide
  deriving BEq

structure Settings where
  metricsAddress  : Address := .everywhere 8125
  receiverWorkers : Nat := 2
  -- What every name is put behind.
  scope           : Option String := none
  consoleAddress  : Option Address := some (.everywhere 8126)
  webAddress      : Option Address := some (.everywhere 8181)
  flushInterval   : Span := .ofSeconds 1
  expiryInterval  : Span := .ofSeconds 300
  thresholds      : List Float := [90.0]
  queueCapacity   : Nat := 10000
  overflowPolicy  : OverflowPolicy := .block
  flushOnShutdown : Bool := true
  -- The time that a sink has to accept a summary.
  sinkTimeout?    : Option Span := none
  -- How many summaries wait for slow sinks.
  summaryBacklog  : Nat := 4
  backends        : List Backend := [.graphite {}]
  deriving BEq

namespace Settings

-- The time that a sink has. If none is set, it has until the next flush.
def sinkTimeout (s : Settings) : Span :=
  s.sinkTimeout?.getD s.flushInterval

-- The thresholds, if all of them are valid.
def validThresholds (s : Settings) : Except SettingsError (List Threshold) :=
  (s.thresholds.mapM Threshold.ofFloat).mapError .threshold

-- The settings of the engine, or the first reason why it cannot run with them.
def engine (s : Settings) : Except SettingsError EngineSettings := do
  let thresholds ← s.validThresholds
  if flush_pos : 0 < s.flushInterval.nanoseconds then
    if queue_pos : 0 < s.queueCapacity then
      return { flushInterval := s.flushInterval, expiryInterval := s.expiryInterval, thresholds,
               queueCapacity := s.queueCapacity, overflowPolicy := s.overflowPolicy,
               flushOnShutdown := s.flushOnShutdown, flushInterval_pos := flush_pos,
               queueCapacity_pos := queue_pos }
    else throw (.setting .queueCapacityZero)
  else throw (.interval .flushIntervalZero)

-- The first fault of settings, if they have one.
def validate (s : Settings) : Except SettingsError Unit := do
  let _ ← s.engine
  if s.receiverWorkers = 0 then throw (.setting .receiverWorkersZero)
  if s.sinkTimeout.isZero then throw (.interval .sinkTimeoutZero)
  if s.flushInterval < s.sinkTimeout then
    throw (.interval (.sinkTimeoutTooLong s.sinkTimeout s.flushInterval))
  if s.summaryBacklog = 0 then throw (.setting .summaryBacklogZero)

end Settings
end MetricCollector
