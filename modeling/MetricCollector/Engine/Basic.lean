import MetricCollector.Engine.Inbox
import MetricCollector.Engine.Stats
import MetricCollector.Engine.Ticker
import MetricCollector.Settings.Basic
import MetricCollector.Table.Flush
import MetricCollector.Table.Snapshot
import MetricCollector.Time.Moment

namespace MetricCollector

-- Why the engine does not take a command.
inductive EngineError
  | queueOverflow
  | stopped
  deriving DecidableEq, Repr

def EngineError.message : EngineError → String
  | queueOverflow => "engine queue is full, metric dropped"
  | stopped       => "aggregation engine has stopped"

inductive Command
  | submit (m : Metric)
  -- The ticket identifies the one who wants the snapshot.
  | snapshot (v : View) (ticket : Nat)

-- What comes out of a turn.
inductive Effect
  | published (s : Summary)
  | answered (ticket : Nat) (s : Snapshot)

def Effect.summary? : Effect → Option Summary
  | published s => some s
  | _           => none

def Effect.answer? : Effect → Option (Nat × Snapshot)
  | answered ticket s => some (ticket, s)
  | _                 => none

inductive Phase
  -- Commands queue up, but no turn has been taken.
  | created
  -- Without a ticker for it, nothing expires.
  | running (flush : Ticker) (expiry : Option Ticker)
  | ended
  -- There has been no way to start.
  | failed

-- Whether no turn will be taken any more.
def Phase.isOver : Phase → Bool
  | ended  => true
  | failed => true
  | _      => false

-- The engine owns the table. It takes one turn after another: when it is asked to stop it does so,
-- else when a flush is due it flushes, else when expiry is due it lets series expire, and else it
-- handles the next command of its queue. Before it ends it handles whatever is still queued.
structure Engine where
  settings : EngineSettings
  inbox    : Inbox Command
  table    : Table := .empty
  counts   : EngineCounts := {}
  phase    : Phase := .created
  -- Whether the engine was asked to stop.
  stopping : Bool := false

namespace Engine

def create (settings : EngineSettings) : Engine where
  settings := settings
  inbox    := { capacity := settings.queueCapacity }

-- The first tick of each ticker comes one period after the start.
def run (e : Engine) (now : Instant) : Engine :=
  let flush := Ticker.start now e.settings.flushInterval e.settings.flushInterval_pos
  let expiry :=
    if h : 0 < e.settings.expiryInterval.nanoseconds
    then some (Ticker.start now e.settings.expiryInterval h) else none
  { e with phase := .running flush expiry }

-- The end of an engine that cannot run. Nobody takes what is queued.
def fail (e : Engine) : Engine :=
  { e with inbox := e.inbox.close, phase := .failed }

-- Whether there is an instant for the first tick of each ticker.
def canRun (e : Engine) (now : Instant) : Bool :=
  (now.after e.settings.flushInterval).canBeShown &&
    (now.after e.settings.expiryInterval).canBeShown

def start (e : Engine) (now : Instant) : Engine :=
  if e.canRun now then e.run now else e.fail

-- What becomes of a command that is handed in.
inductive Admission
  | queued
  -- The sender has to wait for a place.
  | waiting
  | refused (e : EngineError)
  deriving DecidableEq, Repr

def send (e : Engine) (c : Command) : Admission × Engine :=
  if e.inbox.closed then (.refused .stopped, e)
  else if e.inbox.isFull then (.waiting, { e with inbox := e.inbox.enlist c })
  else (.queued, { e with inbox := e.inbox.push c })

def trySend (e : Engine) (c : Command) : Admission × Engine :=
  if e.inbox.closed then (.refused .stopped, e)
  else if e.inbox.isFull then
    (.refused .queueOverflow,
     { e with counts := { e.counts with dropped := e.counts.dropped + 1 } })
  else (.queued, { e with inbox := e.inbox.push c })

-- Hands in an observation, as the settings say.
def submit (e : Engine) (m : Metric) : Admission × Engine :=
  match e.settings.overflowPolicy with
  | .block => e.send (.submit m)
  | .drop  => e.trySend (.submit m)

def countInvalid (e : Engine) : Engine :=
  { e with counts := { e.counts with invalid := e.counts.invalid + 1 } }

-- Applies an observation, which is not always possible.
def handleMetric (e : Engine) (now : Instant) (m : Metric) : Engine :=
  let (applied, table) := e.table.apply m now
  let e := { e with table }
  if applied then { e with counts := { e.counts with received := e.counts.received + 1 } }
  else e.countInvalid

def handle (e : Engine) (now : Moment) : Command → List Effect × Engine
  | .submit m          => ([], e.handleMetric now.instant m)
  | .snapshot v ticket => ([.answered ticket (e.table.snapshot v now.timestamp)], e)

def flush (e : Engine) (now : Moment) : List Effect × Engine :=
  let (summary, table) :=
    e.table.flush e.settings.thresholds now.timestamp e.settings.flushInterval
  ([.published summary],
   { e with table, counts := { e.counts with flushes := e.counts.flushes + 1 } })

def expire (e : Engine) (now : Instant) : Engine :=
  let (removed, table) := e.table.expire now e.settings.expiryInterval
  { e with table, counts := { e.counts with expired := e.counts.expired + removed } }

def handleAll (e : Engine) (now : Moment) : List Command → List Effect × Engine
  | []      => ([], e)
  | c :: cs =>
    let (effects, e) := e.handle now c
    let (more, e) := handleAll e now cs
    (effects ++ more, e)

-- The end of an engine: what is queued is handled, and if so set, there is one last flush.
def finish (e : Engine) (now : Moment) : List Effect × Engine :=
  let (effects, e) := handleAll { e with inbox := e.inbox.close } now e.inbox.queued
  let e := { e with inbox := { e.inbox with queued := [] }, phase := .ended }
  if e.settings.flushOnShutdown then
    let (more, e) := e.flush now
    (effects ++ more, e)
  else (effects, e)

-- The end of an engine that never started: what is queued is lost.
def discard (e : Engine) : Engine :=
  { e with inbox := { e.inbox.close with queued := [] }, phase := .ended }

-- Waits for the ticks that are not due. Expiry is looked at when no flush is due.
def await (e : Engine) (now : Instant) (spell : Nat) : Engine :=
  match e.phase with
  | .running flush expiry =>
    if flush.isReady now then e
    else
      let expiry := expiry.map fun t => if t.isReady now then t else t.await spell
      { e with phase := .running (flush.await spell) expiry }
  | _ => e

-- The alarms that have been set.
def alarms (e : Engine) : List Alarm :=
  match e.phase with
  | .running flush expiry => flush.alarm?.toList ++ (expiry.bind Ticker.alarm?).toList
  | _                     => []

-- One turn, if there is something to do.
def turn? (e : Engine) (now : Moment) : Option (List Effect × Engine) :=
  match e.phase with
  | .running flush expiry =>
    if e.stopping then some (e.finish now)
    else if flush.isReady now.instant then
      let (effects, e) := e.flush now
      some (effects, { e with phase := .running (flush.tick now.instant) expiry })
    else
      match expiry.filter (·.isReady now.instant) with
      | some ticker =>
        let phase := .running flush (some (ticker.tick now.instant))
        some ([], { e.expire now.instant with phase })
      | none =>
        match e.inbox.pop? with
        | some (c, inbox) => some (handle { e with inbox } now c)
        | none            => if e.inbox.deserted then some (e.finish now) else none
  | _ => none

end Engine
end MetricCollector
