import MetricCollector.Delivery.Outlet
import MetricCollector.Engine.Spell
import MetricCollector.Wire.Packet

namespace MetricCollector

-- The engine and the way out together, as they go on in time. At an instant they work by turns, and
-- the one whose alarm goes off first begins.
structure Collector where
  now     : Moment := .origin
  -- What names are put behind.
  scope   : Option String
  engine  : Engine
  outlet  : Outlet
  -- The snapshots that were taken for those who hold the tickets.
  answers : List (Nat × Snapshot) := []
  tickets : Nat := 0
  -- Spells of work are numbered, so that one can tell which alarm was set first.
  spell   : Nat := 0

namespace Collector

-- Whether there can be a collector with a queue and a backlog of the sizes that are set.
def isFeasible (settings : Settings) : Bool :=
  Inbox.canHold settings.queueCapacity && Backlog.canHold settings.summaryBacklog

def create (settings : Settings) (engine : EngineSettings) (sinks : List Sink) : Collector where
  scope  := settings.scope
  engine := .create engine
  outlet :=
    { Outlet.create settings.summaryBacklog settings.sinkTimeout sinks with running := true }

-- Takes up what comes out of the engine.
def absorb (c : Collector) (effects : List Effect) : Collector :=
  { c with
    outlet := (effects.filterMap Effect.summary?).foldl Outlet.publish c.outlet,
    answers := effects.filterMap Effect.answer? ++ c.answers }

def runEngine (c : Collector) : Collector :=
  let (effects, engine) := c.engine.work c.now c.spell
  { c.absorb effects with engine, spell := c.spell + 1 }

def runOutlet (c : Collector) : Collector :=
  let backlog := if c.engine.phase.isOver then c.outlet.backlog.close else c.outlet.backlog
  { c with
    outlet := { c.outlet with now := c.now.instant, spell := c.spell, backlog }.settle,
    spell := c.spell + 1 }

-- Lets the engine and the dispatcher work by turns as long as the engine gets on.
def alternate (c : Collector) : Collector :=
  let next := c.runEngine.runOutlet
  if _h : next.engine.workload next.now.instant < c.engine.workload c.now.instant
  then next.alternate else next
termination_by c.engine.workload c.now.instant

-- Whether an alarm of the dispatcher goes off before those of the engine.
def outletComesFirst (c : Collector) : Bool :=
  (Alarm.first? c.outlet.alarms).any fun a => (Alarm.first? c.engine.alarms).any a.precedes

def settle (c : Collector) : Collector :=
  (if c.outletComesFirst then c.runOutlet else c).alternate

def timed : Timed Collector where
  arrive i c := { c with now := c.now.movedTo i }.settle
  alarms c := c.engine.alarms ++ c.outlet.alarms

def start (c : Collector) : Collector :=
  { c with engine := c.engine.start c.now.instant }.settle

def sleep (c : Collector) (milliseconds : Nat) : Collector :=
  timed.sleep c.now.instant milliseconds c

-- The clocks move at once, so that what should have happened in between happens late.
def jump (c : Collector) (milliseconds : Nat) : Collector :=
  timed.arrive (c.now.instant.after (.ofMilliseconds milliseconds)) c

-- Hands in an observation. Where the sender would have to wait, the engine gets the time to make
-- room, and if it does not, the sender gives up.
def hand (c : Collector) (m : Metric) : Engine.Admission × Collector :=
  match c.engine.submit m with
  | (.waiting, engine) =>
    let c := { c with engine }.settle
    if c.engine.inbox.waiting.isEmpty then (.queued, c)
    else (.waiting, { c with engine := { c.engine with inbox := c.engine.inbox.abandon } })
  | (admission, engine) => (admission, { c with engine })

def submit (c : Collector) (m : Metric) : Engine.Admission × Collector :=
  let (admission, c) := c.hand m
  (admission, c.settle)

-- The records of a packet, one after the other.
def handRecords (c : Collector) :
    List (Except RecordError Metric) → List (Except RecordError Engine.Admission) × Collector
  | []             => ([], c)
  | .error e :: rs =>
    let (results, c) := handRecords { c with engine := c.engine.countInvalid } rs
    (.error e :: results, c)
  | .ok m :: rs    =>
    let (admission, c) := c.hand m
    let (results, c) := handRecords c rs
    (.ok admission :: results, c)

-- Submits the records of a packet, and tells what becomes of each.
def receive (c : Collector) (packet : List UInt8) :
    List (Except RecordError Engine.Admission) × Collector :=
  let (results, c) := c.handRecords (Packet.parse c.scope packet)
  (results, c.settle)

-- Takes a snapshot, which waits its turn like any command.
def snapshot (c : Collector) (v : View) : Except EngineError Snapshot × Collector :=
  match c.engine.send (.snapshot v c.tickets) with
  | (.refused e, _) => (.error e, c)
  | (_, engine)     =>
    let asked := { c with engine, tickets := c.tickets + 1 }.settle
    match asked.answers.lookup c.tickets with
    | some s => (.ok s, asked)
    | none   => (.error .stopped, asked)

def stats (c : Collector) : Stats where
  toEngineCounts   := c.engine.counts
  deliveryFailures := c.outlet.dispatcher.failures
  droppedSummaries := c.outlet.dispatcher.missed

-- Lets time pass until the sinks are closed.
def waitForEnd (c : Collector) : Collector :=
  let c := c.settle
  timed.waitFor (·.outlet.hasEnded) c.outlet.alarmLimit c

-- Ends an engine that never started, and leaves others to end on their own.
def endEngine (c : Collector) (engine : Engine) : Collector :=
  match engine.phase with
  | .created => { c with engine := engine.discard }
  | _        => { c with engine }

-- Asks the engine to stop, and waits for everything to end.
def shutdown (c : Collector) : Collector :=
  (c.endEngine { c.engine with stopping := true }).waitForEnd

-- Leaves the engine without anybody to send it a command, and waits for everything to end.
def leave (c : Collector) : Collector :=
  let inbox := { c.engine.inbox with deserted := true }
  (c.endEngine { c.engine with inbox }).waitForEnd

end Collector
end MetricCollector
