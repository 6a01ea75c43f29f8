import MetricCollector.Delivery.Dispatcher
import MetricCollector.Time.Schedule

namespace MetricCollector

-- Summaries leave through a backlog and a dispatcher, or one at a time past the backlog. Time
-- passes while sinks are busy.
structure Outlet where
  now        : Instant := ⟨0⟩
  -- The number of the present spell of work.
  spell      : Nat := 0
  backlog    : Backlog Summary
  dispatcher : Dispatcher
  -- Whether the dispatcher takes summaries from the backlog.
  running    : Bool := false
  -- A summary that is delivered past the backlog.
  aside      : Option Offering := none

namespace Outlet

def create (room : Nat) (timeout : Span) (sinks : List Sink) : Outlet where
  backlog    := .withRoom room
  dispatcher := { timeout, sinks }

-- Looks at what is delivered past the backlog.
def settleAside (o : Outlet) : Outlet :=
  match o.aside with
  | none          => o
  | some offering =>
    let (offering, dispatcher) := o.dispatcher.poll offering o.now
    { o with dispatcher, aside := some offering }

-- Lets everything happen that can happen now. What goes past the backlog comes first.
def settle (o : Outlet) : Outlet :=
  let o := o.settleAside
  if o.running then
    let (dispatcher, backlog) := o.dispatcher.settle o.backlog o.now o.spell
    { o with dispatcher, backlog }
  else o

def start (o : Outlet) : Outlet :=
  { o with running := true }.settle

def publish (o : Outlet) (s : Summary) : Outlet :=
  { o with backlog := o.backlog.publish s }

-- When the offers that are pending will be settled.
def alarms (o : Outlet) : List Alarm :=
  o.aside.toList.flatMap (fun offering => offering.alarms (o.dispatcher.limit offering.since))
    ++ o.dispatcher.alarms

def timed : Timed Outlet where
  arrive now o := { o with now }.settle
  alarms := alarms

def sleep (o : Outlet) (milliseconds : Nat) : Outlet :=
  timed.sleep o.now milliseconds o

def hasEnded (o : Outlet) : Bool :=
  match o.dispatcher.phase with
  | .ended => true
  | _      => false

def isDeliveringAside (o : Outlet) : Bool :=
  o.aside.any Offering.isPending

-- Every sink causes at most one alarm for every summary, and one when it is closed.
def alarmLimit (o : Outlet) : Nat :=
  (o.backlog.pending.length + 2) * o.dispatcher.sinks.length + 1

-- Delivers one summary past the backlog, and tells how many sinks failed to accept it.
def dispatch (o : Outlet) (s : Summary) : Nat × Outlet :=
  let (offering, dispatcher) := o.dispatcher.offer s o.now o.spell
  let offered := { o with dispatcher, aside := some offering }.settle
  -- Every sink causes at most one alarm.
  let delivered := timed.waitFor (!·.isDeliveringAside) o.dispatcher.sinks.length offered
  match delivered.aside with
  | none          => (0, delivered)
  | some offering =>
    (offering.failures,
     { delivered with dispatcher := delivered.dispatcher.count offering, aside := none })

-- Nothing more will come. Waits for a dispatcher that runs to end.
def close (o : Outlet) : Outlet :=
  let o := { o with backlog := o.backlog.close }.settle
  if o.running then timed.waitFor hasEnded o.alarmLimit o else o

end Outlet
end MetricCollector
