import MetricCollector.Delivery.Backlog
import MetricCollector.Delivery.Offering

namespace MetricCollector

-- How far the sinks are closed.
structure Closing where
  -- How many sinks are closed.
  count : Nat := 0
  -- Since when the next one has been closing.
  since : Instant
  -- The spell of work in which that began.
  spell : Nat

inductive DispatcherPhase
  | waiting
  | delivering (o : Offering)
  | closing (c : Closing)
  | ended

-- How timers go off.
inductive Timers
  -- At a whole millisecond, as they are kept.
  | whole
  -- Just when their time is over, as they are meant.
  | exact
  deriving DecidableEq, Repr

-- The dispatcher takes one summary after another from the backlog and offers it to all sinks at
-- once. It goes on when the offering is over. When nothing more will come it closes the sinks, one
-- after the other, whether they close cleanly or not.
structure Dispatcher where
  timeout  : Span
  timers   : Timers := .whole
  sinks    : List Sink
  -- Attempts that failed.
  failures : Nat := 0
  -- Summaries that were lost.
  missed   : Nat := 0
  phase    : DispatcherPhase := .waiting

namespace Dispatcher

def offer (d : Dispatcher) (summary : Summary) (now : Instant) (spell : Nat) :
    Offering × Dispatcher :=
  let (offering, sinks) := Offering.start summary now spell d.sinks
  (offering, { d with sinks })

-- How long the sinks have to answer to what they are offered at an instant. Nothing but the end of
-- this time depends on a timer.
def limit (d : Dispatcher) (since : Instant) : Span :=
  match d.timers with
  | .whole => since.kept d.timeout
  | .exact => d.timeout

def poll (d : Dispatcher) (o : Offering) (now : Instant) : Offering × Dispatcher :=
  let (offering, sinks) := o.poll (d.limit o.since) now d.sinks
  (offering, { d with sinks })

def count (d : Dispatcher) (o : Offering) : Dispatcher :=
  { d with failures := d.failures + o.failures }

-- Goes on to the next sink once the one that is closing has answered.
def closeNext? (d : Dispatcher) (c : Closing) (now : Instant) (spell : Nat) : Option Dispatcher :=
  match d.sinks[c.count]? with
  | none      => some { d with phase := .ended }
  | some sink => (sink.leave.answer? (now.since c.since)).map fun clean =>
    { d with
      sinks := d.sinks.set c.count (sink.note (.closed clean)),
      phase := .closing { count := c.count + 1, since := now, spell } }

-- Looks at the offering that is going on, if there is one.
def look (d : Dispatcher) (now : Instant) : Dispatcher :=
  match d.phase with
  | .delivering offering =>
    let (offering, d) := d.poll offering now
    { d with phase := .delivering offering }
  | _ => d

-- One step, if there is something to do.
def step? (d : Dispatcher) (b : Backlog Summary) (now : Instant) (spell : Nat) :
    Option (Dispatcher × Backlog Summary) :=
  match d.phase with
  | .delivering offering =>
    let (offering, d) := d.poll offering now
    if offering.isPending then none else some ({ d.count offering with phase := .waiting }, b)
  | .waiting =>
    match b.take with
    | (.lost n, b)       => some ({ d with missed := d.missed + n }, b)
    | (.item summary, b) =>
      let (offering, d) := d.offer summary now spell
      some ({ d with phase := .delivering offering }, b)
    | (.empty, _)        => none
    | (.closed, b)       => some ({ d with phase := .closing { since := now, spell } }, b)
  | .closing c => (d.closeNext? c now spell).map (·, b)
  | .ended     => none

-- The steps that can be taken without anything new coming.
def workload (d : Dispatcher) (b : Backlog Summary) : Nat :=
  let pending := 2 * b.pending.length + (if b.missed = 0 then 0 else 1) + d.sinks.length
  match d.phase with
  | .delivering _ => pending + 4
  | .waiting      => pending + 3
  | .closing c    => d.sinks.length - c.count + 1
  | .ended        => 0

theorem length_sinks_offer (d : Dispatcher) (summary : Summary) (now : Instant) (spell : Nat) :
    (d.offer summary now spell).2.sinks.length = d.sinks.length := by
  simp [offer, Offering.start]

theorem length_sinks_poll_le (d : Dispatcher) (o : Offering) (now : Instant) :
    (d.poll o now).2.sinks.length ≤ d.sinks.length := by
  simp only [poll, Offering.poll, List.unzip_eq_map, List.length_map, List.length_zipWith]
  exact Nat.min_le_right ..

theorem workload_closeNext?_lt {d d' : Dispatcher} {b : Backlog Summary} {c : Closing}
    {now : Instant} {spell : Nat} (closing : d.phase = .closing c)
    (h : d.closeNext? c now spell = some d') : d'.workload b < d.workload b := by
  unfold closeNext? at h
  split at h
  case h_1 =>
    cases h
    simp only [workload, closing]
    omega
  case h_2 found =>
    obtain ⟨_, _, rfl⟩ := Option.map_eq_some_iff.mp h
    have := (List.getElem?_eq_some_iff.mp found).1
    simp only [workload, closing, List.length_set]
    omega

theorem step?_workload_lt {d d' : Dispatcher} {b b' : Backlog Summary} {now : Instant} {spell : Nat}
    (h : d.step? b now spell = some (d', b')) : d'.workload b' < d.workload b := by
  unfold step? at h
  split at h
  case h_1 offering delivering =>
    have := length_sinks_poll_le d offering now
    dsimp only at h
    split at h
    · cases h
    · cases h
      simp only [workload, count, delivering]
      omega
  case h_2 waiting =>
    simp only [Backlog.take] at h
    by_cases missed : b.missed = 0
    · simp only [missed, ne_eq, not_true_eq_false, if_false] at h
      cases pending : b.pending with
      | nil =>
        simp only [pending] at h
        cases closed : b.closed <;> simp only [closed] at h <;> cases h
        simp only [workload, waiting]
        omega
      | cons a as =>
        simp only [pending] at h
        cases h
        have := length_sinks_offer d a now spell
        simp only [workload, waiting, missed, pending, if_true, List.length_cons]
        omega
    · simp only [missed, ne_eq, not_false_eq_true, if_true] at h
      cases h
      simp only [workload, waiting, missed, if_false, if_true]
      omega
  case h_3 c closing =>
    obtain ⟨_, next, he⟩ := Option.map_eq_some_iff.mp h
    cases he
    exact workload_closeNext?_lt closing next
  case h_4 => cases h

-- Takes steps until there is nothing to do. What is still going on is looked at once more.
def settle (d : Dispatcher) (b : Backlog Summary) (now : Instant) (spell : Nat) :
    Dispatcher × Backlog Summary :=
  match _h : d.step? b now spell with
  | none         => (d.look now, b)
  | some (d, b') => settle d b' now spell
termination_by d.workload b
decreasing_by exact step?_workload_lt _h

-- When the offers of the summary that is being delivered will be settled, or the sink that is
-- closing will have answered.
def alarms (d : Dispatcher) : List Alarm :=
  match d.phase with
  | .delivering offering => offering.alarms (d.limit offering.since)
  | .closing c           =>
    ((d.sinks[c.count]?.bind (·.leave.delay?)).map fun delay =>
      ⟨c.since.after delay, c.spell⟩).toList
  | _                    => []

end Dispatcher
end MetricCollector
