import MetricCollector.Delivery.Attempt
import MetricCollector.Summary

namespace MetricCollector

-- What happens to a sink.
inductive SinkEvent
  | offered (s : Summary)
  | accepted (s : Summary)
  | failed (s : Summary)
  | closed (clean : Bool)

-- Every summary that is offered to a sink is accepted or not, sooner or later. A sink that is
-- closed may have failed to close cleanly.
structure Sink where
  name    : String
  -- How the sink answers each time something is offered to it.
  respond : Nat → Response
  -- How the sink answers when it is to be closed, for which it may take any time.
  leave   : Response := .accepts .zero
  offers  : Nat := 0
  -- The latest event first.
  journal : List SinkEvent := []

-- What has become of an offer to a sink.
inductive Offer
  | pending (r : Response)
  | settled (accepted : Bool)
  deriving DecidableEq, Repr

namespace Offer

def isPending (o : Offer) : Bool :=
  match o with
  | pending _ => true
  | _         => false

def hasFailed (o : Offer) : Bool :=
  o = settled false

-- How long a sink keeps the others waiting.
def duration? (o : Offer) (limit : Span) : Option Span :=
  match o with
  | pending r => some (r.duration limit)
  | _         => none

end Offer

namespace Sink

-- The summaries that the sink has accepted, in the order of time.
def accepted (s : Sink) : List Summary :=
  s.journal.reverse.filterMap fun
    | .accepted summary => some summary
    | _                 => none

def isClosed (s : Sink) : Bool :=
  s.journal.any fun
    | .closed _ => true
    | _         => false

def note (s : Sink) (event : SinkEvent) : Sink :=
  { s with journal := event :: s.journal }

def offer (s : Sink) (summary : Summary) : Offer × Sink :=
  (.pending (s.respond s.offers), { s.note (.offered summary) with offers := s.offers + 1 })

def poll (summary : Summary) (limit elapsed : Span) (o : Offer) (s : Sink) : Offer × Sink :=
  match o with
  | .pending r =>
    match r.outcome? limit elapsed with
    | some accepted =>
      (.settled accepted, s.note (if accepted then .accepted summary else .failed summary))
    | none => (o, s)
  | _ => (o, s)

end Sink

end MetricCollector
