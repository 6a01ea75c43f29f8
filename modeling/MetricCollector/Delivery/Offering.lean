import MetricCollector.Delivery.Sink
import MetricCollector.Time.Alarm

namespace MetricCollector

-- A summary is offered to all sinks at once. The offering is over when every sink has answered, or
-- the time is up for it.
structure Offering where
  summary : Summary
  since   : Instant
  -- The spell of work in which the summary was offered.
  spell   : Nat
  -- One offer for every sink, in their order.
  offers  : List Offer

namespace Offering

def start (summary : Summary) (since : Instant) (spell : Nat) (sinks : List Sink) :
    Offering × List Sink :=
  let (offers, sinks) := (sinks.map (·.offer summary)).unzip
  (⟨summary, since, spell, offers⟩, sinks)

def poll (o : Offering) (limit : Span) (now : Instant) (sinks : List Sink) :
    Offering × List Sink :=
  let elapsed := now.since o.since
  let (offers, sinks) := (List.zipWith (Sink.poll o.summary limit elapsed) o.offers sinks).unzip
  ({ o with offers }, sinks)

def isPending (o : Offering) : Bool :=
  o.offers.any Offer.isPending

def failures (o : Offering) : Nat :=
  o.offers.countP Offer.hasFailed

-- When the offers that are pending will be settled.
def alarms (o : Offering) (limit : Span) : List Alarm :=
  (o.offers.filterMap (·.duration? limit)).map fun d => ⟨o.since.after d, o.spell⟩

end Offering
end MetricCollector
