import MetricCollector.Time.Span

namespace MetricCollector

-- How a sink answers.
inductive Response
  | accepts (delay : Span)
  | fails (delay : Span)
  | never
  deriving DecidableEq, Repr

namespace Response

-- After what time the answer comes.
def delay? : Response → Option Span
  | accepts delay => some delay
  | fails delay   => some delay
  | never         => none

def isAcceptance : Response → Bool
  | accepts _ => true
  | _         => false

-- How long an attempt takes that has no more time than this.
def duration (limit : Span) (r : Response) : Span :=
  match r.delay? with
  | some delay => if delay ≤ limit then delay else limit
  | none       => limit

-- Whether an attempt succeeds, where the answer has to come before the time is up or just then.
def succeeds (limit : Span) (r : Response) : Bool :=
  r.isAcceptance && r.delay?.any (· ≤ limit)

-- The answer that is there when one looks for it after some time, if it is there.
def answer? (elapsed : Span) (r : Response) : Option Bool :=
  if r.delay?.any (· ≤ elapsed) then some r.isAcceptance else none

-- What has become of an attempt when one looks at it after some time. An answer that is there
-- counts, even if the time is up as well.
def outcome? (limit elapsed : Span) (r : Response) : Option Bool :=
  (r.answer? elapsed).or (if limit ≤ elapsed then some false else none)

end Response

-- The time is up for a sink.
structure DeliveryTimeout where
  timeout : Span

def DeliveryTimeout.message (e : DeliveryTimeout) : String :=
  "delivery timed out after " ++ e.timeout.text

end MetricCollector
