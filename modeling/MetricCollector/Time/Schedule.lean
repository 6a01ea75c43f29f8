import MetricCollector.Time.Alarm

namespace MetricCollector

-- A system that is at rest stays so until one of its alarms goes off.
structure Timed (σ : Type) where
  -- What happens when the clock shows an instant, until the system is at rest.
  arrive : Instant → σ → σ
  -- When something happens that nothing else causes.
  alarms : σ → List Alarm

namespace Timed

variable {σ : Type}

def next? (t : Timed σ) (s : σ) : Option Instant :=
  (Alarm.first? (t.alarms s)).map Alarm.rings

-- Lets time pass until `target`, through at most `limit` alarms.
def sleepThrough (t : Timed σ) (target : Instant) : (limit : Nat) → σ → σ
  | 0,         s => t.arrive target s
  | limit + 1, s =>
    match t.next? s with
    | none      => t.arrive target s
    | some wake =>
      if wake ≤ target then sleepThrough t target limit (t.arrive wake s) else t.arrive target s

-- Lets time pass. What goes off at one instant goes off at once, so that there are no more alarms
-- than nanoseconds.
def sleep (t : Timed σ) (now : Instant) (milliseconds : Nat) (s : σ) : σ :=
  let time := Span.ofMilliseconds milliseconds
  t.sleepThrough (now.after time) time.nanoseconds s

-- Lets time pass until something is done, through at most `limit` alarms.
def waitFor (t : Timed σ) (done : σ → Bool) : (limit : Nat) → σ → σ
  | 0,         s => s
  | limit + 1, s =>
    if done s then s
    else match t.next? s with
      | none      => s
      | some wake => waitFor t done limit (t.arrive wake s)

end Timed
end MetricCollector
