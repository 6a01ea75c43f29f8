import MetricCollector.Proofs.Table.Row

namespace MetricCollector.Table

-- What an event brings to light.
inductive Outcome
  | applied (sound : Bool)
  | reported (s : Summary)
  -- This many series were removed.
  | removed (n : Nat)
  | shown (s : Snapshot)

structure Step where
  before : Table
  event  : Event

namespace Step

def after (s : Step) : Table :=
  s.before.undergo s.event

def outcome (s : Step) : Outcome :=
  match s.event with
  | .observe m now                       => .applied (s.before.apply m now).1
  | .flush thresholds timestamp interval =>
    .reported (s.before.flush thresholds timestamp interval).1
  | .expire now interval                 => .removed (s.before.expire now interval).1
  | .snapshot v takenAt                  => .shown (s.before.snapshot v takenAt)

end Step

-- The steps that a log takes from a table on.
def steps (t : Table) : List Event → List Step
  | []       => []
  | e :: log => ⟨t, e⟩ :: steps (t.undergo e) log

-- The steps that a log takes from the empty table on.
def run (log : List Event) : List Step :=
  steps .empty log

theorem steps_append (t : Table) (log more : List Event) :
    steps t (log ++ more) = steps t log ++ steps (log.foldl undergo t) more := by
  induction log generalizing t
  case nil => rfl
  case cons e log ih => exact congrArg (_ :: ·) (ih _)

@[simp]
theorem run_append_singleton (log : List Event) (e : Event) :
    run (log ++ [e]) = run log ++ [⟨after log, e⟩] :=
  steps_append .empty log [e]

end MetricCollector.Table
