import MetricCollector.Power

namespace MetricCollector

-- Summaries wait for the sinks in a backlog of limited size. When it is full, the oldest one makes
-- room for the newest, and whoever takes from the backlog is told first how many were lost.
structure Backlog (α : Type) where
  capacity : Nat
  -- Oldest first.
  pending  : List α := []
  -- How many were lost that nobody has been told about.
  missed   : Nat := 0
  -- Whether nothing more will come.
  closed   : Bool := false

namespace Backlog

variable {α : Type}

def canHold (n : Nat) : Bool :=
  0 < n && n ≤ twoTo 55

-- A backlog with room for at least `n`. Its size is a power of two.
def withRoom (n : Nat) : Backlog α where
  capacity := n.nextPowerOfTwo

def publish (b : Backlog α) (a : α) : Backlog α :=
  if b.pending.length < b.capacity then { b with pending := b.pending ++ [a] }
  else { b with pending := b.pending.drop 1 ++ [a], missed := b.missed + 1 }

def close (b : Backlog α) : Backlog α :=
  { b with closed := true }

-- What one finds in a backlog.
inductive Taken (α : Type)
  -- This many were lost.
  | lost (n : Nat)
  | item (a : α)
  -- Nothing yet.
  | empty
  -- Nothing any more.
  | closed

-- Takes the oldest, unless there are losses to report.
def take (b : Backlog α) : Taken α × Backlog α :=
  if b.missed ≠ 0 then (.lost b.missed, { b with missed := 0 })
  else match b.pending with
    | a :: as => (.item a, { b with pending := as })
    | []      => (if b.closed then .closed else .empty, b)

end Backlog
end MetricCollector
