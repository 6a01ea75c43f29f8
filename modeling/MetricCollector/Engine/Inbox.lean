import MetricCollector.Power

namespace MetricCollector

-- The queue in front of the engine has a fixed number of places. Senders that find none free can
-- wait for one, and get the places that become free in the order in which they came. A queue that
-- is closed lets nobody in.
structure Inbox (α : Type) where
  capacity : Nat
  -- First come, first served.
  queued   : List α := []
  -- What the senders that wait for a place are going to send.
  waiting  : List α := []
  closed   : Bool := false
  -- Whether no sender is left.
  deserted : Bool := false

namespace Inbox

variable {α : Type}

def canHold (n : Nat) : Bool :=
  0 < n && n < twoTo 61

def isFull (q : Inbox α) : Bool :=
  q.capacity ≤ q.queued.length

-- Takes a place. There has to be a free one.
def push (q : Inbox α) (a : α) : Inbox α :=
  { q with queued := q.queued ++ [a] }

-- Waits for a place behind the other senders that do.
def enlist (q : Inbox α) (a : α) : Inbox α :=
  { q with waiting := q.waiting ++ [a] }

-- The first in the queue. Its place goes to the sender that has waited longest.
def pop? (q : Inbox α) : Option (α × Inbox α) :=
  match q.queued with
  | []      => none
  | a :: as => some (a, { q with queued := as ++ q.waiting.take 1, waiting := q.waiting.drop 1 })

-- Nobody gets in any more, not even those who wait.
def close (q : Inbox α) : Inbox α :=
  { q with closed := true, waiting := [] }

-- The senders that wait give up.
def abandon (q : Inbox α) : Inbox α :=
  { q with waiting := [] }

-- How many there are in the queue and in front of it.
def size (q : Inbox α) : Nat :=
  q.queued.length + q.waiting.length

theorem size_pop?_lt {q q' : Inbox α} {a : α} (h : q.pop? = some (a, q')) : q'.size < q.size := by
  unfold pop? at h
  split at h
  · cases h
  · case _ hq =>
    cases h
    simp only [size, hq, List.length_append, List.length_take, List.length_drop, List.length_cons]
    omega

end Inbox
end MetricCollector
