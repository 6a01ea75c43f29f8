import MetricCollector.Time.Span

namespace MetricCollector

-- A moment of a clock that never runs backwards and that tells nothing about the time of day, in
-- nanoseconds since its origin.
structure Instant where
  nanoseconds : Int
  deriving DecidableEq, Repr

namespace Instant

instance : LE Instant := ⟨fun a b => a.nanoseconds ≤ b.nanoseconds⟩

instance : LT Instant := ⟨fun a b => a.nanoseconds < b.nanoseconds⟩

instance (a b : Instant) : Decidable (a ≤ b) :=
  inferInstanceAs (Decidable (a.nanoseconds ≤ b.nanoseconds))

instance (a b : Instant) : Decidable (a < b) :=
  inferInstanceAs (Decidable (a.nanoseconds < b.nanoseconds))

theorem le_def {a b : Instant} : a ≤ b ↔ a.nanoseconds ≤ b.nanoseconds := .rfl

theorem lt_def {a b : Instant} : a < b ↔ a.nanoseconds < b.nanoseconds := .rfl

theorem le_trans {a b c : Instant} (h : a ≤ b) (h' : b ≤ c) : a ≤ c :=
  Int.le_trans h h'

theorem le_antisymm {a b : Instant} (h : a ≤ b) (h' : b ≤ a) : a = b := by
  cases a; cases b
  exact congrArg _ (Int.le_antisymm h h')

-- The later of two instants.
def later (a b : Instant) : Instant :=
  if a < b then b else a

-- The time from `b` to `a`, or none at all if `b` is the later one.
def since (a b : Instant) : Span :=
  ⟨(a.nanoseconds - b.nanoseconds).toNat⟩

def after (a : Instant) (s : Span) : Instant :=
  ⟨a.nanoseconds + s.nanoseconds⟩

-- Whether a clock can show an instant. It counts seconds in 63 bits.
def canBeShown (t : Instant) : Bool :=
  t.nanoseconds < twoTo 63 * Span.nanosPerSecond

-- The first whole millisecond that is not before an instant.
def rounded (t : Instant) : Instant :=
  ⟨-((-t.nanoseconds) / Span.nanosPerMillisecond) * Span.nanosPerMillisecond⟩

-- How long a timer takes that is set at `now` for some time. Timers are kept in whole milliseconds
-- and do not go off too early.
def kept (now : Instant) (s : Span) : Span :=
  (now.after s).rounded.since now

theorem le_later_left (a b : Instant) : a ≤ a.later b := by
  unfold later
  split
  case isTrue h => exact Int.le_of_lt h
  case isFalse  => exact Int.le_refl _

theorem le_later_right (a b : Instant) : b ≤ a.later b := by
  unfold later
  split
  case isTrue    => exact Int.le_refl _
  case isFalse h => exact Int.not_lt.mp h

theorem le_since_of_after_le {a b : Instant} {s : Span} (h : a.after s ≤ b) : s ≤ b.since a := by
  have h : a.nanoseconds + s.nanoseconds ≤ b.nanoseconds := h
  show s.nanoseconds ≤ (b.nanoseconds - a.nanoseconds).toNat
  omega

end Instant

end MetricCollector
