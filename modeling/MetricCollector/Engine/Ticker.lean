import MetricCollector.Time.Alarm

namespace MetricCollector

-- A ticker falls due once in every period. Of the ticks that were missed only one is made up for: a
-- tick that is taken late puts off the ones after it.
structure Ticker where
  due        : Instant
  period     : Span
  period_pos : 0 < period.nanoseconds
  -- The spell of work in which the alarm for the next tick was set, if it was.
  setIn      : Option Nat := none
  deriving DecidableEq

namespace Ticker

-- A tick that is at most this late leaves the schedule as it is.
def tolerance : Span := .ofMilliseconds 5

def start (now : Instant) (period : Span) (h : 0 < period.nanoseconds) : Ticker :=
  { due := now.after period, period, period_pos := h }

def isReady (t : Ticker) (now : Instant) : Bool :=
  t.due ≤ now

def tick (t : Ticker) (now : Instant) : Ticker :=
  { t with
    due := if now ≤ t.due.after tolerance then t.due.after t.period else now.after t.period,
    setIn := none }

-- Waits for the next tick. The alarm for it is set once.
def await (t : Ticker) (spell : Nat) : Ticker :=
  { t with setIn := t.setIn.or (some spell) }

def alarm? (t : Ticker) : Option Alarm :=
  t.setIn.map (⟨t.due.rounded, ·⟩)

-- How many ticks can be taken at this instant, at the most.
def backlog (t : Ticker) (now : Instant) : Nat :=
  if t.due ≤ now then (now.since t.due).nanoseconds / t.period.nanoseconds + 1 else 0

-- A tick that is taken on time leaves one period less to make up for.
theorem count_sub_period {due now : Int} {period : Nat} (pos : 0 < period)
    (h : due + period ≤ now) :
    (now - (due + period)).toNat / period + 1 = (now - due).toNat / period := by
  have : (now - due).toNat = (now - (due + period)).toNat + period := by omega
  rw [this, Nat.add_div_right _ pos]

theorem due_tick_onTime {t : Ticker} {now : Instant} (h : now ≤ t.due.after tolerance) :
    (t.tick now).due = t.due.after t.period :=
  if_pos h

theorem due_tick_late {t : Ticker} {now : Instant} (h : ¬ now ≤ t.due.after tolerance) :
    (t.tick now).due = now.after t.period :=
  if_neg h

theorem backlog_tick_lt {t : Ticker} {now : Instant} (h : t.isReady now = true) :
    (t.tick now).backlog now < t.backlog now := by
  have ready : t.due ≤ now := of_decide_eq_true h
  have pos := t.period_pos
  rw [backlog, backlog, if_pos ready]
  by_cases onTime : now ≤ t.due.after tolerance
  · rw [due_tick_onTime onTime]
    split
    case _ again => exact count_sub_period pos again ▸ Nat.lt_succ_self _
    case _ => exact Nat.succ_pos _
  · have : ¬ now.after t.period ≤ now := by
      simp only [Instant.le_def, Instant.after]
      omega
    rw [due_tick_late onTime, if_neg this]
    exact Nat.succ_pos _

end Ticker
end MetricCollector
