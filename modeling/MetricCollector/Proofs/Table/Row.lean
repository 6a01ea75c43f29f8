import MetricCollector.Collection.OrderedMap.Lemmas
import MetricCollector.Proofs.Table.Log

namespace MetricCollector

structure Row where
  counter?  : Option Counter := none
  gauge?    : Option Float := none
  timer?    : Option Timer := none
  set?      : Option Members := none
  lastSeen? : Option Instant := none

namespace Row

-- The row of a series that the table does not know.
def absent : Row := {}

def accumulate (r : Row) (m : Metric) : Row :=
  match m.kind with
  | .counter => { r with counter? := some ((r.counter?.getD {}).add m.value m.sampleRate) }
  | .gauge   => { r with gauge? := some m.value }
  | .timer   => { r with timer? := some ((r.timer?.getD .empty).add m.value) }
  | .set     => { r with set? := some (Members.add (r.set?.getD .empty) m.value) }

def see (r : Row) (now : Instant) : Row :=
  { r with lastSeen? := some ((r.lastSeen?.getD now).later now) }

def flushed (r : Row) : Row :=
  { r with
    counter? := r.counter?.map Counter.flushed
    timer?   := r.timer?.map fun _ => .empty
    set?     := r.set?.map fun _ => .empty }

-- Whether a series last seen at that time, if ever, has been idle for longer than an interval. No
-- interval at all means that idling does not matter.
def isIdle (lastSeen? : Option Instant) (now : Instant) (interval : Span) : Bool :=
  !interval.isZero && lastSeen?.any fun seen => interval < now.since seen

-- The row of series `k` after an event.
def undergo (k : Series) (r : Row) : Table.Event → Row
  | .observe m now       => if m.isSound ∧ m.series = k then (r.accumulate m).see now else r
  | .flush ..            => r.flushed
  | .expire now interval => if isIdle r.lastSeen? now interval then absent else r
  | .snapshot ..         => r

end Row

namespace Table

variable {t : Table} {k : Series} {m : Metric} {now : Instant} {interval : Span}

def row (t : Table) (k : Series) : Row where
  counter?  := t.counters.find? k
  gauge?    := t.gauges.find? k
  timer?    := t.timers.find? k
  set?      := t.sets.find? k
  lastSeen? := t.lastSeen.find? k

theorem row_accumulate_of_ne (h : k ≠ m.series) : (t.accumulate m).row k = t.row k := by
  unfold accumulate
  split <;> simp [row, OrderedMap.find?_update, OrderedMap.find?_insert, h]

theorem row_accumulate_self : (t.accumulate m).row m.series = (t.row m.series).accumulate m := by
  unfold accumulate Row.accumulate
  cases hk : m.kind <;> simp [row, OrderedMap.find?_update, OrderedMap.find?_insert]

theorem row_see_of_ne {s : Series} (h : k ≠ s) : (t.see s now).row k = t.row k := by
  simp [row, see, OrderedMap.find?_update, h]

theorem row_see_self : (t.see k now).row k = (t.row k).see now := by
  simp [row, see, Row.see, OrderedMap.find?_update]

theorem row_apply :
    (t.apply m now).2.row k =
      if m.isSound ∧ m.series = k then ((t.row k).accumulate m).see now else t.row k := by
  unfold apply
  by_cases sound : m.isSound = true
  case neg => simp [sound]
  case pos =>
    by_cases hk : m.series = k
    case pos =>
      subst hk
      simp [sound, row_see_self, row_accumulate_self]
    case neg =>
      have hk' : k ≠ m.series := fun h => hk h.symm
      simp [sound, hk, row_see_of_ne hk', row_accumulate_of_ne hk']

theorem row_flushed : t.flushed.row k = (t.row k).flushed := by
  simp [row, flushed, Row.flushed, OrderedMap.find?_map]

theorem row_keep (p : Series → Bool) : (t.keep p).row k = if p k then t.row k else .absent := by
  by_cases h : p k = true <;> simp [row, keep, OrderedMap.find?_filter, h, Row.absent]

theorem row_expire :
    (t.expire now interval).2.row k =
      if Row.isIdle (t.row k).lastSeen? now interval then .absent else t.row k := by
  unfold expire
  by_cases zero : interval.isZero = true
  case pos => simp [zero, Row.isIdle]
  case neg =>
    have stale : t.isStale now interval k = Row.isIdle (t.row k).lastSeen? now interval := by
      simp [Row.isIdle, zero, isStale, row]
    simp only [zero, if_false, row_keep, stale, Bool.not_eq_true', Bool.false_eq_true]
    cases Row.isIdle (t.row k).lastSeen? now interval <;> simp

-- Whether an expiry removes a series from the table.
def removes (t : Table) (now : Instant) (interval : Span) (k : Series) : Bool :=
  t.lastSeen.contains k && !(t.expire now interval).2.lastSeen.contains k

theorem find?_lastSeen_expire (t : Table) (now : Instant) (interval : Span) (k : Series) :
    (t.expire now interval).2.lastSeen.find? k =
      if Row.isIdle (t.lastSeen.find? k) now interval then none else t.lastSeen.find? k := by
  have expired : ((t.expire now interval).2.row k).lastSeen? = _ := congrArg _ row_expire
  refine expired.trans ?_
  rw [apply_ite Row.lastSeen?]
  rfl

theorem removes_eq_isIdle (t : Table) (now : Instant) (interval : Span) (k : Series) :
    t.removes now interval k = Row.isIdle (t.lastSeen.find? k) now interval := by
  rw [removes, OrderedMap.contains, OrderedMap.contains, find?_lastSeen_expire]
  cases seen : t.lastSeen.find? k
  case none => simp [Row.isIdle]
  case some => cases Row.isIdle (some _) now interval <;> rfl

theorem row_undergo (t : Table) (e : Event) (k : Series) :
    (t.undergo e).row k = (t.row k).undergo k e := by
  cases e
  case observe m now       => exact row_apply
  case flush               => exact row_flushed
  case expire now interval => exact row_expire
  case snapshot            => rfl

end Table
end MetricCollector
