import MetricCollector.Proofs.Metric.Order
import MetricCollector.Proofs.Table.Arrival
import MetricCollector.Proofs.Table.Legible

namespace MetricCollector

-- What is known of a series of one kind.
inductive State
  | counter (c : Counter)
  | gauge (x : Float)
  | timer (t : Timer)
  | set (s : Members)

-- The series of one kind, in order, each with its state.
def Snapshot.states (s : Snapshot) : Kind → OrderedMap Series State
  | .counter => s.counters.map .counter
  | .gauge   => s.gauges.map .gauge
  | .timer   => s.timers.map .timer
  | .set     => s.sets.map .set

theorem Snapshot.keys_states (s : Snapshot) (kind : Kind) : (s.states kind).keys = s.series kind := by
  cases kind <;> exact OrderedMap.keys_map _ _

namespace View

-- Whether a series of this kind is asked for.
def Shows (v : View) (kind : Kind) (k : Series) : Prop :=
  (∀ kind' ∈ v.kind?, kind' = kind) ∧ ∀ start ∈ v.start?, start.toList <+: k.name.toList

instance (v : View) (kind : Kind) (k : Series) : Decidable (v.Shows kind k) :=
  inferInstanceAs (Decidable (_ ∧ _))

variable {v : View} {kind : Kind} {k : Series}

theorem shows_iff : v.Shows kind k ↔ v.showsKind kind = true ∧ v.showsSeries k = true := by
  simp [Shows, showsKind, showsSeries, Option.all_eq_true]

theorem entries_select {α : Type} (m : OrderedMap Series α) :
    (v.select kind m).entries = m.entries.filter fun e => v.Shows kind e.1 := by
  rw [select]
  split
  case isTrue shown =>
    exact List.filter_congr fun e _ => by simp [shows_iff, shown]
  case isFalse hidden =>
    exact (List.filter_eq_nil_iff.mpr fun e _ => by simp [shows_iff, hidden]).symm

-- What a view leaves of a map of one kind. Every series that is asked for is found with the value
-- that the map has for it, no other series is found, and the order is the same.
structure Leaves {α : Type} (v : View) (kind : Kind) (m left : OrderedMap Series α) : Prop where
  found   : ∀ k, left.find? k = if v.Shows kind k then m.find? k else none
  entries : left.entries = m.entries.filter fun e => v.Shows kind e.1

theorem leaves_select {α : Type} (v : View) (kind : Kind) (m : OrderedMap Series α) :
    v.Leaves kind m (v.select kind m) where
  found k := by simp only [Table.find?_select, shows_iff]
  entries := entries_select m

end View

-- A copy of what is asked for of a table, as it stands.
structure Snapshot.IsCopy (s : Snapshot) (t : Table) (v : View) (takenAt : Timestamp) : Prop where
  takenAt  : s.takenAt = takenAt
  counters : v.Leaves .counter t.counters s.counters
  gauges   : v.Leaves .gauge t.gauges s.gauges
  timers   : v.Leaves .timer t.timers s.timers
  sets     : v.Leaves .set t.sets s.sets

namespace Table

theorem isCopy_snapshot (t : Table) (v : View) (takenAt : Timestamp) :
    (t.snapshot v takenAt).IsCopy t v takenAt where
  takenAt  := rfl
  counters := v.leaves_select .counter t.counters
  gauges   := v.leaves_select .gauge t.gauges
  timers   := v.leaves_select .timer t.timers
  sets     := v.leaves_select .set t.sets

theorem states_snapshot (t : Table) (v : View) (takenAt : Timestamp) (kind : Kind) :
    ((t.snapshot v takenAt).states kind).entries =
      ((t.snapshot .whole takenAt).states kind).entries.filter fun e => v.Shows kind e.1 := by
  have select {α : Type} (f : α → State) (m : OrderedMap Series α) :
      ((v.select kind m).map f).entries =
        ((View.whole.select kind m).map f).entries.filter fun e => v.Shows kind e.1 := by
    rw [select_whole]
    simp only [OrderedMap.map, View.entries_select, List.filter_map]
    rfl
  cases kind <;> exact select _ _

end Table
end MetricCollector
