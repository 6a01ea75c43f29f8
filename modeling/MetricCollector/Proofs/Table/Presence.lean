import MetricCollector.Proofs.Table.Isolation
import MetricCollector.Proofs.Table.Keys

namespace MetricCollector

-- A report that does not mention a series.
structure Summary.Omits (s : Summary) (k : Series) : Prop where
  counter : s.counters.find? k = none
  gauge   : s.gauges.find? k = none
  timer   : s.timers.find? k = none
  set     : s.sets.find? k = none

-- A snapshot that does not mention a series.
structure Snapshot.Omits (s : Snapshot) (k : Series) : Prop where
  counter : s.counters.find? k = none
  gauge   : s.gauges.find? k = none
  timer   : s.timers.find? k = none
  set     : s.sets.find? k = none

namespace Table

-- The table holds something of a series as a metric of this kind.
def Has (t : Table) (k : Series) : Kind → Prop
  | .counter => t.counters.find? k ≠ none
  | .gauge   => t.gauges.find? k ≠ none
  | .timer   => t.timers.find? k ≠ none
  | .set     => t.sets.find? k ≠ none

-- The table holds nothing of a series, and so there is nothing to report and nothing to show of it.
structure Lacks (t : Table) (k : Series) : Prop where
  row    : t.row k = .absent
  report : ∀ thresholds timestamp interval, (t.flush thresholds timestamp interval).1.Omits k
  view   : ∀ v takenAt, (t.snapshot v takenAt).Omits k

theorem lacks_of_row {t : Table} {k : Series} (h : t.row k = .absent) : t.Lacks k := by
  have counter : t.counters.find? k = none := congrArg Row.counter? h
  have gauge : t.gauges.find? k = none := congrArg Row.gauge? h
  have timer : t.timers.find? k = none := congrArg Row.timer? h
  have set : t.sets.find? k = none := congrArg Row.set? h
  refine ⟨h, fun thresholds timestamp interval => ?report, fun v takenAt => ?view⟩
  case report =>
    refine ⟨?_, gauge, ?_, ?_⟩
    · simp only [flush, summary, OrderedMap.find?_map, counter, Option.map_none]
    · simp only [flush, summary, OrderedMap.find?_filterMap, timer, Option.bind_none]
    · simp only [flush, summary, OrderedMap.find?_map, set, Option.map_none]
  case view =>
    constructor <;>
      simp only [snapshot, find?_select, counter, gauge, timer, set, ite_self]

end Table

namespace Life

variable {k : Series} {log more : List Table.Event} {o : Sighting}

-- A life has nothing in it that the log does not apply.
theorem mem_sightings (h : o ∈ (of k log).sightings) : o ∈ Table.sightings log := by
  induction log using List.reverseRecOn
  case nil => cases h
  case append_singleton log e ih =>
    rw [of_append_singleton] at h
    rw [Table.sightings_append, List.mem_append]
    cases e <;> simp only [undergo] at h
    case observe m now =>
      split at h
      case isFalse => exact .inl (ih h)
      case isTrue applied =>
        rw [sightings_observed, List.mem_append, List.mem_singleton] at h
        refine h.imp ih fun last => ?_
        simp [Table.sightings, Table.Event.sighting?, applied.left, last]
    case flush => exact .inl (ih (sightings_flushed _ ▸ h))
    case expire =>
      split at h
      case isTrue  => cases h
      case isFalse => exact .inl (ih h)
    case snapshot => exact .inl (ih h)

-- Who is not there does not appear without being observed.
theorem sightings_eq_nil_of_append (h : (of k log).sightings = [])
    (unseen : ∀ o ∈ Table.sightings more, o.series ≠ k) : (of k (log ++ more)).sightings = [] := by
  induction more using List.reverseRecOn
  case nil => rwa [List.append_nil]
  case append_singleton more e ih =>
    rw [Table.sightings_append] at unseen
    have ih := ih fun o ho => unseen o (List.mem_append_left _ ho)
    rw [← List.append_assoc, of_append_singleton]
    cases e <;> simp only [undergo]
    case observe m now =>
      have other : ¬ (m.isSound = true ∧ m.series = k) := by
        rintro ⟨sound, same⟩
        refine unseen ⟨m, now⟩ (List.mem_append_right _ ?_) same
        simp [Table.sightings, Table.Event.sighting?, sound]
      rwa [if_neg other]
    case flush => rwa [sightings_flushed]
    case expire =>
      split
      case isTrue  => rfl
      case isFalse => exact ih
    case snapshot => exact ih

end Life

namespace Table

variable {k : Series} {log more : List Event} {o : Sighting}

theorem row_eq_absent (h : (Life.of k log).sightings = []) : (after log).row k = .absent := by
  have ⟨past, recent⟩ := List.append_eq_nil_iff.mp h
  have none : Life.of k log = .none := by
    cases hl : Life.of k log
    simp_all [Life.none]
  rw [row_after_eq_row_life, none]
  rfl

theorem has_of_mem_life (h : o ∈ (Life.of k log).sightings) :
    (after log).Has k o.kind ∧ (after log).lastSeen.find? k ≠ none := by
  have some : Sighting.ofKind o.kind (Life.of k log).sightings ≠ [] :=
    fun none => Sighting.ofKind_eq_nil_iff.mp none o h rfl
  constructor
  case left =>
    cases hk : o.kind <;> rw [hk] at some <;> simp only [Has]
    case counter =>
      rw [find?_counters_after]
      exact mt Life.counter?_eq_none_iff.mp some
    case gauge =>
      rw [find?_gauges_after]
      exact mt Life.gauge?_eq_none_iff.mp some
    case timer =>
      rw [find?_timers_after]
      exact mt Life.gathered?_eq_none_iff.mp some
    case set =>
      rw [find?_sets_after]
      exact mt Life.gathered?_eq_none_iff.mp some
  case right =>
    rw [find?_lastSeen_after]
    exact mt Life.latest?_eq_none_iff.mp (List.ne_nil_of_mem h)

-- Whether an event bears the time, and the interval where it is an expiry.
def Event.IsStamped (now : Instant) (interval : Span) : Event → Prop
  | observe _ time     => time = now
  | expire time span   => time = now ∧ span = interval
  | flush .. | snapshot .. => True

-- What was applied no longer ago than an interval is still there, and all of it if there is no
-- interval.
def Keeps (log : List Event) (interval : Span) (now : Instant) : Prop :=
  ∀ o ∈ sightings log, interval.isZero = true ∨ now ≤ o.time.after interval →
    o ∈ (Life.of o.series log).sightings

variable {interval : Span} {now later : Instant}

theorem Keeps.pass (h : Keeps log interval now) (le : now ≤ later) : Keeps log interval later :=
  fun o ho young => h o ho (young.imp_right (Instant.le_trans le))

theorem Keeps.append_singleton (h : Keeps log interval now) {e : Event}
    (stamped : e.IsStamped now interval) : Keeps (log ++ [e]) interval now := by
  intro o ho young
  rw [sightings_append, List.mem_append] at ho
  rw [Life.of_append_singleton]
  cases e <;> simp only [Life.undergo]
  case observe m time =>
    cases ho
    case inl ho =>
      split
      case isTrue  => exact Life.sightings_observed _ _ ▸ List.mem_append_left _ (h o ho young)
      case isFalse => exact h o ho young
    case inr ho =>
      obtain ⟨sound, rfl⟩ : m.isSound = true ∧ ⟨m, time⟩ = o := by
        simpa [sightings, Event.sighting?] using ho
      rw [if_pos ⟨sound, rfl⟩, Life.sightings_observed]
      exact List.mem_append_right _ (List.mem_singleton_self _)
  case flush =>
    rw [Life.sightings_flushed]
    exact h o (ho.resolve_right (List.not_mem_nil)) young
  case expire time span =>
    obtain ⟨rfl, rfl⟩ := stamped
    have mem := h o (ho.resolve_right (List.not_mem_nil)) young
    have awake : ¬ Row.isIdle (Life.latest? (Life.of o.series log).sightings) time span = true := by
      rw [Row.isIdle, Bool.and_eq_true, Option.any_eq_true]
      rintro ⟨timed, seen, latest, idle⟩
      have timed : span.isZero = false := by simpa using timed
      have seen_late : o.time.nanoseconds ≤ seen.nanoseconds := Life.le_latest? mem latest
      have young : time.nanoseconds ≤ o.time.nanoseconds + span.nanoseconds :=
        young.resolve_left (by simp [timed])
      have idle : span.nanoseconds < (time.nanoseconds - seen.nanoseconds).toNat :=
        of_decide_eq_true idle
      omega
    rwa [if_neg awake]
  case snapshot => exact h o (ho.resolve_right (List.not_mem_nil)) young

theorem Keeps.append (h : Keeps log interval now)
    (stamped : ∀ e ∈ more, e.IsStamped now interval) : Keeps (log ++ more) interval now := by
  induction more using List.reverseRecOn
  case nil => rwa [List.append_nil]
  case append_singleton more e ih =>
    rw [← List.append_assoc]
    have ih := ih fun e he => stamped e (List.mem_append_left _ he)
    exact ih.append_singleton (stamped e (by simp))

end Table
end MetricCollector
