import MetricCollector.Proofs.Table.Timings

namespace MetricCollector

structure Windows where
  -- The windows that a flush has closed, in order.
  closed  : List (List Sighting) := []
  current : List Sighting := []

namespace Windows

def undergo (w : Windows) (e : Table.Event) : Windows :=
  if e.isFlush then { closed := w.closed ++ [w.current] }
  else { w with current := w.current ++ e.sighting?.toList }

def of (log : List Table.Event) : Windows :=
  log.foldl undergo {}

@[simp]
theorem of_nil : of [] = {} := rfl

@[simp]
theorem of_append_singleton (log : List Table.Event) (e : Table.Event) :
    of (log ++ [e]) = (of log).undergo e := by
  simp [of]

theorem current_undergo {w : Windows} {e : Table.Event} (h : e.isFlush = false) :
    (w.undergo e).current = w.current ++ e.sighting?.toList := by
  simp [undergo, h]

-- The windows of a log make up what it applies, each sighting being part of one window.
theorem flatten_closed_append_current (log : List Table.Event) :
    (of log).closed.flatten ++ (of log).current = Table.sightings log := by
  induction log using List.reverseRecOn
  case nil => rfl
  case append_singleton log e ih =>
    rw [of_append_singleton, Table.sightings_append, ← ih]
    by_cases flush : e.isFlush = true
    case pos =>
      have : e.sighting? = none := by
        cases e
        case flush => rfl
        case observe | expire | snapshot => cases flush
      simp [undergo, flush, Table.sightings, this]
    case neg => cases h : e.sighting? <;> simp [undergo, flush, Table.sightings, h]

theorem length_closed (log : List Table.Event) :
    (of log).closed.length = log.countP Table.Event.isFlush := by
  induction log using List.reverseRecOn
  case nil => rfl
  case append_singleton log e ih =>
    rw [of_append_singleton, List.countP_append, ← ih]
    cases e <;> simp [undergo, Table.Event.isFlush]

end Windows

namespace Table

-- What the table holds of series `k` is what these observations of it accumulate to. Gauges and
-- totals outlive a flush and are left out unless there is an observation.
structure Holds (t : Table) (k : Series) (os : List Sighting) : Prop where
  counter : Sighting.ofKind .counter os ≠ [] →
    ∃ c, t.counters.find? k = some c ∧ c.value = total (Sighting.increments os)
  gauge   : ∀ x, (Sighting.values .gauge os).getLast? = some x → t.gauges.find? k = some x
  timer   : Sighting.ofKind .timer os ≠ [] →
    ∃ x, t.timers.find? k = some x ∧ x.samples.toList = Sighting.values .timer os
  set     : Sighting.ofKind .set os ≠ [] →
    t.sets.find? k = some ((Sighting.values .set os).foldl Members.add .empty)

theorem holds_recent (log : List Event) (k : Series) :
    (after log).Holds k (Life.of k log).recent := by
  have present {kind : Kind} (h : Sighting.ofKind kind (Life.of k log).recent ≠ []) :
      Sighting.ofKind kind (Life.of k log).sightings ≠ [] :=
    mt Life.ofKind_recent_eq_nil h
  refine ⟨fun h => ?counter, fun x h => ?gauge, fun h => ?timer, fun h => ?set⟩
  case counter =>
    rw [find?_counters_after, Life.counter?, if_neg (present h)]
    exact ⟨_, rfl, rfl⟩
  case gauge =>
    rw [find?_gauges_after, Life.gauge?, Life.sightings, Sighting.values_append,
      List.getLast?_append, h]
    rfl
  case timer =>
    have found : (after log).timers.find? k = _ := find?_timers_after
    rw [Life.gathered?, if_neg (present h)] at found
    exact ⟨_, found, (describes_of_find?_timers found).samples⟩
  case set => rw [find?_sets_after, Life.gathered?, if_neg (present h)]

-- No expiry removes a series that was observed in the window of the time.
def Spares (log : List Event) : Prop :=
  ∀ pre now interval post, log = pre ++ .expire now interval :: post →
    ∀ k, (after pre).removes now interval k = true → ∀ o ∈ (Windows.of pre).current, o.series ≠ k

theorem spares_nil : Spares [] := by
  intro pre now interval post h
  simp at h

theorem Spares.of_append {log more : List Event} (h : Spares (log ++ more)) : Spares log := by
  intro pre now interval post hlog
  exact h pre now interval (post ++ more) (by simp [hlog])

theorem Spares.append_singleton {log : List Event} {e : Event} (h : Spares log)
    (last : ∀ now interval, e = .expire now interval → ∀ k,
      (after log).removes now interval k = true → ∀ o ∈ (Windows.of log).current, o.series ≠ k) :
    Spares (log ++ [e]) := by
  intro pre now interval post hlog
  cases post using List.reverseRecOn
  case nil =>
    have ⟨hpre, he⟩ := List.append_inj' hlog rfl
    cases he
    subst hpre
    exact last now interval rfl
  case append_singleton post e' _ =>
    rw [← List.cons_append, ← List.append_assoc] at hlog
    exact h pre now interval post (List.append_inj' hlog rfl).left

theorem Spares.append {log more : List Event} (h : Spares log)
    (kept : ∀ e ∈ more, ∀ now interval, e ≠ .expire now interval) : Spares (log ++ more) := by
  induction more using List.reverseRecOn
  case nil => exact (List.append_nil log).symm ▸ h
  case append_singleton more e ih =>
    rw [← List.append_assoc]
    have ih := ih fun e he => kept e (List.mem_append_left _ he)
    exact ih.append_singleton fun now interval he => absurd he (kept e (by simp) now interval)

theorem recent_eq_filter_current {log : List Event} (h : Spares log) (k : Series) :
    (Life.of k log).recent = (Windows.of log).current.filter (·.series = k) := by
  induction log using List.reverseRecOn
  case nil => rfl
  case append_singleton log e ih =>
    have ih := ih h.of_append
    rw [Life.of_append_singleton, Windows.of_append_singleton]
    cases e <;> simp only [Life.undergo, Windows.undergo, Event.isFlush, Event.sighting?]
    case observe m now =>
      by_cases sound : m.isSound = true <;> by_cases hk : m.series = k <;>
        simp [sound, hk, ih, Sighting.series]
    case flush => rfl
    case expire now interval =>
      have removes := life_expire log k now interval
      rw [Life.of_append_singleton, Life.undergo] at removes
      simp only [removes]
      split
      case isTrue gone =>
        have unseen := h log now interval [] rfl k gone
        have : (Windows.of log).current.filter (·.series = k) = [] := by simpa using unseen
        simp [this, Life.none]
      case isFalse => simpa using ih
    case snapshot => simpa using ih

-- As long as no series is removed too early, the table holds all of the current window.
theorem holds_current {log : List Event} (h : Spares log) (k : Series) :
    (after log).Holds k ((Windows.of log).current.filter (·.series = k)) :=
  recent_eq_filter_current h k ▸ holds_recent log k

end Table
end MetricCollector
