import MetricCollector.Proofs.Collection.KeySet
import MetricCollector.Proofs.Table.Life

namespace MetricCollector

namespace Sighting

theorem eq_nil_iff_ofKind {os : List Sighting} : os = [] ↔ ∀ k, ofKind k os = [] where
  mp h  := fun k => by rw [h]; rfl
  mpr h := List.eq_nil_iff_forall_not_mem.mpr fun o ho =>
    ofKind_eq_nil_iff.mp (h o.kind) o ho rfl

end Sighting

namespace Life

variable {os more : List Sighting} {seen later : Instant} {l : Life} {k : Series}

theorem exists_time_eq_of_latest? (h : latest? os = some seen) : ∃ o ∈ os, o.time = seen := by
  induction os using List.reverseRecOn generalizing seen
  case nil => cases h
  case append_singleton os o ih =>
    rw [latest?_append_singleton, Option.some.injEq, Instant.later] at h
    split at h
    case isTrue => exact ⟨o, by simp, h⟩
    case isFalse =>
      cases hl : latest? os
      case none =>
        rw [hl, Option.getD_none] at h
        exact ⟨o, by simp, h⟩
      case some seen' =>
        rw [hl, Option.getD_some] at h
        obtain ⟨o', mem, time⟩ := ih hl
        exact ⟨o', List.mem_append_left _ mem, time.trans h⟩

-- The latest instant is the maximum.
theorem latest?_eq_some_iff :
    latest? os = some seen ↔ (∃ o ∈ os, o.time = seen) ∧ ∀ o ∈ os, o.time ≤ seen where
  mp h := ⟨exists_time_eq_of_latest? h, fun _ ho => le_latest? ho h⟩
  mpr := by
    rintro ⟨⟨o, mem, rfl⟩, bound⟩
    cases hl : latest? os
    case none =>
      rw [latest?_eq_none_iff] at hl
      simp [hl] at mem
    case some latest =>
      obtain ⟨o', mem', rfl⟩ := exists_time_eq_of_latest? hl
      exact congrArg some (Instant.le_antisymm (bound o' mem') (le_latest? mem hl))

theorem latest?_mono (part : os <+: more) (h : latest? os = some seen)
    (h' : latest? more = some later) : seen ≤ later := by
  obtain ⟨o, mem, rfl⟩ := exists_time_eq_of_latest? h
  exact le_latest? (part.subset mem) h'

theorem counter?_eq_none_iff : l.counter? = .none ↔ Sighting.ofKind .counter l.sightings = [] := by
  rw [counter?]
  split <;> simp_all

theorem gauge?_eq_none_iff : l.gauge? = .none ↔ Sighting.ofKind .gauge l.sightings = [] := by
  rw [gauge?, List.getLast?_eq_none_iff, Sighting.values_eq_nil_iff]

theorem gathered?_eq_none_iff {α : Type} {kind : Kind} {add : α → Float → α} {empty : α} :
    l.gathered? kind add empty = .none ↔ Sighting.ofKind kind l.sightings = [] := by
  rw [gathered?]
  split <;> simp_all

-- Unless it ends, a life only grows.
theorem sightings_undergo (l : Life) (k : Series) (e : Table.Event) :
    (l.undergo k e).sightings = [] ∨ l.sightings <+: (l.undergo k e).sightings := by
  cases e <;> simp only [undergo]
  case observe m now =>
    split
    case isTrue  => exact .inr (sightings_observed l _ ▸ List.prefix_append ..)
    case isFalse => exact .inr (List.prefix_refl _)
  case flush => exact .inr (sightings_flushed l ▸ List.prefix_refl _)
  case expire now interval =>
    split
    case isTrue  => exact .inl rfl
    case isFalse => exact .inr (List.prefix_refl _)
  case snapshot => exact .inr (List.prefix_refl _)

end Life

namespace Table

-- The series of which a table holds something, as whatever kind.
def held (t : Table) : Finset Series :=
  t.counters.keySet ∪ t.gauges.keySet ∪ t.timers.keySet ∪ t.sets.keySet

variable {log more : List Event} {k : Series} {seen later : Instant}

theorem keySet_lastSeen_after (log : List Event) :
    (after log).lastSeen.keySet = (after log).held := by
  ext k
  have kinds : (Life.of k log).sightings = [] ↔
      Sighting.ofKind .counter (Life.of k log).sightings = [] ∧
      Sighting.ofKind .gauge (Life.of k log).sightings = [] ∧
      Sighting.ofKind .timer (Life.of k log).sightings = [] ∧
      Sighting.ofKind .set (Life.of k log).sightings = [] := by
    rw [Sighting.eq_nil_iff_ofKind]
    exact ⟨fun h => ⟨h _, h _, h _, h _⟩, fun ⟨hc, hg, ht, hs⟩ kind => by cases kind <;> assumption⟩
  simp only [held, Finset.mem_union, OrderedMap.mem_keySet_iff, find?_lastSeen_after,
    find?_counters_after, find?_gauges_after, find?_timers_after, find?_sets_after, ne_eq,
    Life.latest?_eq_none_iff, Life.counter?_eq_none_iff, Life.gauge?_eq_none_iff,
    Life.gathered?_eq_none_iff, kinds]
  tauto

theorem size_after (log : List Event) : (after log).size = (after log).held.card := by
  rw [size, OrderedMap.size_eq_card_keySet, keySet_lastSeen_after]

theorem lastSeen_le_of_undergo {e : Event} (h : (after log).lastSeen.find? k = some seen)
    (h' : (after (log ++ [e])).lastSeen.find? k = some later) : seen ≤ later := by
  rw [find?_lastSeen_after] at h h'
  rw [Life.of_append_singleton] at h'
  cases Life.sightings_undergo (Life.of k log) k e
  case inl gone => simp [gone, Life.latest?] at h'
  case inr grows => exact Life.latest?_mono grows h h'

-- As long as the table knows the series all the time.
theorem lastSeen_le_of_known
    (known : ∀ pre, pre <+: more → k ∈ (after (log ++ pre)).lastSeen.keySet)
    (h : (after log).lastSeen.find? k = some seen)
    (h' : (after (log ++ more)).lastSeen.find? k = some later) : seen ≤ later := by
  induction more using List.reverseRecOn generalizing later
  case nil =>
    rw [List.append_nil, h, Option.some.injEq] at h'
    exact h' ▸ Int.le_refl _
  case append_singleton more e ih =>
    have between := OrderedMap.mem_keySet_iff.mp (known more (List.prefix_append ..))
    obtain ⟨mid, hmid⟩ := Option.ne_none_iff_exists'.mp between
    have first := ih (fun pre part => known pre (part.trans (List.prefix_append ..))) hmid
    rw [← List.append_assoc] at h'
    exact Instant.le_trans first (lastSeen_le_of_undergo hmid h')

-- The first part is about all keys. The second says what the life of a series is in terms of what
-- the table does, and the third that the series was last seen at the latest time in it.
theorem last_seen_keeps_the_keys (log : List Event) (k : Series) :
    let t := after log
    let life := Life.of k log
    (t.lastSeen.keySet = t.held ∧ t.size = t.held.card) ∧
    ((∀ m now, Life.of k (log ++ [.observe m now]) =
        if (t.apply m now).1 = true ∧ m.series = k then life.observed ⟨m, now⟩ else life) ∧
      (∀ now idle, Life.of k (log ++ [.expire now idle]) =
        if t.removes now idle k then .none else life) ∧
      (∀ thresholds timestamp interval,
        (Life.of k (log ++ [.flush thresholds timestamp interval])).sightings = life.sightings) ∧
      (∀ v takenAt, Life.of k (log ++ [.snapshot v takenAt]) = life)) ∧
    (∀ seen, t.lastSeen.find? k = some seen ↔
      (∃ o ∈ life.sightings, o.time = seen) ∧ ∀ o ∈ life.sightings, o.time ≤ seen) ∧
    (∀ more seen later, (∀ pre, pre <+: more → k ∈ (after (log ++ pre)).lastSeen.keySet) →
      t.lastSeen.find? k = some seen → (after (log ++ more)).lastSeen.find? k = some later →
        seen ≤ later) ∧
    (∀ m now, (t.apply m now).1 = false → (t.apply m now).2 = t) := by
  intro t life
  refine ⟨⟨keySet_lastSeen_after log, size_after log⟩,
    ⟨life_observe log k, life_expire log k, ?flush, ?snapshot⟩, ?maximum, ?forwards, ?rejected⟩
  case flush =>
    intro thresholds timestamp interval
    rw [Life.of_append_singleton]
    exact Life.sightings_flushed life
  case snapshot =>
    intro v takenAt
    rw [Life.of_append_singleton]
    rfl
  case maximum =>
    intro seen
    rw [find?_lastSeen_after]
    exact Life.latest?_eq_some_iff
  case forwards => exact fun _ _ _ => lastSeen_le_of_known
  case rejected =>
    intro m now unsound
    rw [apply_fst] at unsound
    simp [apply, unsound]

end Table
end MetricCollector
