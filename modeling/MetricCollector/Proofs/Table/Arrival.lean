import MetricCollector.Collection.OrderedSet.Lemmas
import MetricCollector.Proofs.Binary.Bits
import MetricCollector.Proofs.Table.Keys
import MetricCollector.Proofs.Table.Timings
import MetricCollector.Proofs.Table.Totals

namespace MetricCollector

open Binary

namespace Binary

-- Numbers of the same rank have the same bits.
theorem eq_of_rankKey {x y : Float} (h : rankKey x = rankKey y) : x = y := by
  have bound : x.toBits.toNat < 2 ^ 64 := x.toBits.toNat_lt
  have bound' : y.toBits.toNat < 2 ^ 64 := y.toBits.toNat_lt
  rw [rankKey, rankKey, magnitudeBits, magnitudeBits, signBit_eq] at h
  refine eq_of_toBits (UInt64.toNat_inj.mp ?_)
  generalize x.toBits.toNat = a at *
  generalize y.toBits.toNat = b at *
  split at h <;> split at h <;> omega

-- There is one way to sort numbers.
theorem mergeSort_eq_of_perm {xs ys : List Float} (h : xs.Perm ys) :
    xs.mergeSort rankedLe = ys.mergeSort rankedLe := by
  have sorted (zs : List Float) : (zs.mergeSort rankedLe).Pairwise fun a b => rankedLe a b = true :=
    List.pairwise_mergeSort rankedLe_trans rankedLe_total zs
  have perm : (xs.mergeSort rankedLe).Perm (ys.mergeSort rankedLe) :=
    (List.mergeSort_perm xs _).trans (h.trans (List.mergeSort_perm ys _).symm)
  refine perm.eq_of_pairwise (fun a b _ _ le ge => ?_) (sorted xs) (sorted ys)
  simp only [rankedLe, decide_eq_true_eq] at le ge
  exact eq_of_rankKey (le_antisymm le ge)

end Binary

-- Being an extreme does not depend on the order.
theorem Extreme.of_perm {r : Float → Float → Prop} {x : Float} {xs ys : List Float} (h : xs.Perm ys)
    (hx : Extreme r x xs) : Extreme r x ys :=
  ⟨h.mem_iff.mp hx.mem, fun y hy => hx.rel y (h.mem_iff.mpr hy)⟩

namespace Sighting

variable {os os' : List Sighting}

theorem ofKind_perm (kind : Kind) (h : os.Perm os') : (ofKind kind os).Perm (ofKind kind os') :=
  h.filter _

theorem values_perm (kind : Kind) (h : os.Perm os') : (values kind os).Perm (values kind os') :=
  (ofKind_perm _ h).map _

theorem increments_perm (h : os.Perm os') : (increments os).Perm (increments os') :=
  (ofKind_perm _ h).map _

end Sighting

namespace Life

variable {k : Series} {log : List Table.Event} {os os' : List Sighting}

theorem latest?_perm (h : os.Perm os') : latest? os = latest? os' := by
  refine Option.ext fun seen => ?_
  rw [latest?_eq_some_iff, latest?_eq_some_iff]
  simp only [h.mem_iff]

end Life

-- Observations that arrive one after the other.
def arriving (os : List Sighting) : List Table.Event :=
  os.map fun o => .observe o.metric o.time

-- Those that are applied, and to this series.
def appliedTo (k : Series) (os : List Sighting) : List Sighting :=
  os.filter fun o => o.metric.isSound && decide (o.series = k)

theorem appliedTo_perm (k : Series) {os os' : List Sighting} (h : os.Perm os') :
    (appliedTo k os).Perm (appliedTo k os') :=
  h.filter _

theorem Life.of_arriving (k : Series) (log : List Table.Event) (os : List Sighting) :
    Life.of k (log ++ arriving os) =
      { Life.of k log with recent := (Life.of k log).recent ++ appliedTo k os } := by
  induction os using List.reverseRecOn
  case nil => simp [arriving, appliedTo]
  case append_singleton os o ih =>
    have last : log ++ arriving (os ++ [o]) =
        log ++ arriving os ++ [.observe o.metric o.time] := by
      simp [arriving]
    have series : o.metric.series = o.series := rfl
    rw [last, of_append_singleton, ih, undergo, series]
    by_cases applied : o.metric.isSound = true ∧ o.series = k
    · simp [applied, observed, appliedTo, List.filter_append]
    · simp only [applied, if_false, appliedTo, List.filter_append]
      simp [applied]

namespace Life

variable {os os' : List Sighting}

theorem recent_perm (k : Series) (log : List Table.Event) (h : os.Perm os') :
    (of k (log ++ arriving os)).recent.Perm (of k (log ++ arriving os')).recent := by
  rw [of_arriving, of_arriving]
  exact (appliedTo_perm k h).append_left _

theorem sightings_perm (k : Series) (log : List Table.Event) (h : os.Perm os') :
    (of k (log ++ arriving os)).sightings.Perm (of k (log ++ arriving os')).sightings := by
  have same : (of k (log ++ arriving os)).past = (of k (log ++ arriving os')).past := by
    rw [of_arriving, of_arriving]
  rw [sightings, sightings, same]
  exact (recent_perm k log h).append_left _

end Life

-- No series is observed twice as this kind.
def OnceEach (kind : Kind) (os : List Sighting) : Prop :=
  ((Sighting.ofKind kind os).map Sighting.series).Nodup

-- A series that is observed once, at most, leaves no choice of order.
theorem ofKind_appliedTo_eq {k : Series} {os os' : List Sighting} {kind : Kind} (h : os.Perm os')
    (once : OnceEach kind os) :
    Sighting.ofKind kind (appliedTo k os) = Sighting.ofKind kind (appliedTo k os') := by
  have perm := Sighting.ofKind_perm kind (appliedTo_perm k h)
  have part : ((Sighting.ofKind kind (appliedTo k os)).map Sighting.series).Nodup :=
    once.sublist ((List.filter_sublist.filter _).map _)
  have alone : ∀ o ∈ Sighting.ofKind kind (appliedTo k os), o.series = k := by
    intro o mem
    have := (List.mem_filter.mp (Sighting.mem_ofKind.mp mem).1).2
    simp only [Bool.and_eq_true, decide_eq_true_eq] at this
    exact this.2
  generalize Sighting.ofKind kind (appliedTo k os) = xs at *
  generalize Sighting.ofKind kind (appliedTo k os') = ys at *
  match xs with
  | []           => exact (List.nil_perm.mp perm).symm
  | [o]          => exact List.singleton_perm.mp perm
  | o :: o' :: _ =>
    have first := alone o (by simp)
    have second := alone o' (by simp)
    simp [first, second] at part

namespace Timer

-- Timers with the same samples, whatever order these arrived in.
structure SameSamples (x y : Timer) : Prop where
  samples : x.samples.toList.Perm y.samples.toList
  count   : x.count = y.count
  min     : (x.min == y.min) = true
  max     : (x.max == y.max) = true

theorem SameSamples.sorted_eq {x y : Timer} (h : x.SameSamples y) : x.sorted = y.sorted :=
  mergeSort_eq_of_perm h.samples

theorem SameSamples.summary? {x y : Timer} (h : x.SameSamples y) (thresholds : List Threshold) :
    (x.summary? thresholds).map (·.percentiles) = (y.summary? thresholds).map (·.percentiles) := by
  rw [Timer.summary?, Timer.summary?, mean?, mean?, h.sorted_eq, h.count]
  split <;> rfl

-- The extremes of finite samples are unique up to the sign of a zero.
theorem sameSamples_foldl_add {xs ys : List Float} (finite : AllFinite xs) (perm : xs.Perm ys) :
    (xs.foldl add empty).SameSamples (ys.foldl add empty) := by
  rcases eq_or_ne xs [] with rfl | some
  · rw [List.nil_perm.mp perm]
    exact ⟨.refl _, rfl, by decide +kernel, by decide +kernel⟩
  · have hx := describes_foldl_add finite
    have hy : Describes (ys.foldl add empty) ys :=
      describes_foldl_add fun y mem => finite y (perm.mem_iff.mpr mem)
    have some' : ys ≠ [] := fun h => some (List.perm_nil.mp (h ▸ perm))
    refine ⟨?_, ?_, ?_, ?_⟩
    · rw [hx.samples, hy.samples]
      exact perm
    · rw [hx.count, hy.count, perm.length_eq]
    · exact Least.beq finite (hx.min some) ((hy.min some').of_perm perm.symm)
    · exact Greatest.beq finite (hx.max some) ((hy.max some').of_perm perm.symm)

end Timer

theorem Members.mem_foldl_add {xs : List Float} {s : Members} {text : String} :
    text ∈ (xs.foldl add s).toList ↔ text ∈ s.toList ∨ ∃ x ∈ xs, plainText x = text := by
  induction xs generalizing s
  case nil => simp
  case cons x xs ih =>
    rw [List.foldl_cons, ih, add, OrderedSet.mem_insert_iff]
    simp only [List.mem_cons, exists_eq_or_imp, eq_comm (a := text), or_comm, or_assoc]

-- What agrees in two tables whose observations arrived in another order. A flush reports the same
-- timers, and the same percentiles of each.
structure Table.Resembles (t t' : Table) : Prop where
  counters    : t.counters.keys = t'.counters.keys
  gauges      : t.gauges.keys = t'.gauges.keys
  timers      : t.timers.keys = t'.timers.keys
  sets        : t.sets = t'.sets
  lastSeen    : t.lastSeen = t'.lastSeen
  samples     : ∀ k x x', t.timers.find? k = some x → t'.timers.find? k = some x' →
    x.SameSamples x'
  percentiles : ∀ thresholds timestamp interval k,
    ((t.flush thresholds timestamp interval).1.timers.find? k).map (·.percentiles) =
      ((t'.flush thresholds timestamp interval).1.timers.find? k).map (·.percentiles)

namespace Table

variable {log : List Event} {os os' : List Sighting} {k : Series}

theorem ofKind_sightings_eq_nil_iff (log : List Event) (k : Series) (kind : Kind)
    (h : os.Perm os') :
    Sighting.ofKind kind (Life.of k (log ++ arriving os)).sightings = [] ↔
      Sighting.ofKind kind (Life.of k (log ++ arriving os')).sightings = [] := by
  have perm := Sighting.ofKind_perm kind (Life.sightings_perm k log h)
  rw [← List.length_eq_zero_iff, perm.length_eq, List.length_eq_zero_iff]

theorem find?_timers_arriving (h : os.Perm os') {x x' : Timer}
    (found : (after (log ++ arriving os)).timers.find? k = some x)
    (found' : (after (log ++ arriving os')).timers.find? k = some x') : x.SameSamples x' := by
  rw [find?_timers_after, Life.gathered?] at found found'
  split at found
  case isTrue => cases found
  case isFalse =>
    split at found'
    case isTrue => cases found'
    case isFalse =>
      cases found
      cases found'
      exact Timer.sameSamples_foldl_add (allFinite_values _ _)
        (Sighting.values_perm .timer (Life.recent_perm k log h))

theorem find?_sets_arriving (h : os.Perm os') (k : Series) :
    (after (log ++ arriving os)).sets.find? k = (after (log ++ arriving os')).sets.find? k := by
  have none := ofKind_sightings_eq_nil_iff log k .set h
  rw [find?_sets_after, find?_sets_after, Life.gathered?, Life.gathered?]
  split
  case isTrue empty => rw [if_pos (none.mp empty)]
  case isFalse some =>
    rw [if_neg (mt none.mpr some)]
    refine congrArg Option.some (OrderedSet.eq_of_mem_iff fun text => ?_)
    have perm := Sighting.values_perm .set (Life.recent_perm k log h)
    simp only [Members.mem_foldl_add, perm.mem_iff]

theorem find?_timers_eq_none_iff (log : List Event) (k : Series) (h : os.Perm os') :
    (after (log ++ arriving os)).timers.find? k = none ↔
      (after (log ++ arriving os')).timers.find? k = none := by
  rw [find?_timers_after, find?_timers_after, Life.gathered?_eq_none_iff,
    Life.gathered?_eq_none_iff, ofKind_sightings_eq_nil_iff _ _ _ h]

theorem percentiles_arriving (h : os.Perm os') (thresholds : List Threshold)
    (timestamp : Timestamp) (interval : Span) (k : Series) :
    (((after (log ++ arriving os)).flush thresholds timestamp interval).1.timers.find? k).map
        (·.percentiles) =
      (((after (log ++ arriving os')).flush thresholds timestamp interval).1.timers.find? k).map
        (·.percentiles) := by
  rw [find?_timers_flush, find?_timers_flush]
  have none := find?_timers_eq_none_iff log k h
  cases found : (after (log ++ arriving os)).timers.find? k
  case none => rw [none.mp found]
  case some x =>
    cases found' : (after (log ++ arriving os')).timers.find? k
    case none =>
      rw [none.mpr found'] at found
      cases found
    case some x' => exact (find?_timers_arriving h found found').summary? thresholds

theorem resembles (log : List Event) (h : os.Perm os') :
    (after (log ++ arriving os)).Resembles (after (log ++ arriving os')) where
  counters := OrderedMap.keys_eq_of_mem_iff fun k => by
    rw [OrderedMap.mem_keys_iff, OrderedMap.mem_keys_iff, find?_counters_after,
      find?_counters_after, ne_eq, ne_eq, Life.counter?_eq_none_iff, Life.counter?_eq_none_iff,
      ofKind_sightings_eq_nil_iff _ _ _ h]
  gauges := OrderedMap.keys_eq_of_mem_iff fun k => by
    rw [OrderedMap.mem_keys_iff, OrderedMap.mem_keys_iff, find?_gauges_after, find?_gauges_after,
      ne_eq, ne_eq, Life.gauge?_eq_none_iff, Life.gauge?_eq_none_iff,
      ofKind_sightings_eq_nil_iff _ _ _ h]
  timers := OrderedMap.keys_eq_of_mem_iff fun k => by
    rw [OrderedMap.mem_keys_iff, OrderedMap.mem_keys_iff, ne_eq, ne_eq,
      find?_timers_eq_none_iff _ _ h]
  sets := OrderedMap.eq_of_find?_eq (find?_sets_arriving h)
  lastSeen := OrderedMap.eq_of_find?_eq fun k => by
    rw [find?_lastSeen_after, find?_lastSeen_after, Life.latest?_perm (Life.sightings_perm k log h)]
  samples _ _ _ := find?_timers_arriving h
  percentiles := percentiles_arriving h

theorem increments_arriving (os : List Sighting) :
    Sighting.increments (Life.of k (log ++ arriving os)).recent =
        Sighting.increments (Life.of k log).recent ++ Sighting.increments (appliedTo k os) ∧
      Sighting.increments (Life.of k (log ++ arriving os)).sightings =
        Sighting.increments (Life.of k log).sightings ++ Sighting.increments (appliedTo k os) := by
  simp [Life.of_arriving, Life.sightings]

theorem counters_eq (log : List Event) (h : os.Perm os') (once : OnceEach .counter os) :
    (after (log ++ arriving os)).counters = (after (log ++ arriving os')).counters := by
  refine OrderedMap.eq_of_find?_eq fun k => ?_
  have same := ofKind_appliedTo_eq (k := k) h once
  have none := ofKind_sightings_eq_nil_iff log k .counter h
  have increments :
      Sighting.increments (appliedTo k os) = Sighting.increments (appliedTo k os') := by
    rw [Sighting.increments, Sighting.increments, same]
  rw [find?_counters_after, find?_counters_after, Life.counter?, Life.counter?,
    (increments_arriving os).1, (increments_arriving os).2, (increments_arriving os').1,
    (increments_arriving os').2, increments]
  simp only [none]

theorem gauges_eq (log : List Event) (h : os.Perm os') (once : OnceEach .gauge os) :
    (after (log ++ arriving os)).gauges = (after (log ++ arriving os')).gauges := by
  refine OrderedMap.eq_of_find?_eq fun k => ?_
  have values (os : List Sighting) :
      Sighting.values .gauge (Life.of k (log ++ arriving os)).sightings =
        Sighting.values .gauge (Life.of k log).sightings ++
          Sighting.values .gauge (appliedTo k os) := by
    simp [Life.of_arriving, Life.sightings]
  rw [find?_gauges_after, find?_gauges_after, Life.gauge?, Life.gauge?, values, values,
    Sighting.values, Sighting.values, Sighting.values, ofKind_appliedTo_eq h once]

-- The second part is about each observation on its own: whether it is applied does not depend on
-- when it arrives. The third is about the recent contributions to each counter.
theorem order_of_arrival (log : List Event) {os os' : List Sighting} (h : os.Perm os') :
    let t := after (log ++ arriving os)
    let t' := after (log ++ arriving os')
    t.Resembles t' ∧
    (∀ o front back front' back', os = front ++ o :: back → os' = front' ++ o :: back' →
      ((after (log ++ arriving front)).apply o.metric o.time).1 =
        ((after (log ++ arriving front')).apply o.metric o.time).1) ∧
    (∀ k, ∃ xs xs' : List Float, xs.Perm xs' ∧
      xs = Sighting.increments (Life.of k (log ++ arriving os)).recent ∧
      xs' = Sighting.increments (Life.of k (log ++ arriving os')).recent ∧
      (∀ c, t.counters.find? k = some c → c.value = total xs) ∧
      (∀ c, t'.counters.find? k = some c → c.value = total xs')) ∧
    (OnceEach .counter os → OnceEach .gauge os → t.counters = t'.counters ∧ t.gauges = t'.gauges) := by
  intro t t'
  refine ⟨resembles log h, fun o front back front' back' _ _ => ?applied, fun k => ?contributions,
    fun counters gauges => ⟨counters_eq log h counters, gauges_eq log h gauges⟩⟩
  case applied => rw [apply_fst, apply_fst]
  case contributions =>
    exact ⟨_, _, Sighting.increments_perm (Life.recent_perm k log h), rfl, rfl,
      fun _ found => (counter_of_find? found).1, fun _ found => (counter_of_find? found).1⟩

theorem order_of_arrival_of_two :
    let x : Sighting := ⟨{ name := "t", kind := .timer, value := 1.0 }, ⟨0⟩⟩
    let y : Sighting := ⟨{ name := "t", kind := .timer, value := 2.0 }, ⟨0⟩⟩
    let t := after ([] ++ arriving [x, y])
    let t' := after ([] ++ arriving [y, x])
    t.Resembles t' ∧ t.counters = t'.counters ∧ t.gauges = t'.gauges := by
  intro x y t t'
  have swapped := order_of_arrival [] (List.Perm.swap y x [])
  exact ⟨swapped.1, swapped.2.2.2 .nil .nil⟩

end Table
end MetricCollector
