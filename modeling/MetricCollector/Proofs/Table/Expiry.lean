import Mathlib.Algebra.GroupWithZero.Nat
import MetricCollector.Proofs.Table.Keys
import MetricCollector.Proofs.Table.Run

namespace MetricCollector.Table

variable {t : Table} {now later : Instant} {interval : Span} {k : Series}

theorem expire_zero (t : Table) (now : Instant) : t.expire now .zero = (0, t) := rfl

theorem expire_snd (h : interval ≠ .zero) :
    (t.expire now interval).2 = t.keep fun s => !t.isStale now interval s := by
  have : interval.isZero ≠ true := fun zero => h (congrArg Span.mk (of_decide_eq_true zero))
  simp [expire, this]

theorem size_keep_le (t : Table) (p : Series → Bool) : (t.keep p).size ≤ t.size :=
  t.lastSeen.size_filter_le p

-- What is removed and what stays make up the table.
theorem expire_fst_add_size (t : Table) (now : Instant) (interval : Span) :
    (t.expire now interval).1 + (t.expire now interval).2.size = t.size := by
  unfold expire
  split
  case isTrue  => exact Nat.zero_add _
  case isFalse => exact Nat.sub_add_cancel (t.size_keep_le _)

theorem isStale_iff {seen : Instant} (h : t.lastSeen.find? k = some seen) :
    t.isStale now interval k = true ↔ interval < now.since seen := by
  simp [isStale, h]

-- Who is too late now will be too late later on.
theorem isStale_of_le (le : now ≤ later) (h : t.isStale now interval k = true) :
    t.isStale later interval k = true := by
  rw [isStale, Option.any_eq_true] at h ⊢
  obtain ⟨seen, found, idle⟩ := h
  refine ⟨seen, found, decide_eq_true ?_⟩
  have idle : interval.nanoseconds < (now.since seen).nanoseconds := of_decide_eq_true idle
  show interval.nanoseconds < (later.since seen).nanoseconds
  rw [Instant.le_def] at le
  simp only [Instant.since] at idle ⊢
  omega

theorem keep_keep (t : Table) (p q : Series → Bool) :
    (t.keep p).keep q = t.keep fun s => q s && p s := by
  simp only [keep, OrderedMap.filter_filter]

theorem isStale_keep (t : Table) (p : Series → Bool) (now : Instant) (interval : Span)
    (k : Series) : (t.keep p).isStale now interval k = (p k && t.isStale now interval k) := by
  rw [isStale, keep, OrderedMap.find?_filter]
  by_cases kept : p k = true <;> simp [kept, isStale]

-- An expiry makes those before it superfluous.
theorem expire_expire (le : now ≤ later) :
    ((t.expire now interval).2.expire later interval).2 = (t.expire later interval).2 := by
  by_cases zero : interval = .zero
  case pos =>
    subst zero
    rfl
  case neg =>
    simp only [expire_snd zero, keep_keep, isStale_keep]
    congr 1
    funext s
    have stays : t.isStale now interval s = true → t.isStale later interval s = true :=
      isStale_of_le le
    cases early : t.isStale now interval s <;> simp_all

theorem expire_fst_add_expire_fst (le : now ≤ later) :
    (t.expire now interval).1 + ((t.expire now interval).2.expire later interval).1 =
      (t.expire later interval).1 := by
  have first  := t.expire_fst_add_size now interval
  have second := (t.expire now interval).2.expire_fst_add_size later interval
  have whole  := t.expire_fst_add_size later interval
  rw [expire_expire le] at second
  omega

-- A series is removed with everything that the table holds of it.
theorem row_expire_of_stale {seen : Instant} (h : interval ≠ .zero)
    (found : t.lastSeen.find? k = some seen) (idle : interval < now.since seen) :
    (t.expire now interval).2.row k = .absent := by
  rw [expire_snd h, row_keep, (isStale_iff found).mpr idle]
  rfl

theorem row_expire_of_fresh
    (fresh : ∀ seen, t.lastSeen.find? k = some seen → now.since seen ≤ interval) :
    (t.expire now interval).2.row k = t.row k := by
  by_cases zero : interval = .zero
  case pos =>
    subst zero
    rfl
  case neg =>
    have awake : t.isStale now interval k = false := by
      rw [← Bool.not_eq_true, isStale, Option.any_eq_true]
      rintro ⟨seen, found, idle⟩
      exact Nat.not_lt_of_le (fresh seen found) (of_decide_eq_true idle)
    rw [expire_snd zero, row_keep, awake]
    rfl

-- The elapsed time is never negative.
theorem since_eq_zero {seen : Instant} (h : now ≤ seen) : now.since seen = .zero := by
  rw [Instant.le_def] at h
  exact congrArg Span.mk (by omega)

theorem expire_fst_eq_card (log : List Event) (now : Instant) (interval : Span) :
    ((after log).expire now interval).1 =
      ((after log).held \ ((after log).expire now interval).2.held).card := by
  have reached : ((after log).expire now interval).2 = after (log ++ [.expire now interval]) :=
    (after_append_singleton log (.expire now interval)).symm
  have sizes := (after log).expire_fst_add_size now interval
  have less : ((after log).expire now interval).2.held ⊆ (after log).held := by
    rw [reached, ← keySet_lastSeen_after, ← keySet_lastSeen_after, ← reached]
    intro k
    simp only [OrderedMap.mem_keySet_iff, find?_lastSeen_expire]
    split <;> simp
  rw [size_after, reached, size_after, ← reached] at sizes
  rw [← Finset.card_sdiff_add_card_eq_card less] at sizes
  exact Nat.add_right_cancel sizes

namespace Step

-- How many series the event removes.
def removed (s : Step) : Nat :=
  match s.outcome with
  | .removed n => n
  | _          => 0

-- Whether an observation is applied of a series of which the table holds nothing.
def isArrival (s : Step) : Bool :=
  match s.event with
  | .observe m now => (s.before.apply m now).1 && decide (m.series ∉ s.before.held)
  | _              => false

end Step

-- How many series were removed in the course of a log.
def removals (log : List Event) : Nat :=
  ((run log).map Step.removed).sum

-- How often a series came into the table in the course of a log.
def arrivals (log : List Event) : Nat :=
  (run log).countP Step.isArrival

theorem size_apply (t : Table) (m : Metric) (now : Instant) :
    (t.apply m now).2.size =
      t.size + if m.isSound = true ∧ m.series ∉ t.lastSeen.keySet then 1 else 0 := by
  have lastSeen : (t.accumulate m).lastSeen = t.lastSeen := by
    unfold accumulate
    split <;> rfl
  by_cases sound : m.isSound = true
  case neg => simp [apply, sound]
  case pos =>
    simp only [apply, sound, if_true, size, see, OrderedMap.size_update, lastSeen, true_and]
    split <;> simp_all

theorem removed_add_size_undergo (log : List Event) (e : Event) :
    (Step.mk (after log) e).removed + ((after log).undergo e).size =
      (after log).size + if (Step.mk (after log) e).isArrival = true then 1 else 0 := by
  cases e
  case observe m now =>
    rw [undergo, size_apply, keySet_lastSeen_after]
    simp [Step.removed, Step.outcome, Step.isArrival, apply_fst]
  case flush thresholds timestamp interval => exact Nat.zero_add _
  case expire now interval => exact (after log).expire_fst_add_size now interval
  case snapshot => exact Nat.zero_add _

theorem removals_add_size (log : List Event) : removals log + (after log).size = arrivals log := by
  induction log using List.reverseRecOn
  case nil => rfl
  case append_singleton log e ih =>
    have step := removed_add_size_undergo log e
    simp only [removals, arrivals, run_append_singleton, List.map_append, List.map_cons,
      List.map_nil, List.sum_append, List.sum_cons, List.sum_nil, List.countP_append,
      List.countP_singleton, after_append_singleton] at ih ⊢
    omega

-- The first three parts say what an expiry does to a table that a log led to, the fourth that one
-- expiry is as good as two, and the last that every series that came is there or was removed.
theorem expiry_is_exact_and_accounted_for (log : List Event) (now : Instant) (interval : Span) :
    let t := after log
    let r := t.expire now interval
    (interval = .zero → r = (0, t)) ∧
    (interval ≠ .zero →
      (∀ k seen, t.lastSeen.find? k = some seen → interval < now.since seen →
        r.2.row k = .absent) ∧
      (∀ k, (∀ seen, t.lastSeen.find? k = some seen → now.since seen ≤ interval) →
        r.2.row k = t.row k) ∧
      (∀ seen, now ≤ seen → now.since seen = .zero)) ∧
    r.1 = (t.held \ r.2.held).card ∧
    (∀ later, now ≤ later →
      (r.2.expire later interval).2 = (t.expire later interval).2 ∧
      r.1 + (r.2.expire later interval).1 = (t.expire later interval).1) ∧
    removals log + t.size = arrivals log := by
  intro t r
  refine ⟨?off, fun timed => ⟨?gone, ?kept, ?never⟩, ?counted, ?twice, ?accounts⟩
  case off =>
    intro zero
    subst zero
    exact expire_zero t now
  case gone     => exact fun _ _ => row_expire_of_stale timed
  case kept     => exact fun _ => row_expire_of_fresh
  case never    => exact fun _ => since_eq_zero
  case counted  => exact expire_fst_eq_card log now interval
  case twice    => exact fun _ le => ⟨expire_expire le, expire_fst_add_expire_fst le⟩
  case accounts => exact removals_add_size log

end MetricCollector.Table
