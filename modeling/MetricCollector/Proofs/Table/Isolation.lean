import MetricCollector.Proofs.Table.Run

namespace MetricCollector.Table

-- Whether an event could matter to series `k`, as all do but observations of other series.
def Event.concerns (k : Series) : Event → Bool
  | observe m _ => m.series = k
  | _           => true

-- The outcomes do not differ in anything about series `k`.
inductive Outcome.AgreesOn (k : Series) : Outcome → Outcome → Prop
  | applied (sound : Bool) : AgreesOn k (.applied sound) (.applied sound)
  | reported {s s' : Summary}
      (counter : s.counters.find? k = s'.counters.find? k)
      (gauge   : s.gauges.find? k = s'.gauges.find? k)
      (timer   : s.timers.find? k = s'.timers.find? k)
      (set     : s.sets.find? k = s'.sets.find? k) :
      AgreesOn k (.reported s) (.reported s')
  -- Removals are counted for all series together.
  | removed (n n' : Nat) : AgreesOn k (.removed n) (.removed n')
  | shown {s s' : Snapshot}
      (counter : s.counters.find? k = s'.counters.find? k)
      (gauge   : s.gauges.find? k = s'.gauges.find? k)
      (timer   : s.timers.find? k = s'.timers.find? k)
      (set     : s.sets.find? k = s'.sets.find? k) :
      AgreesOn k (.shown s) (.shown s')

-- The same event has the same effect on series `k`.
structure Step.AgreesOn (k : Series) (s s' : Step) : Prop where
  event   : s.event = s'.event
  outcome : s.outcome.AgreesOn k s'.outcome
  row     : s.after.row k = s'.after.row k

variable {t t' : Table} {k : Series} {e : Event}

theorem row_undergo_of_not_concerns (h : ¬ e.concerns k = true) :
    (t.undergo e).row k = t.row k := by
  rw [row_undergo]
  cases e
  case observe m now =>
    have other : m.series ≠ k := by simpa [Event.concerns] using h
    simp [Row.undergo, other]
  case flush | expire | snapshot => exact absurd rfl h

theorem row_undergo_congr (h : t.row k = t'.row k) (e : Event) :
    (t.undergo e).row k = (t'.undergo e).row k := by
  rw [row_undergo, row_undergo, h]

theorem find?_select {α : Type} (v : View) (kind : Kind) (m : OrderedMap Series α) (k : Series) :
    (v.select kind m).find? k =
      if v.showsKind kind = true ∧ v.showsSeries k = true then m.find? k else none := by
  rw [View.select]
  by_cases hk : v.showsKind kind = true <;> simp [hk, OrderedMap.find?_filter]

theorem select_whole {α : Type} (kind : Kind) (m : OrderedMap Series α) :
    View.whole.select kind m = m :=
  OrderedMap.filter_eq_self fun _ _ => rfl

theorem snapshot_whole (t : Table) (takenAt : Timestamp) :
    t.snapshot .whole takenAt = ⟨takenAt, t.counters, t.gauges, t.timers, t.sets⟩ := by
  simp only [snapshot, select_whole]

-- What an event brings to light about a series depends on its row alone.
theorem outcome_agreesOn (h : t.row k = t'.row k) (e : Event) :
    (Step.mk t e).outcome.AgreesOn k (Step.mk t' e).outcome := by
  have counter : t.counters.find? k = t'.counters.find? k := congrArg Row.counter? h
  have gauge : t.gauges.find? k = t'.gauges.find? k := congrArg Row.gauge? h
  have timer : t.timers.find? k = t'.timers.find? k := congrArg Row.timer? h
  have set : t.sets.find? k = t'.sets.find? k := congrArg Row.set? h
  cases e
  case observe m now =>
    have same : (t.apply m now).1 = (t'.apply m now).1 := by rw [apply_fst, apply_fst]
    simp only [Step.outcome, same]
    exact .applied _
  case flush thresholds timestamp interval =>
    refine .reported ?_ gauge ?_ ?_
    · simp only [flush, summary, OrderedMap.find?_map, counter]
    · simp only [flush, summary, OrderedMap.find?_filterMap, timer]
    · simp only [flush, summary, OrderedMap.find?_map, set]
  case expire now interval => exact .removed _ _
  case snapshot v takenAt =>
    refine .shown ?_ ?_ ?_ ?_ <;> simp only [snapshot, find?_select]
    · rw [counter]
    · rw [gauge]
    · rw [timer]
    · rw [set]

theorem step_agreesOn (h : t.row k = t'.row k) (e : Event) :
    (Step.mk t e).AgreesOn k (Step.mk t' e) where
  event   := rfl
  outcome := outcome_agreesOn h e
  row     := row_undergo_congr h e

theorem steps_agreeOn (h : t.row k = t'.row k) (log : List Event) :
    List.Forall₂ (Step.AgreesOn k) ((steps t log).filter (·.event.concerns k))
      (steps t' (log.filter (·.concerns k))) := by
  induction log generalizing t t'
  case nil => exact .nil
  case cons e log ih =>
    by_cases hk : e.concerns k = true
    case pos =>
      simp only [steps, List.filter_cons, hk, if_true]
      exact .cons (step_agreesOn h e) (ih (row_undergo_congr h e))
    case neg =>
      simp only [steps, List.filter_cons, hk, if_false, Bool.false_eq_true]
      exact ih ((row_undergo_of_not_concerns hk).trans h)

theorem row_after_filter (log : List Event) (k : Series) :
    (after log).row k = (after (log.filter (·.concerns k))).row k := by
  induction log using List.reverseRecOn
  case nil => rfl
  case append_singleton log e ih =>
    rw [after_append_singleton, List.filter_append]
    by_cases hk : e.concerns k = true
    case pos =>
      rw [List.filter_cons_of_pos hk, List.filter_nil, after_append_singleton]
      exact row_undergo_congr ih e
    case neg =>
      rw [List.filter_cons_of_neg hk, List.filter_nil, List.append_nil]
      exact (row_undergo_of_not_concerns hk).trans ih

-- The steps that remain without the observations of other series agree one by one, and the series
-- was last seen at the same time wherever one looks, between the steps that are left out as well.
theorem series_do_not_interfere (log : List Event) (k : Series) :
    List.Forall₂ (Step.AgreesOn k) ((run log).filter (·.event.concerns k))
      (run (log.filter (·.concerns k))) ∧
    ∀ pre, pre <+: log →
      (after pre).lastSeen.find? k = (after (pre.filter (·.concerns k))).lastSeen.find? k :=
  ⟨steps_agreeOn rfl log, fun pre _ => congrArg Row.lastSeen? (row_after_filter pre k)⟩

end MetricCollector.Table
