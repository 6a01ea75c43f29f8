import Mathlib.Data.List.Basic
import MetricCollector.Delivery.Outlet
import MetricCollector.Proofs.Delivery.Looks

namespace MetricCollector

-- Whether one looked after the time `d` and not later, if it was over by `t`.
def IsNoticed (now : Instant) (looks : List Span) (t : Instant) (d : Span) : Prop :=
  looks.find? (d ≤ ·) = if now.after d ≤ t then some d else none

namespace IsNoticed

variable {now t w : Instant} {looks : List Span} {d : Span}

-- A look that is not too late.
theorem look (le : now ≤ w) (soon : w ≤ now.after d) : IsNoticed now [w.since now] w d := by
  have decided := Instant.le_since_iff (d := d) le
  rw [IsNoticed]
  by_cases ended : d ≤ w.since now
  case pos =>
    have same : w = now.after d := Instant.le_antisymm soon (decided.mp ended)
    rw [if_pos (decided.mp ended), List.find?_cons_of_pos (by simpa using ended), same,
      Instant.since_after]
  case neg =>
    rw [if_neg (mt decided.mpr ended), List.find?_cons_of_neg (by simpa using ended),
      List.find?_nil]

theorem first : IsNoticed now [now.since now] now d :=
  look now.le_refl (now.le_after d)

-- The next look is not later than the end of the time.
theorem next (h : IsNoticed now looks t d) (le : now ≤ w) (later : t ≤ w)
    (soon : ¬now.after d ≤ t → w ≤ now.after d) : IsNoticed now (looks ++ [w.since now]) w d := by
  rw [IsNoticed] at h ⊢
  rw [List.find?_append, h]
  by_cases past : now.after d ≤ t
  case pos =>
    rw [if_pos past, if_pos (Instant.le_trans past later)]
    rfl
  case neg =>
    rw [if_neg past, Option.none_or]
    exact look le (soon past)

end IsNoticed

-- Who looks when the attempt is over sees no less than who looks at the end of the whole time.
theorem Response.succeeds_duration (r : Response) (limit : Span) :
    r.succeeds (r.duration limit) = r.succeeds limit := by
  cases given : r.delay?
  case none => simp [succeeds, given]
  case some delay =>
    by_cases early : delay ≤ limit
    case pos =>
      have own : delay ≤ delay := Nat.le_refl _
      simp [succeeds, given, duration, early, own]
    case neg => simp [duration, given, early]

-- The end of the time is a timer.
theorem Dispatcher.limit_bounds (d : Dispatcher) (since : Instant) : d.timeout ≤ d.limit since ∧
    (d.limit since).nanoseconds < d.timeout.nanoseconds + Span.nanosPerMillisecond := by
  unfold limit
  split
  case h_1 => exact ⟨since.le_kept d.timeout, since.kept_lt d.timeout⟩
  case h_2 => exact ⟨Nat.le_refl _, Nat.lt_add_of_pos_right (by decide)⟩

theorem Dispatcher.limit_eq {d : Dispatcher} {since : Instant}
    (whole : (since.after d.timeout).IsWhole) : d.limit since = d.timeout := by
  unfold limit
  split
  case h_1 => exact Instant.kept_eq whole
  case h_2 => rfl

theorem Dispatcher.after_limit {d : Dispatcher} (timers : d.timers = .whole) (since : Instant) :
    since.after (d.limit since) = (since.after d.timeout).rounded := by
  simp only [limit, timers]
  exact since.after_kept d.timeout

namespace Outlet

variable {o : Outlet} {s : Summary}

-- How long the sinks have for a summary that is dispatched now.
def limit (o : Outlet) : Span :=
  o.dispatcher.limit o.now

-- When it is settled what has become of an attempt: when the sink answers or the time is up.
def settles (o : Outlet) (k : Sink) : Instant :=
  o.now.after (k.reply.duration o.limit)

-- The outlet while it dispatches a summary, after some looks, at `t`.
def during (o : Outlet) (s : Summary) (looks : List Span) (t : Instant) : Outlet :=
  { o with
    now := t,
    dispatcher := (o.dispatcher.during s o.now o.spell looks).2,
    aside := some (o.dispatcher.during s o.now o.spell looks).1 }

theorem arrive_during (quiet : o.running = false) (looks : List Span) (t w : Instant) :
    timed.arrive w (o.during s looks t) = o.during s (looks ++ [w.since o.now]) w := by
  have polled := o.dispatcher.poll_during s o.now o.spell looks w
  simp only [timed, settle, settleAside, during, quiet, polled]
  rfl

variable {looks : List Span} {t : Instant}

-- Whether the looks by `t` have come at the right times.
def OnTime (o : Outlet) (looks : List Span) (t : Instant) : Prop :=
  ∀ k ∈ o.dispatcher.sinks, IsNoticed o.now looks t (k.reply.duration o.limit)

theorem isNone_find? {k : Sink} (onTime : o.OnTime looks t) (mem : k ∈ o.dispatcher.sinks) :
    (looks.find? (k.reply.duration o.limit ≤ ·)).isNone = true ↔ ¬o.settles k ≤ t := by
  rw [onTime k mem]
  split
  case isTrue past  => exact iff_of_false Bool.false_ne_true (not_not_intro past)
  case isFalse past => exact iff_of_true rfl past

theorem isDeliveringAside_during (onTime : o.OnTime looks t) :
    (o.during s looks t).isDeliveringAside = true ↔ ∃ k ∈ o.dispatcher.sinks, ¬o.settles k ≤ t := by
  simp only [isDeliveringAside, during, Dispatcher.during, Offering.during, Option.any_some,
    Offering.isPending, List.any_map, List.any_eq_true, Function.comp_apply, Sink.isPending_tried]
  exact exists_congr fun k => and_congr_right fun mem => isNone_find? onTime mem

theorem mem_alarms_during (waiting : o.dispatcher.phase = .waiting) (onTime : o.OnTime looks t)
    {a : Alarm} : a ∈ (o.during s looks t).alarms ↔
      ∃ k ∈ o.dispatcher.sinks, ¬o.settles k ≤ t ∧ a = ⟨o.settles k, o.spell⟩ := by
  have alarms : (o.during s looks t).alarms = (o.dispatcher.sinks.filterMap fun k =>
      if (looks.find? (k.reply.duration o.limit ≤ ·)).isNone then some (k.reply.duration o.limit)
      else none).map fun d => ⟨o.now.after d, o.spell⟩ := by
    have own : (o.during s looks t).alarms =
        (o.dispatcher.during s o.now o.spell looks).1.alarms o.limit := by
      have idle : (o.during s looks t).dispatcher.alarms = [] := by
        simp only [during, Dispatcher.during, Dispatcher.alarms, waiting]
      rw [Outlet.alarms, idle, List.append_nil]
      exact List.flatMap_singleton ..
    rw [own, Offering.alarms]
    refine congrArg _ (List.filterMap_map.trans (List.filterMap_congr fun k _ => ?_))
    exact Sink.duration?_tried ..
  simp only [alarms, List.mem_map, List.mem_filterMap, Option.ite_none_right_eq_some,
    Option.some.injEq]
  constructor
  case mp =>
    rintro ⟨_, ⟨k, mem, pending, rfl⟩, rfl⟩
    exact ⟨k, mem, (isNone_find? onTime mem).mp pending, rfl⟩
  case mpr =>
    rintro ⟨k, mem, pending, rfl⟩
    exact ⟨_, ⟨k, mem, (isNone_find? onTime mem).mpr pending, rfl⟩, rfl⟩

-- The next look is for the sinks that are settled first.
theorem exists_next (waiting : o.dispatcher.phase = .waiting) (onTime : o.OnTime looks t)
    (busy : (o.during s looks t).isDeliveringAside = true) :
    ∃ k ∈ o.dispatcher.sinks, ¬o.settles k ≤ t ∧
      timed.next? (o.during s looks t) = some (o.settles k) ∧
      ∀ k' ∈ o.dispatcher.sinks, ¬o.settles k' ≤ t → o.settles k ≤ o.settles k' := by
  have alarm (a : Alarm) := mem_alarms_during (s := s) (a := a) waiting onTime
  obtain ⟨k, mem, pending⟩ := (isDeliveringAside_during onTime).mp busy
  have some : (o.during s looks t).alarms ≠ [] :=
    List.ne_nil_of_mem ((alarm _).mpr ⟨k, mem, pending, rfl⟩)
  obtain ⟨a, rings, first, least⟩ := Alarm.exists_first? some
  obtain ⟨k, mem, pending, rfl⟩ := (alarm a).mp rings
  refine ⟨k, mem, pending, ?_, fun k' mem' pending' => ?_⟩
  · have next : timed.next? (o.during s looks t) =
        (Alarm.first? (o.during s looks t).alarms).map Alarm.rings := rfl
    rw [next, first, Option.map_some]
  · exact least _ ((alarm _).mpr ⟨k', mem', pending', rfl⟩)

-- The sinks that keep a dispatch going at `t`.
def unsettled (o : Outlet) (t : Instant) : List Sink :=
  o.dispatcher.sinks.filter fun k => ¬o.settles k ≤ t

theorem length_unsettled_lt {k : Sink} (mem : k ∈ o.dispatcher.sinks) (pending : ¬o.settles k ≤ t) :
    (o.unsettled (o.settles k)).length < (o.unsettled t).length := by
  have fewer : o.unsettled (o.settles k) =
      (o.unsettled t).filter fun k' => ¬o.settles k' ≤ o.settles k := by
    rw [unsettled, unsettled, List.filter_filter]
    refine List.filter_congr fun k' _ => ?_
    have later : t ≤ o.settles k := Instant.le_of_not_le pending
    have still (late : ¬o.settles k' ≤ o.settles k) : ¬o.settles k' ≤ t :=
      fun past => late (Instant.le_trans past later)
    by_cases late : o.settles k' ≤ o.settles k <;> simp_all
  rw [fewer, List.length_filter_lt_length_iff_exists]
  exact ⟨k, by simp [unsettled, mem, pending], by simp [Instant.le_refl]⟩

-- Every alarm that is waited for settles a sink, so that the limit is not reached before all of
-- them are settled.
theorem exists_settled (quiet : o.running = false) (waiting : o.dispatcher.phase = .waiting)
    (limit : ℕ) (onTime : o.OnTime looks t) (le : o.now ≤ t)
    (latest : t = o.now ∨ ∃ k ∈ o.dispatcher.sinks, t = o.settles k)
    (room : (o.unsettled t).length ≤ limit) :
    ∃ looks' t', timed.waitFor (!·.isDeliveringAside) limit (o.during s looks t) =
        o.during s looks' t' ∧
      o.OnTime looks' t' ∧ (∀ k ∈ o.dispatcher.sinks, o.settles k ≤ t') ∧
      (t' = o.now ∨ ∃ k ∈ o.dispatcher.sinks, t' = o.settles k) := by
  induction limit generalizing looks t
  case zero =>
    refine ⟨looks, t, rfl, onTime, fun k mem => ?_, latest⟩
    have none : o.unsettled t = [] := List.eq_nil_of_length_eq_zero (Nat.le_zero.mp room)
    simpa using List.filter_eq_nil_iff.mp none k mem
  case succ limit ih =>
    by_cases busy : (o.during s looks t).isDeliveringAside = true
    case neg =>
      have done : ∀ k ∈ o.dispatcher.sinks, o.settles k ≤ t := by
        simpa using mt (isDeliveringAside_during onTime).mpr busy
      refine ⟨looks, t, ?_, onTime, done, latest⟩
      rw [Timed.waitFor, if_pos (by simpa using busy)]
    case pos =>
      obtain ⟨k, mem, pending, next, soonest⟩ := exists_next waiting onTime busy
      have later : t ≤ o.settles k := Instant.le_of_not_le pending
      have le' := Instant.le_trans le later
      rw [Timed.waitFor, if_neg (by simpa using busy), next]
      dsimp only
      rw [arrive_during quiet]
      have fewer := length_unsettled_lt mem pending
      refine ih (fun k' mem' => ?_) le' (.inr ⟨k, mem, rfl⟩) (by omega)
      exact (onTime k' mem').next le' later (soonest k' mem')

-- Whether the attempt to deliver to a sink succeeds.
def reaches (o : Outlet) (k : Sink) : Bool :=
  k.reply.succeeds o.limit

theorem tried_eq (onTime : o.OnTime looks t) {k : Sink} (mem : k ∈ o.dispatcher.sinks)
    (past : o.settles k ≤ t) :
    k.tried s o.limit looks = (.settled (o.reaches k), k.attempted s (o.reaches k)) := by
  have found := onTime k mem
  rw [IsNoticed, if_pos (show o.now.after _ ≤ t from past)] at found
  rw [Sink.tried, found]
  simp only [Response.succeeds_duration, reaches]

-- A dispatch that is over: each sink has got one attempt, and those that failed are counted.
structure IsDispatched (o : Outlet) (s : Summary) (failures : ℕ) (o' : Outlet) : Prop where
  returned : failures = o.dispatcher.sinks.countP (!o.reaches ·)
  counted  : o'.dispatcher.failures = o.dispatcher.failures + failures
  attempts : o'.dispatcher.sinks = o.dispatcher.sinks.map fun k => k.attempted s (o.reaches k)
  waits    : ∀ k ∈ o.dispatcher.sinks, o.settles k ≤ o'.now
  ends     : o'.now = o.now ∨ ∃ k ∈ o.dispatcher.sinks, o'.now = o.settles k
  rest     : o' = { o with
    now := o'.now,
    dispatcher := { o.dispatcher with
      sinks := o'.dispatcher.sinks, failures := o'.dispatcher.failures },
    aside := none }

theorem settle_offer (quiet : o.running = false) (s : Summary) :
    { o with
      dispatcher := (o.dispatcher.offer s o.now o.spell).2,
      aside := some (o.dispatcher.offer s o.now o.spell).1 }.settle =
    o.during s [o.now.since o.now] o.now := by
  rw [Dispatcher.offer_eq_during]
  exact arrive_during quiet [] o.now o.now

section settled

variable (onTime : o.OnTime looks t) (past : ∀ k ∈ o.dispatcher.sinks, o.settles k ≤ t)

include onTime past

theorem failures_during : (o.dispatcher.during s o.now o.spell looks).1.failures =
    o.dispatcher.sinks.countP (!o.reaches ·) := by
  simp only [Dispatcher.during, Offering.during, Offering.failures, List.countP_map]
  refine List.countP_congr fun k mem => ?_
  have tried := congrArg Prod.fst (tried_eq (s := s) onTime mem (past k mem))
  simp only [limit] at tried
  simp [tried, Offer.hasFailed]

theorem sinks_during : (o.dispatcher.during s o.now o.spell looks).2.sinks =
    o.dispatcher.sinks.map fun k => k.attempted s (o.reaches k) :=
  List.map_congr_left fun k mem => congrArg Prod.snd (tried_eq onTime mem (past k mem))

end settled

theorem isDispatched_dispatch (quiet : o.running = false) (waiting : o.dispatcher.phase = .waiting)
    (s : Summary) : o.IsDispatched s (o.dispatch s).1 (o.dispatch s).2 := by
  obtain ⟨looks, t, delivered, onTime, past, latest⟩ := exists_settled (s := s) quiet waiting
    o.dispatcher.sinks.length (fun k _ => IsNoticed.first) o.now.le_refl (.inl rfl)
    (List.length_filter_le ..)
  have result : o.dispatch s = ((o.dispatcher.during s o.now o.spell looks).1.failures,
      { o with
        now := t,
        dispatcher := (o.dispatcher.during s o.now o.spell looks).2.count
          (o.dispatcher.during s o.now o.spell looks).1,
        aside := none }) := by
    simp only [dispatch, settle_offer quiet, delivered]
    rfl
  rw [result]
  exact ⟨failures_during onTime past, rfl, sinks_during onTime past, past, latest, rfl⟩

-- A sink that answers between two whole milliseconds keeps nobody waiting until the second one.
example :
    let o := create 1 (.ofSeconds 1) [{ name := "fast", respond := fun _ => .accepts ⟨1200000⟩ }]
    (o.dispatch { timestamp := ⟨0, 0⟩, interval := .ofSeconds 1 }).2.now = ⟨1200000⟩ := by
  decide

end Outlet
end MetricCollector
