import MetricCollector.Proofs.Service.Pace
import MetricCollector.Proofs.Settings.Acceptance

namespace MetricCollector.Service

variable {settings : EngineSettings} {room : Nat} {timeout : Span} {sinks : List Sink}
variable {now : Moment} {s : Service}

theorem sound_onTime (settings : EngineSettings) (room : Nat) (timeout : Span) (sinks : List Sink)
    (now : Moment) (inputs : List Input) :
    Sound settings room sinks now (onTime settings room timeout sinks now inputs) :=
  (Sound.create settings room timeout sinks now).withExactTimers.onTime inputs

theorem punctual_onTime (le : timeout ≤ settings.flushInterval) (room : Nat) (sinks : List Sink)
    (now : Moment) (inputs : List Input) :
    Punctual settings.flushInterval timeout (onTime settings room timeout sinks now inputs) := by
  induction inputs using List.reverseRecOn
  case nil                          => exact .create settings room timeout sinks now
  case append_singleton inputs i ih =>
    have sound := sound_onTime settings room timeout sinks now inputs
    exact (onTime_append_singleton ..).symm ▸ ih.nextOnTime sound le i

theorem onTime_append (settings : EngineSettings) (room : Nat) (timeout : Span) (sinks : List Sink)
    (now : Moment) (inputs more : List Input) :
    onTime settings room timeout sinks now (inputs ++ more) =
      more.foldl nextOnTime (onTime settings room timeout sinks now inputs) := by
  simp [onTime]

-- An engine that has ended publishes nothing.
theorem Sound.published_of_ended (h : Sound settings room sinks now s)
    (ended : s.course.engine.phase = .ended) (inputs : List Input) :
    let later := inputs.foldl Service.nextOnTime s
    later.course.engine.phase = .ended ∧ later.handoff.published = s.handoff.published := by
  induction inputs generalizing s
  case nil => exact ⟨ended, rfl⟩
  case cons i inputs ih =>
    have first : (s.nextOnTime i).course.engine.phase = .ended ∧
        (s.nextOnTime i).handoff.published = s.handoff.published := by
      unfold Service.nextOnTime
      split
      case isFalse         => exact ⟨ended, rfl⟩
      case isTrue admitted =>
        clear admitted
        cases i
        case engine i =>
          have quiet : s.news i = [] := by
            cases i <;> simp [news, Course.effects, Engine.turn?, ended]
          rw [h.next_engine_of_news_eq_nil quiet]
          exact ⟨Course.ended_next ended i, rfl⟩
        case release => simp only [Service.next]; split <;> exact ⟨ended, rfl⟩
        case look    => exact ⟨ended, rfl⟩
        case step    => exact ⟨ended, by simp only [Service.next, Handoff.next]; split <;> rfl⟩
    obtain ⟨still, same⟩ := ih (h.nextOnTime i) first.left
    exact ⟨still, same.trans first.right⟩

namespace Punctual

-- Nothing is lost.
theorem published_eq (h : Punctual settings.flushInterval timeout s)
    (sound : Sound settings room sinks now s) :
    s.handoff.published = s.handoff.dispatched.map Taking.item ++ s.handoff.backlog.pending :=
  (h.missed ▸ sound.handoff.accounts).eq_append_pending h.told

-- What waits at rest is the last summary of all, and it need not wait for long.
theorem last_of_isAtRest (h : Punctual settings.flushInterval timeout s)
    (sound : Sound settings room sinks now s) (le : timeout ≤ settings.flushInterval)
    (rest : s.IsAtRest) (waiting : s.handoff.backlog.pending ≠ []) :
    ∃ f, s.flushes.getLast? = some f ∧ f.final = true ∧
      s.course.now.instant < f.time.after timeout := by
  have pace := h.pace
  unfold KeepsPace at pace
  cases phase : s.course.engine.phase <;> simp only [phase] at pace
  case created | failed => exact absurd pace.left waiting
  case running          => exact absurd (h.pending_eq_nil sound le rest phase) waiting
  case ended            =>
    obtain ⟨f, last, final, before⟩ := pace waiting
    obtain ⟨t, since, early⟩ := sound.busy_of_isAtRest rest waiting
    have begun := before t since
    refine ⟨f, last, final, ?_⟩
    rw [h.limit] at early
    simp only [Instant.le_def, Instant.lt_def, Instant.after] at begun early ⊢
    omega

-- At rest the delivery of each summary but the last one has begun, when it was flushed.
theorem starts_of_isAtRest (h : Punctual settings.flushInterval timeout s)
    (sound : Sound settings room sinks now s) (le : timeout ≤ settings.flushInterval)
    (rest : s.IsAtRest) {i : Nat} {f : Flushing} (flushed : s.flushes[i]? = some f)
    (periodic : f.final = false) : s.starts[i]? = some f.time := by
  have started : i < s.starts.length := by
    have place := (List.getElem?_eq_some_iff.mp flushed).1
    have whole := congrArg List.length (h.published_eq sound)
    rw [List.length_append, List.length_map, ← sound.started, ← sound.flushed] at whole
    by_contra late
    -- It would have to be the one that waits.
    have waiting : s.handoff.backlog.pending ≠ [] := by
      intro none
      rw [none, List.length_nil] at whole
      omega
    obtain ⟨last, newest, final, _⟩ := h.last_of_isAtRest sound le rest waiting
    have single := h.single
    have : i = s.flushes.length - 1 := by omega
    rw [List.getLast?_eq_getElem?, ← this, flushed] at newest
    cases newest
    cases final.symm.trans periodic
  have begun : s.starts[i]? = some s.starts[i] := List.getElem?_eq_getElem started
  exact h.prompt i _ f begun flushed periodic ▸ begun

-- A delivery is over when the time is up, and the dispatcher goes on to what waits.
theorem pending_next_of_up (h : Punctual settings.flushInterval timeout s)
    (up : ∀ t ∈ s.handoff.dispatcher.phase.since?, t.after timeout ≤ s.handoff.now)
    (busy : s.handoff.dispatcher.phase.since? ≠ none)
    (waiting : s.handoff.backlog.pending ≠ []) :
    ((s.next (.step 0)).next (.step 0)).handoff.backlog.pending = [] := by
  obtain ⟨summary, rest, pending⟩ := List.exists_cons_of_ne_nil waiting
  obtain rfl : rest = [] := by
    have single := h.single
    rw [pending, List.length_cons] at single
    exact List.eq_nil_of_length_eq_zero (by omega)
  cases delivering : s.handoff.dispatcher.phase
  case waiting | closing | ended => exact absurd (by rw [delivering]; rfl) busy
  case delivering o =>
    have up := Instant.le_since_of_after_le (up o.since (by rw [delivering]; rfl))
    have settled : (s.handoff.dispatcher.poll o s.handoff.now).1.isPending = false :=
      Offering.isPending_poll (h.limit ▸ up) s.handoff.dispatcher.sinks
    have finish : s.handoff.dispatcher.step? s.handoff.backlog s.handoff.now 0 =
        some ({ (s.handoff.dispatcher.poll o s.handoff.now).2.count
          (s.handoff.dispatcher.poll o s.handoff.now).1 with phase := .waiting },
          s.handoff.backlog) := by
      simp [Dispatcher.step?, delivering, settled]
    rw [next_step finish]
    simp [next, Handoff.next, Dispatcher.step?, Backlog.take, h.told, pending]

end Punctual

-- When the engine has ended, what it published last is delivered as well.
theorem exists_delivered (le : timeout ≤ settings.flushInterval) (inputs : List Input)
    (ended : (onTime settings room timeout sinks now inputs).course.engine.phase = .ended) :
    ∃ more,
      (onTime settings room timeout sinks now (inputs ++ more)).handoff.backlog.pending = [] := by
  obtain ⟨tasks, _, _, rest⟩ := (onTime settings room timeout sinks now inputs).exists_isAtRest
  have still := (sound_onTime settings room timeout sinks now inputs).published_of_ended ended tasks
  rw [← onTime_append] at rest still
  have sound := sound_onTime settings room timeout sinks now (inputs ++ tasks)
  have h := punctual_onTime le room sinks now (inputs ++ tasks)
  generalize same : onTime settings room timeout sinks now (inputs ++ tasks) = s at *
  by_cases waiting : s.handoff.backlog.pending = []
  case pos => exact ⟨tasks, same ▸ waiting⟩
  case neg =>
    -- It waits for a delivery, the time of which has to run out.
    obtain ⟨t, since, early⟩ := sound.busy_of_isAtRest rest waiting
    let up : Moment := ⟨t.after timeout, s.course.now.timestamp⟩
    refine ⟨tasks ++ [.engine (.pass up), .step 0, .step 0], ?_⟩
    have admitted : s.admits (.engine (.pass up)) = true := by
      refine decide_eq_true ⟨rest, fun deadline mem => ?_⟩
      have only : deadline = t.after timeout := by
        simpa [deadlines, Engine.ticks, still.left, Option.mem_def.mp since, h.limit] using mem
      exact only ▸ Int.le_refl _
    rw [h.limit] at early
    have forward : s.course.now.instant ≤ up.instant := Int.le_of_lt early
    have passed : s.nextOnTime (.engine (.pass up)) =
        { s with
          course  := { s.course with now := up },
          handoff := { s.handoff with now := up.instant } } := by
      rw [nextOnTime, if_pos admitted, sound.next_engine_of_news_eq_nil rfl]
      simp only [Course.next, if_pos forward]
    have h' := h.nextOnTime sound le (.engine (.pass up))
    have busy := Option.ne_none_iff_exists'.mpr ⟨t, since⟩
    rw [← List.append_assoc, onTime_append, same]
    let s' := s.nextOnTime (.engine (.pass up))
    show ((s'.next (.step 0)).next (.step 0)).handoff.backlog.pending = []
    simp only [s', passed] at h' ⊢
    refine h'.pending_next_of_up (fun t' mem => ?_) busy waiting
    cases Option.mem_unique since mem
    exact Int.le_refl _

-- With settings that are accepted, and whatever the sinks do, no summary is lost in a run that is
-- on time. Each one is offered once to every sink, at the instant at which it was flushed unless it
-- is the last one, which may have to wait until the delivery before it is over. At most one summary
-- waits, and at rest it is the last one. The service comes to rest at any time, and the last
-- summary is delivered some time.
theorem dispatcher_keeps_pace (config : Settings) (accepted : config.validate = .ok ()) :
    ∃ settings, config.engine = .ok settings ∧
      ∀ (sinks : List Sink) (now : Moment) (inputs : List Input),
        let run := onTime settings config.summaryBacklog config.sinkTimeout sinks now
        let s := run inputs
        let dispatched := s.handoff.dispatched.map Taking.item
        let pending := s.handoff.backlog.pending
        (s.handoff.dispatcher.missed = 0 ∧ s.handoff.backlog.missed = 0) ∧
        (s.flushes.length = s.handoff.published.length ∧ s.starts.length = dispatched.length ∧
          ∀ (i : Nat) t f, s.starts[i]? = some t → s.flushes[i]? = some f → f.final = false →
            t = f.time) ∧
        (s.handoff.published = dispatched ++ pending ∧
          s.handoff.dispatcher.sinks.map Sink.unused = sinks.map Sink.unused ∧
          ∀ sink ∈ s.handoff.dispatcher.sinks, sink.attempts = dispatched) ∧
        pending.length ≤ 1 ∧
        (s.IsAtRest →
          (∀ (i : Nat) f, s.flushes[i]? = some f → f.final = false →
            s.starts[i]? = some f.time) ∧
          (pending ≠ [] → ∃ f, s.flushes.getLast? = some f ∧ f.final = true ∧
            s.course.now.instant < f.time.after config.sinkTimeout)) ∧
        (∃ tasks, (∀ i ∈ tasks, i.isTask = true) ∧ (run (inputs ++ tasks)).IsAtRest) ∧
        (s.course.engine.phase = .ended → ∃ more,
          ∀ sink ∈ (run (inputs ++ more)).handoff.dispatcher.sinks,
            sink.attempts = s.handoff.published) := by
  obtain ⟨settings, accepted⟩ := Settings.exists_accepted accepted
  have le : config.sinkTimeout ≤ settings.flushInterval := accepted.interval ▸ accepted.limit
  refine ⟨settings, accepted.engine, fun sinks now inputs => ?_⟩
  intro run s dispatched pending
  have attempts (inputs : List Input) : ∀ sink ∈ (run inputs).handoff.dispatcher.sinks,
      sink.attempts = (run inputs).handoff.dispatched.map Taking.item := by
    intro sink mem
    obtain ⟨i, found⟩ := List.mem_iff_getElem?.mp mem
    exact ((sound_onTime ..).handoff.books.histories i sink found).offers
  have append (more : List Input) : run (inputs ++ more) = more.foldl nextOnTime s :=
    onTime_append ..
  have sound : Sound settings config.summaryBacklog sinks now s := sound_onTime ..
  have h : Punctual settings.flushInterval config.sinkTimeout s := punctual_onTime le ..
  refine ⟨⟨h.missed, h.told⟩, ⟨sound.flushed, ?started, h.prompt⟩,
    ⟨h.published_eq sound, sound.handoff.books.same, attempts inputs⟩, h.single,
    fun rest => ⟨fun i f => h.starts_of_isAtRest sound le rest, h.last_of_isAtRest sound le rest⟩,
    ?rests, fun ended => ?last⟩
  case started => rw [List.length_map]; exact sound.started
  case rests =>
    obtain ⟨tasks, own, _, rest⟩ := s.exists_isAtRest
    exact ⟨tasks, own, (append tasks).symm ▸ rest⟩
  case last =>
    obtain ⟨more, delivered⟩ := exists_delivered le inputs ended
    have whole := (punctual_onTime le config.summaryBacklog sinks now (inputs ++ more)).published_eq
      (sound_onTime ..)
    have same := (sound.published_of_ended ended more).right
    rw [← append] at same
    rw [delivered, List.append_nil] at whole
    exact ⟨more, fun sink mem => (attempts _ sink mem).trans (whole.symm.trans same)⟩

-- Sinks have as much time as there is between two flushes if nothing else is set.
theorem dispatcher_keeps_pace_by_default :
    let config : Settings := {}
    config.validate = .ok () ∧ ∃ settings, config.engine = .ok settings ∧
      ∀ (sinks : List Sink) (inputs : List Input),
        (onTime settings 4 (.ofSeconds 1) sinks .origin inputs).handoff.dispatcher.missed = 0 := by
  intro config
  have accepted : config.validate = .ok () := rfl
  obtain ⟨settings, engine, pace⟩ := dispatcher_keeps_pace config accepted
  exact ⟨accepted, settings, engine, fun sinks inputs => (pace sinks .origin inputs).left.left⟩

-- A sink that never answers has its time until the next flush, and then the next summary is there.
example :
    let settings : EngineSettings := {}
    let second (n : Nat) : Moment := Moment.origin.movedTo ⟨n * 1000000000⟩
    let s := onTime settings 1 (.ofSeconds 1) [{ name := "silent", respond := fun _ => .never }]
      .origin
      [.engine .start, .engine (.pass (second 1)), .engine .turn, .step 0,
        .engine (.pass (second 2)), .engine .turn, .step 0, .step 0,
        .engine .stop, .engine .turn, .release]
    s.flushes = [⟨⟨1000000000⟩, false⟩, ⟨⟨2000000000⟩, false⟩, ⟨⟨2000000000⟩, true⟩] ∧
      s.starts = [⟨1000000000⟩, ⟨2000000000⟩] ∧ s.handoff.backlog.pending.length = 1 ∧
      s.IsAtRest := by
  decide +kernel

end MetricCollector.Service
