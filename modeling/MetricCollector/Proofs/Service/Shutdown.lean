import MetricCollector.Proofs.Engine.Ending
import MetricCollector.Proofs.Engine.Retention
import MetricCollector.Proofs.Service.Basic

namespace MetricCollector

-- When nothing is left in a backlog, the newest was the last to be taken.
theorem Backlog.Accounts.getLast?_taken {α : Type} {b : Backlog α} {published : List α}
    {taken : List (Taking α)} {lost : Nat} (h : b.Accounts published taken lost)
    (empty : b.pending = []) {a : α} (last : published.getLast? = some a) :
    ∃ t, taken.getLast? = some t ∧ t.place + 1 = published.length ∧ t.item = a := by
  obtain ⟨before, rfl⟩ := List.getLast?_eq_some_iff.mp last
  have front : b.front (before ++ [a]) = before.length + 1 := by simp [Backlog.front, empty]
  have room := h.room
  have newest : ∃ t ∈ taken, t.place = before.length := by
    refine (h.skipped before.length (by omega)).resolve_right fun skipped => ?_
    rw [List.length_append, List.length_singleton] at skipped
    omega
  obtain ⟨t, mem, place⟩ := newest
  have found := h.found t mem
  rw [place, List.getElem?_concat_length] at found
  -- Whatever was taken later would have a later place, and there is none.
  cases List.eq_nil_or_concat' taken
  case inl none => cases none ▸ mem
  case inr some =>
    obtain ⟨earlier, t', rfl⟩ := some
    have later := (List.pairwise_append.mp h.inOrder).right.right
    have bound := h.before t' (by simp)
    cases List.mem_append.mp mem
    case inr mem =>
      obtain rfl := List.mem_singleton.mp mem
      exact ⟨t, by simp, by simp [place], (Option.some.inj found).symm⟩
    case inl mem =>
      have := later t mem t' (List.mem_singleton_self t')
      omega

def DispatcherPhase.isEnded : DispatcherPhase → Bool
  | ended => true
  | _     => false

theorem DispatcherPhase.isEnded_iff {p : DispatcherPhase} : p.isEnded = true ↔ p = .ended := by
  cases p <;> simp [isEnded]

namespace Service

-- Whether the engine and the dispatcher have come to an end.
def HasEnded (s : Service) : Prop :=
  s.course.engine.phase = .ended ∧ s.handoff.dispatcher.phase = .ended

instance (s : Service) : Decidable s.HasEnded :=
  decidable_of_iff
    (s.course.engine.phase.isEnded = true ∧ s.handoff.dispatcher.phase.isEnded = true)
    (and_congr Phase.isEnded_iff DispatcherPhase.isEnded_iff)

variable {settings : EngineSettings} {room : Nat} {sinks : List Sink} {now : Moment} {s : Service}

-- An engine that is asked to stop publishes nothing more but the last summary.
theorem news_eq_nil (h : Sound settings room sinks now s) (closing : s.course.IsClosing)
    (quiet : settings.flushOnShutdown = false) (i : MetricCollector.Input) : s.news i = [] := by
  cases i <;> simp only [news, Course.effects, List.filterMap_nil]
  case turn =>
    cases taken : s.course.engine.turn? s.course.now
    case none   => rfl
    case some r =>
      have turn := Engine.turn_of_turn? taken
      refine turn.summaries.trans (Table.reportsFrom_eq_nil fun event mem => ?_)
      rw [(closing.ended_of_turn turn).right, Engine.lastEvents, h.recorded.same, quiet] at mem
      obtain ⟨c, _, rfl⟩ := List.mem_map.mp (by simpa using mem)
      exact c.isFlush_event _

theorem isClosing_next (closing : s.course.IsClosing) (i : Input) :
    (s.next i).course.IsClosing := by
  cases i
  case engine i => exact Course.isClosing_next closing i
  case release  => simp only [next]; split <;> exact closing
  case look     => exact closing
  case step     => exact closing

theorem published_next (h : Sound settings room sinks now s) (closing : s.course.IsClosing)
    (quiet : settings.flushOnShutdown = false) (i : Input) :
    (s.next i).handoff.published = s.handoff.published := by
  cases i
  case engine i => rw [h.next_engine, news_eq_nil h closing quiet, List.append_nil]
  case release  => simp only [next]; split <;> rfl
  case look     => rfl
  case step     => simp only [next, Handoff.next]; split <;> rfl

-- Without a last flush nothing is published once the engine is asked to stop.
theorem published_after {timeout : Span} {inputs : List Input}
    (closing : (after settings room timeout sinks now inputs).course.IsClosing)
    (quiet : settings.flushOnShutdown = false) (more : List Input) :
    (after settings room timeout sinks now (inputs ++ more)).handoff.published =
      (after settings room timeout sinks now inputs).handoff.published := by
  suffices (after settings room timeout sinks now (inputs ++ more)).course.IsClosing ∧
      (after settings room timeout sinks now (inputs ++ more)).handoff.published =
        (after settings room timeout sinks now inputs).handoff.published from this.right
  induction more using List.reverseRecOn
  case nil => exact (List.append_nil inputs).symm ▸ ⟨closing, rfl⟩
  case append_singleton more i ih =>
    obtain ⟨still, same⟩ := ih
    rw [← List.append_assoc, after_append_singleton]
    have sound := sound_after settings room timeout sinks now (inputs ++ more)
    exact ⟨isClosing_next still i, (published_next sound still quiet i).trans same⟩

-- What the dispatcher is told of the time.
theorem pass_handoff (h : Sound settings room sinks now s) {later : Moment}
    (le : s.handoff.now ≤ later.instant) :
    (s.next (.engine (.pass later))).handoff = { s.handoff with now := later.instant } := by
  rw [h.next_engine]
  have le : s.course.now.instant ≤ later.instant := h.together ▸ le
  simp [news, Course.effects, Course.next, le]

-- The dispatcher ends when the backlog is closed, if all sinks say some time that they are closed.
theorem exists_end_of_closed (h : Sound settings room sinks now s)
    (finished : s.course.engine.phase.isOver = true) (closed : s.handoff.backlog.closed = true)
    (polite : ∀ sink ∈ sinks, sink.leave.delay? ≠ none) :
    ∃ more : List Input, let later := more.foldl next s
      later.course.engine.phase = s.course.engine.phase ∧
        later.handoff.dispatcher.phase = .ended := by
  induction work : s.handoff.dispatcher.workload s.handoff.backlog using Nat.strong_induction_on
    generalizing s
  case h work ih =>
    subst work
    by_cases done : s.handoff.dispatcher.phase = .ended
    case pos => exact ⟨[], rfl, done⟩
    case neg =>
      -- There may be no step now, but there is one later, and it leaves less to do.
      obtain ⟨later, le, ⟨d, b⟩, step⟩ := Dispatcher.exists_move s.handoff.backlog s.handoff.now 0
        closed (h.handoff.leave_ne_none polite) done
      have less := Dispatcher.step?_workload_lt step
      let m : Moment := ⟨later, s.course.now.timestamp⟩
      let passed := s.next (.engine (.pass m))
      have handoff : passed.handoff = { s.handoff with now := later } := pass_handoff h le
      have moved := next_step (handoff.symm ▸ step : passed.handoff.dispatcher.step?
        passed.handoff.backlog passed.handoff.now 0 = some (d, b))
      have sound := (h.next (.engine (.pass m))).next (.step 0)
      have still : (passed.next (.step 0)).course.engine.phase = s.course.engine.phase :=
        Course.phase_next_of_isOver finished (.pass m)
      have closed : (passed.next (.step 0)).handoff.backlog.closed = true := by
        rw [moved]
        cases Dispatcher.move_of_step? step <;> exact closed
      obtain ⟨more, phase, done⟩ := ih _ less sound (still ▸ finished) closed (by rw [moved])
      exact ⟨.engine (.pass m) :: .step 0 :: more, phase.trans still, done⟩

-- An engine that is asked to stop takes its last turn, and then everything goes its way. Where it
-- has failed to start, the dispatcher ends all the same.
theorem exists_end (h : Sound settings room sinks now s) (closing : s.course.IsClosing)
    (started : s.course.engine.phase ≠ .created)
    (polite : ∀ sink ∈ sinks, sink.leave.delay? ≠ none) :
    ∃ more : List Input, let later := more.foldl next s
      later.course.engine.phase.isOver = true ∧ later.handoff.dispatcher.phase = .ended ∧
        (s.course.engine.phase ≠ .failed → later.HasEnded) := by
  -- Where the engine is over only the backlog is left to be closed.
  have finish {s : Service} (h : Sound settings room sinks now s)
      (finished : s.course.engine.phase.isOver = true) :
      ∃ more : List Input, (more.foldl next s).course.engine.phase = s.course.engine.phase ∧
        (more.foldl next s).handoff.dispatcher.phase = .ended := by
    have released : s.next .release = { s with handoff := s.handoff.next .close } := if_pos finished
    have same : (s.next .release).course = s.course := by rw [released]
    have closed : (s.next .release).handoff.backlog.closed = true := by rw [released]; rfl
    obtain ⟨more, phase, done⟩ :=
      exists_end_of_closed (h.next .release) (same ▸ finished) closed polite
    exact ⟨.release :: more, phase.trans (same ▸ rfl), done⟩
  cases phase : s.course.engine.phase
  case created => exact absurd phase started
  case ended | failed =>
    obtain ⟨more, same, done⟩ := finish h (phase ▸ rfl)
    rw [phase] at same
    exact ⟨more, same ▸ rfl, done, by simp [HasEnded, same, done]⟩
  case running flush expiry =>
    have stopping := closing.resolve_right fun ended => by cases phase.symm.trans ended
    have turn : s.course.engine.turn? s.course.now =
        some (s.course.engine.finish s.course.now) := by
      simp [Engine.turn?, phase, stopping]
    have ended : (s.next (.engine .turn)).course.engine.phase = .ended := by
      simp [next, Course.next, turn, Engine.phase_finish]
    obtain ⟨more, same, done⟩ := finish (h.next (.engine .turn)) (ended ▸ rfl)
    have ended := same.trans ended
    exact ⟨.engine .turn :: more, ended ▸ rfl, done, fun _ => ⟨ended, done⟩⟩

-- What the last flush makes of this log, after which the engine has ended.
structure Final (settings : EngineSettings) (s : Service) (past : List Table.Event)
    (summary : Summary) : Prop where
  -- Nothing is left to be handled before the flush, and nothing happens to the table after it.
  log        : ∃ timestamp,
    summary = ((Table.after past).flush settings.thresholds timestamp settings.flushInterval).1 ∧
      s.course.log = past ++ [.flush settings.thresholds timestamp settings.flushInterval]
  handled    : Table.metrics past = (Call.accepted s.course.calls).filterMap Command.metric?
  published  : s.handoff.published.getLast? = some summary
  dispatched : ∃ t, s.handoff.dispatched.getLast? = some t ∧
    t.place + 1 = s.handoff.published.length ∧ t.item = summary
  -- Whatever was observed since the flush before is reported, if it has not expired.
  covers     : ∀ k, summary.Covers settings.thresholds k (Life.of k past).recent

namespace Sound

theorem flushes_eq (h : Sound settings room sinks now s) :
    s.course.engine.counts.flushes = s.handoff.published.length := by
  rw [h.recorded.flushes, h.published]
  exact (Table.length_reportsFrom .empty s.course.log).symm

-- When the dispatcher has ended, nothing is left in the backlog, and it knows of all that is lost.
theorem published_eq_dispatched (h : Sound settings room sinks now s)
    (ended : s.handoff.dispatcher.phase = .ended) :
    s.handoff.published.length =
      s.handoff.dispatched.length + s.handoff.dispatcher.missed := by
  have drained := h.handoff.drained (ended ▸ rfl)
  have counted := h.handoff.accounts.counted
  rw [Backlog.front, drained.pending, drained.told] at counted
  exact counted.symm

theorem exists_final (h : Sound settings room sinks now s) (ended : s.HasEnded)
    (flushes : settings.flushOnShutdown = true) :
    ∃ past summary, Final settings s past summary := by
  obtain ⟨inputs, led⟩ := h.led
  obtain ⟨past, timestamp, log⟩ :=
    Course.endsWithFlush_after settings now inputs (led ▸ ended.left) flushes
  rw [← led] at log
  let last := (Table.after past).flush settings.thresholds timestamp settings.flushInterval
  have published : s.handoff.published = Table.reports past ++ [last.1] := by
    rw [h.published, log, Table.reports_append]
    rfl
  have newest : s.handoff.published.getLast? = some last.1 := by simp [published]
  have drained := h.handoff.drained (ended.right ▸ rfl)
  refine ⟨past, last.1, ⟨timestamp, rfl, log⟩, ?handled, newest, ?dispatched, ?covers⟩
  case handled =>
    rw [← h.balanced.metrics_log ended.left, log, Table.metrics_append]
    exact (List.append_nil _).symm
  case dispatched => exact h.handoff.accounts.getLast?_taken drained.pending newest
  case covers     => exact fun k => Table.covers_recent past k ..

end Sound

-- If nothing expires before it is reported, the last summary has everything since the one before.
theorem Final.covers_current {inputs : List MetricCollector.Input} {past : List Table.Event}
    {summary : Summary} (f : Final settings s past summary)
    (led : s.course = Course.after settings now inputs) (slow : settings.SlowExpiry) (k : Series) :
    summary.Covers settings.thresholds k ((Windows.of past).current.filter (·.series = k)) := by
  obtain ⟨_, _, log⟩ := f.log
  have spares := (Course.onSchedule_after slow now inputs).spares
  rw [← led, log] at spares
  exact Table.recent_eq_filter_current spares.of_append k ▸ f.covers k

-- When the engine and the dispatcher have ended, everything that got in has been handled, and every
-- summary that was published was dispatched or is counted as lost. A flush at the end comes after
-- all that, and its summary is the last one that is dispatched; it covers everything that was
-- observed since the flush before and has not expired. Without a flush at the end nothing more is
-- published once the engine is asked to stop. Each sink has got what was dispatched and was closed
-- then. If every sink says some time that it is closed, the service ends, and behind an engine that
-- failed to start the dispatcher does.
theorem shutdown_hands_everything_over (settings : EngineSettings) (room : Nat) (timeout : Span)
    (sinks : List Sink) (now : Moment) (inputs more : List Input) :
    let s := after settings room timeout sinks now inputs
    let later := after settings room timeout sinks now (inputs ++ more)
    let dispatched := s.handoff.dispatched.map Taking.item
    (s.HasEnded →
      ((∀ call ∈ s.course.calls, call.isWaiting = false) ∧
        Table.metrics s.course.log = (Call.accepted s.course.calls).filterMap Command.metric?) ∧
      (s.handoff.published = Table.reports s.course.log ∧
        s.course.engine.counts.flushes = s.handoff.published.length ∧
        s.handoff.published.length = dispatched.length + s.handoff.dispatcher.missed ∧
        dispatched.Sublist s.handoff.published) ∧
      (settings.flushOnShutdown = true →
        ∃ past summary, Final settings s past summary ∧
          (settings.SlowExpiry → ∀ k, summary.Covers settings.thresholds k
            ((Windows.of past).current.filter (·.series = k)))) ∧
      s.handoff.dispatcher.sinks.map Sink.unused = sinks.map Sink.unused ∧
      ∀ sink ∈ s.handoff.dispatcher.sinks, sink.attempts = dispatched ∧
        ∃ clean past, sink.journal = .closed clean :: past ∧ ∀ e ∈ past, e.isClosing = false) ∧
    (s.course.IsClosing → settings.flushOnShutdown = false →
      later.handoff.published = s.handoff.published) ∧
    (s.course.IsClosing → s.course.engine.phase ≠ .created →
      (∀ sink ∈ sinks, sink.leave.delay? ≠ none) →
        ∃ rest, let last := after settings room timeout sinks now (inputs ++ rest)
          last.course.engine.phase.isOver = true ∧ last.handoff.dispatcher.phase = .ended ∧
            (s.course.engine.phase ≠ .failed → last.HasEnded)) := by
  intro s later dispatched
  have h := sound_after settings room timeout sinks now inputs
  refine ⟨fun ended => ?ended, fun closing quiet => published_after closing quiet more, ?ends⟩
  case ended =>
    have nobody : ∀ call ∈ s.course.calls, call.isWaiting = false :=
      Call.pending_eq_nil_iff.mp <|
        h.balanced.pending.trans (h.balanced.waiting_eq_nil (h.balanced.drained ended.left))
    have dispatched_eq := h.published_eq_dispatched ended.right
    obtain ⟨_, histories⟩ := h.handoff.books.of_ended ended.right
    refine ⟨⟨nobody, h.balanced.metrics_log ended.left⟩, ⟨h.published, h.flushes_eq, ?counted,
      ?inOrder⟩, ?final, h.handoff.books.same, fun sink mem => ?sink⟩
    case counted => simpa [dispatched] using dispatched_eq
    case inOrder =>
      exact Taking.map_item_sublist h.handoff.accounts.found h.handoff.accounts.inOrder
    case final =>
      intro flushes
      obtain ⟨past, summary, final⟩ := h.exists_final ended flushes
      obtain ⟨inputs, led⟩ := h.led
      exact ⟨past, summary, final, fun slow => final.covers_current led slow⟩
    case sink =>
      have history := histories sink mem
      exact ⟨history.offers, history.closing_last⟩
  case ends =>
    intro closing started polite
    obtain ⟨rest, ended⟩ := exists_end h closing started polite
    refine ⟨rest, ?_⟩
    rw [after, List.foldl_append]
    exact ended

-- Where expiry is faster than flushing, an observation can be missing at the end.
theorem shutdown_leaves_out_what_has_expired :
    let m : Metric := { name := "requests", kind := .counter, value := 2.0 }
    let settings : EngineSettings :=
      { flushInterval := .ofSeconds 10, expiryInterval := .ofSeconds 1,
        flushInterval_pos := by decide }
    -- Three seconds go by between the observation and the expiry of its series.
    let inputs : List Input :=
      [.engine .start, .engine (.call (.submit m)), .engine .turn,
        .engine (.pass (Moment.origin.movedTo ⟨3000000000⟩)), .engine .turn,
        .engine .stop, .engine .turn, .release, .step 0, .step 0, .step 0, .step 0]
    let s := after settings 4 (.ofSeconds 10) [] .origin inputs
    s.HasEnded ∧ settings.flushOnShutdown = true ∧ ∃ past summary, Final settings s past summary ∧
      ∃ o ∈ (Windows.of past).current, ¬ summary.Covers settings.thresholds o.series
        ((Windows.of past).current.filter (·.series = o.series)) := by
  intro m settings inputs s
  have ended : s.HasEnded := by decide +kernel
  have h := sound_after settings 4 (.ofSeconds 10) [] .origin inputs
  obtain ⟨past, summary, final⟩ := h.exists_final ended rfl
  obtain ⟨timestamp, made, log⟩ := final.log
  have before : past = s.course.log.dropLast := by rw [log, List.dropLast_concat]
  -- The one observation of the run is in the window, and the table has nothing of it any more.
  have left : ∃ o ∈ (Windows.of past).current, o.kind = .counter ∧
      ((Table.after past).counters.find? o.series).isNone = true := by
    rw [before]
    decide +kernel
  obtain ⟨o, mem, kind, gone⟩ := left
  refine ⟨ended, rfl, past, summary, final, o, mem, fun covers => ?_⟩
  have observed : o ∈ Sighting.ofKind .counter
      ((Windows.of past).current.filter (·.series = o.series)) := by
    simp [Sighting.ofKind, mem, kind]
  obtain ⟨c, found, _⟩ := covers.counter (List.ne_nil_of_mem observed)
  have gone := Option.isNone_iff_eq_none.mp gone
  rw [made, Table.flush, Table.summary, OrderedMap.find?_map, gone] at found
  cases found
end Service
end MetricCollector
