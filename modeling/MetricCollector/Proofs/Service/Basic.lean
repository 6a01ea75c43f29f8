import MetricCollector.Proofs.Delivery.Handoff
import MetricCollector.Proofs.Engine.Accounts
import MetricCollector.Proofs.Table.Reports

namespace MetricCollector

-- A flush, and whether the engine ended with it.
structure Flushing where
  time  : Instant
  final : Bool
  deriving DecidableEq

structure Service where
  course  : Course
  handoff : Handoff
  -- One entry for each summary that was published.
  flushes : List Flushing := []
  -- One entry for each summary that was dispatched.
  starts  : List Instant := []

namespace Service

-- What can happen next.
inductive Input
  | engine (i : MetricCollector.Input)
  -- The engine that is over closes the backlog.
  | release
  -- The dispatcher looks at what the sinks have answered so far.
  | look
  | step (spell : Nat)

def create (settings : EngineSettings) (room : Nat) (timeout : Span) (sinks : List Sink)
    (now : Moment) : Service where
  course  := .create settings now
  handoff := .create room timeout sinks now.instant

-- The summaries that the engine publishes with the next input.
def news (s : Service) (i : MetricCollector.Input) : List Summary :=
  (s.course.effects i).filterMap Effect.summary?

-- What cannot happen at this point changes nothing: the backlog is closed by nobody but an engine
-- that is over.
def next (s : Service) : Input → Service
  | .engine i   =>
    let course := s.course.next i
    let handoff := s.handoff.next (.pass course.now.instant)
    { s with
      course,
      handoff := ((s.news i).map Handoff.Input.publish).foldl Handoff.next handoff,
      flushes := s.flushes ++
        (s.news i).map fun _ => ⟨course.now.instant, course.engine.phase.isEnded⟩ }
  | .release    =>
    if s.course.engine.phase.isOver then { s with handoff := s.handoff.next .close } else s
  | .look       => { s with handoff := s.handoff.next .look }
  | .step spell =>
    let handoff := s.handoff.next (.step spell)
    let begun := handoff.dispatched.length - s.handoff.dispatched.length
    { s with handoff, starts := s.starts ++ List.replicate begun s.handoff.now }

-- Where inputs lead to.
def after (settings : EngineSettings) (room : Nat) (timeout : Span) (sinks : List Sink)
    (now : Moment) (inputs : List Input) : Service :=
  inputs.foldl next (create settings room timeout sinks now)

@[simp]
theorem after_append_singleton (settings : EngineSettings) (room : Nat) (timeout : Span)
    (sinks : List Sink) (now : Moment) (inputs : List Input) (i : Input) :
    after settings room timeout sinks now (inputs ++ [i]) =
      (after settings room timeout sinks now inputs).next i := by
  simp [after]

end Service

namespace Engine

variable {e : Engine} {now : Moment}

theorem summaries_handleAll (e : Engine) (now : Moment) (cs : List Command) :
    (e.handleAll now cs).1.filterMap Effect.summary? = [] := by
  induction cs generalizing e
  case nil => rfl
  case cons c cs ih =>
    have first : (e.handle now c).1.filterMap Effect.summary? = [] := by cases c <;> rfl
    simp [handleAll, List.filterMap_append, first, ih]

-- What the engine publishes is what the table reports.
theorem summaries_finish (e : Engine) (now : Moment) :
    (e.finish now).1.filterMap Effect.summary? = Table.reportsFrom e.table (e.lastEvents now) := by
  have drained := follows_drained e now
  have quiet : Table.reportsFrom e.table (e.inbox.queued.map (Command.event now)) = [] := by
    refine Table.reportsFrom_eq_nil fun event mem => ?_
    obtain ⟨c, _, rfl⟩ := List.mem_map.mp mem
    exact c.isFlush_event now
  rw [finish_fst, List.filterMap_append, summaries_handleAll, lastEvents,
    Table.reportsFrom_append, quiet, ← drained.table]
  split
  case isTrue =>
    rw [flush, drained.settings]
    rfl
  case isFalse => rfl

theorem Turn.summaries {log : List Table.Event} {r : List Effect × Engine}
    (t : Turn e now log r) :
    r.1.filterMap Effect.summary? = Table.reportsFrom e.table log := by
  cases t
  case finish                    => exact summaries_finish e now
  case flush                     => rfl
  case expire                    => rfl
  case handle command _ _ _ _ _ _ => cases command <;> rfl

end Engine

-- Publishing has no effect on anything but the backlog, as long as it is open.
theorem Handoff.foldl_publish {h : Handoff} (opened : h.backlog.closed = false)
    (summaries : List Summary) :
    (summaries.map Input.publish).foldl next h =
      { h with
        backlog   := summaries.foldl Backlog.publish h.backlog,
        published := h.published ++ summaries } := by
  induction summaries generalizing h
  case nil => simp
  case cons s summaries ih =>
    have still : (h.backlog.publish s).closed = false := by
      unfold Backlog.publish
      split <;> exact opened
    rw [List.map_cons, List.foldl_cons]
    have step : h.next (.publish s) =
        { h with backlog := h.backlog.publish s, published := h.published ++ [s] } := by
      simp [next, opened]
    rw [step, ih still]
    simp

theorem Backlog.closed_foldl_publish {α : Type} (b : Backlog α) (as : List α) :
    (as.foldl publish b).closed = b.closed := by
  induction as generalizing b
  case nil => rfl
  case cons a as ih =>
    rw [List.foldl_cons, ih, publish]
    split <;> rfl

theorem Handoff.Sound.foldl {room : Nat} {sinks : List Sink} {h : Handoff} (s : Sound room sinks h)
    (inputs : List Input) : Sound room sinks (inputs.foldl Handoff.next h) := by
  induction inputs generalizing h
  case nil              => exact s
  case cons i inputs ih => exact ih (s.next i)

namespace Service

-- A dispatcher that has no step to take changes nothing.
theorem next_step_of_rests {s : Service} {spell : Nat}
    (rests : s.handoff.dispatcher.step? s.handoff.backlog s.handoff.now spell = none) :
    s.next (.step spell) = s := by
  simp [next, Handoff.next, rests]

-- What a step of the dispatcher does.
theorem next_step {s : Service} {spell : Nat} {d : Dispatcher} {b : Backlog Summary}
    (step : s.handoff.dispatcher.step? s.handoff.backlog s.handoff.now spell = some (d, b)) :
    s.next (.step spell) =
      { s with
        handoff :=
          { s.handoff with
            dispatcher := d, backlog := b,
            dispatched := s.handoff.dispatched ++ s.handoff.taken d.phase },
        starts := s.starts ++ List.replicate d.phase.summaries.length s.handoff.now } := by
  simp [next, Handoff.next, step, Handoff.taken]

-- What is true at any time.
structure Sound (settings : EngineSettings) (room : Nat) (sinks : List Sink) (now : Moment)
    (s : Service) : Prop where
  led       : ∃ inputs, s.course = Course.after settings now inputs
  handoff   : Handoff.Sound room sinks s.handoff
  together  : s.handoff.now = s.course.now.instant
  released  : s.handoff.backlog.closed = true → s.course.engine.phase.isOver = true
  published : s.handoff.published = Table.reports s.course.log
  flushed   : s.flushes.length = s.handoff.published.length
  started   : s.starts.length = s.handoff.dispatched.length

namespace Sound

variable {settings : EngineSettings} {room : Nat} {sinks : List Sink} {now : Moment} {s : Service}

theorem recorded (h : Sound settings room sinks now s) : Course.Recorded settings s.course := by
  obtain ⟨inputs, led⟩ := h.led
  exact led ▸ Course.recorded_after settings now inputs

theorem balanced (h : Sound settings room sinks now s) : Course.Balanced settings s.course := by
  obtain ⟨inputs, led⟩ := h.led
  exact led ▸ Course.balanced_after settings now inputs

theorem create (settings : EngineSettings) (room : Nat) (timeout : Span) (sinks : List Sink)
    (now : Moment) : Sound settings room sinks now (create settings room timeout sinks now) where
  led       := ⟨[], rfl⟩
  handoff   := .create room timeout sinks now.instant
  together  := rfl
  released  := fun closed => by cases closed
  published := rfl
  flushed   := rfl
  started   := rfl

-- An engine publishes something only while it runs.
theorem opened (h : Sound settings room sinks now s) {i : MetricCollector.Input}
    (published : s.news i ≠ []) : s.handoff.backlog.closed = false := by
  rw [← Bool.not_eq_true]
  intro closed
  refine published ?_
  cases i <;> simp [news, Course.effects, Engine.turn?_of_isOver (h.released closed)]

theorem reports_next (h : Sound settings room sinks now s) (i : MetricCollector.Input) :
    Table.reports (s.course.next i).log = Table.reports s.course.log ++ s.news i := by
  cases i <;> simp only [Course.next, news, Course.effects, List.filterMap_nil, List.append_nil]
  case turn =>
    cases taken : s.course.engine.turn? s.course.now
    case none   => exact (List.append_nil _).symm
    case some r =>
      have summaries := (Engine.turn_of_turn? taken).summaries
      rw [Table.reports_append, ← h.recorded.table]
      exact congrArg _ summaries.symm
  case pass | start | call | leave => split <;> rfl

-- What an input to the engine does.
theorem next_engine (h : Sound settings room sinks now s) (i : MetricCollector.Input) :
    s.next (.engine i) =
      { s with
        course  := s.course.next i,
        handoff :=
          { s.handoff with
            now       := (s.course.next i).now.instant,
            backlog   := (s.news i).foldl Backlog.publish s.handoff.backlog,
            published := s.handoff.published ++ s.news i },
        flushes := s.flushes ++ (s.news i).map fun _ =>
          ⟨(s.course.next i).now.instant, (s.course.next i).engine.phase.isEnded⟩ } := by
  have le := s.course.now_le_next i
  have passed : s.handoff.next (.pass (s.course.next i).now.instant) =
      { s.handoff with now := (s.course.next i).now.instant } := by
    simp [Handoff.next, h.together, le]
  simp only [next, passed]
  by_cases quiet : s.news i = []
  case pos => simp [quiet]
  case neg =>
    have opened : { s.handoff with now := (s.course.next i).now.instant }.backlog.closed = false :=
      h.opened quiet
    rw [Handoff.foldl_publish opened]

theorem engine (h : Sound settings room sinks now s) (i : MetricCollector.Input) :
    Sound settings room sinks now (s.next (.engine i)) := by
  obtain ⟨inputs, led⟩ := h.led
  refine ⟨⟨inputs ++ [i], ?led⟩, (h.handoff.next _).foldl _, ?together, ?released, ?published,
    ?flushed, ?started⟩
  case led       => rw [Course.after_append_singleton, ← led]; rfl
  case together  => rw [h.next_engine]
  case published => rw [h.next_engine, h.reports_next, h.published]
  case released  =>
    rw [h.next_engine, Backlog.closed_foldl_publish]
    exact fun closed => Course.phase_next_of_isOver (h.released closed) i ▸ h.released closed
  case flushed => simp [h.next_engine, h.flushed]
  case started => rw [h.next_engine, h.started]

theorem step (h : Sound settings room sinks now s) (spell : Nat) :
    Sound settings room sinks now (s.next (.step spell)) := by
  cases step : s.handoff.dispatcher.step? s.handoff.backlog s.handoff.now spell
  case none => exact (next_step_of_rests step).symm ▸ h
  case some r =>
    have move := Dispatcher.move_of_step? step
    rw [next_step step]
    refine ⟨h.led, h.handoff.step move, h.together, ?released, h.published, h.flushed, ?started⟩
    case released => cases move <;> exact h.released
    case started  => simp [Handoff.taken, h.started]

theorem next (h : Sound settings room sinks now s) (i : Input) :
    Sound settings room sinks now (s.next i) := by
  cases i
  case engine i => exact h.engine i
  case release =>
    simp only [Service.next]
    split
    case isFalse       => exact h
    case isTrue finished =>
      exact ⟨h.led, h.handoff.next .close, h.together, fun _ => finished, h.published, h.flushed,
        h.started⟩
  case look =>
    exact ⟨h.led, h.handoff.next .look, h.together, h.released, h.published, h.flushed, h.started⟩
  case step spell => exact h.step spell

end Sound

theorem sound_after (settings : EngineSettings) (room : Nat) (timeout : Span) (sinks : List Sink)
    (now : Moment) (inputs : List Input) :
    Sound settings room sinks now (after settings room timeout sinks now inputs) := by
  induction inputs using List.reverseRecOn
  case nil                          => exact .create settings room timeout sinks now
  case append_singleton inputs i ih => exact (after_append_singleton ..).symm ▸ ih.next i

end Service
end MetricCollector
