import MetricCollector.Proofs.Engine.Ending
import MetricCollector.Proofs.Service.Basic

namespace MetricCollector

-- When the next ticks are due.
def Engine.ticks (e : Engine) : List Instant :=
  match e.phase with
  | .running flush expiry => flush.due :: (expiry.map Ticker.due).toList
  | _                     => []

-- Since when a summary is being delivered.
def DispatcherPhase.since? : DispatcherPhase → Option Instant
  | delivering o => some o.since
  | _            => none

namespace Service

-- Nothing can be done without time moving on.
def IsAtRest (s : Service) : Prop :=
  s.course.engine.turn? s.course.now = none ∧
  s.handoff.dispatcher.step? s.handoff.backlog s.handoff.now 0 = none ∧
  (s.course.engine.phase.isOver = true → s.handoff.backlog.closed = true)

instance (s : Service) : Decidable s.IsAtRest :=
  inferInstanceAs (Decidable (_ ∧ _ ∧ _))

-- The instants that are not to be missed. Sinks that answer before their time is up need not be
-- noticed before.
def deadlines (s : Service) : List Instant :=
  let dispatcher := s.handoff.dispatcher
  s.course.engine.ticks ++
    (dispatcher.phase.since?.map fun t => t.after (dispatcher.limit t)).toList

-- Whether something can happen at this point of a run that is on time.
def admits (s : Service) : Input → Bool
  | .engine (.pass later) => s.IsAtRest ∧ ∀ t ∈ s.deadlines, later.instant ≤ t
  | .engine .stop         => s.IsAtRest
  | .engine .leave        => s.IsAtRest
  | _                     => true

def nextOnTime (s : Service) (i : Input) : Service :=
  if s.admits i then s.next i else s

-- The service with timers that go off just when their time is over.
def withExactTimers (s : Service) : Service :=
  let dispatcher := { s.handoff.dispatcher with timers := .exact }
  { s with handoff := { s.handoff with dispatcher } }

-- Where inputs lead to if everything is done on time.
def onTime (settings : EngineSettings) (room : Nat) (timeout : Span) (sinks : List Sink)
    (now : Moment) (inputs : List Input) : Service :=
  inputs.foldl nextOnTime (create settings room timeout sinks now).withExactTimers

@[simp]
theorem onTime_append_singleton (settings : EngineSettings) (room : Nat) (timeout : Span)
    (sinks : List Sink) (now : Moment) (inputs : List Input) (i : Input) :
    onTime settings room timeout sinks now (inputs ++ [i]) =
      (onTime settings room timeout sinks now inputs).nextOnTime i := by
  simp [onTime]

variable {settings : EngineSettings} {room : Nat} {sinks : List Sink} {now : Moment} {s : Service}

-- How timers go off is of no importance to what is handed over.
theorem Sound.withExactTimers (h : Sound settings room sinks now s) :
    Sound settings room sinks now s.withExactTimers := by
  obtain ⟨capacity, accounts, ⟨same, offers, histories, failures⟩, drained⟩ := h.handoff
  exact ⟨h.led, ⟨capacity, accounts, ⟨same, offers, histories, failures⟩, drained⟩, h.together,
    h.released, h.published, h.flushed, h.started⟩

theorem Sound.nextOnTime (h : Sound settings room sinks now s) (i : Input) :
    Sound settings room sinks now (s.nextOnTime i) := by
  unfold Service.nextOnTime
  split
  case isTrue  => exact h.next i
  case isFalse => exact h

theorem Sound.onTime (h : Sound settings room sinks now s) (inputs : List Input) :
    Sound settings room sinks now (inputs.foldl Service.nextOnTime s) := by
  induction inputs generalizing s
  case nil              => exact h
  case cons i inputs ih => exact ih (h.nextOnTime i)

-- What the service does on its own.
def Input.isTask : Input → Bool
  | .engine .turn      => true
  | .engine (.await _) => true
  | .engine _          => false
  | .release           => true
  | .look              => true
  | .step _            => true

-- The engine comes to the end of its work.
theorem exists_turns (s : Service) :
    ∃ tasks : List Input, (∀ i ∈ tasks, i.isTask = true) ∧
      let s' := tasks.foldl nextOnTime s
      s'.course.now = s.course.now ∧ s'.course.engine.turn? s'.course.now = none := by
  induction work : s.course.engine.workload s.course.now.instant using Nat.strong_induction_on
    generalizing s
  case h work ih =>
    subst work
    cases taken : s.course.engine.turn? s.course.now
    case none => exact ⟨[], by simp, rfl, taken⟩
    case some r =>
      let s' := s.nextOnTime (.engine .turn)
      have time : s'.course.now = s.course.now := by
        show (s.course.next .turn).now = _
        simp only [Course.next, taken]
      have engine : s'.course.engine = r.2 := by
        show (s.course.next .turn).engine = _
        simp only [Course.next, taken]
      have less := Engine.turn?_workload_lt taken
      obtain ⟨tasks, own, later, rests⟩ := ih _ less s' (by rw [time, engine])
      exact ⟨.engine .turn :: tasks, List.forall_mem_cons.mpr ⟨rfl, own⟩, later.trans time, rests⟩

-- The dispatcher comes to the end of its work, whatever the engine is about to do.
theorem exists_steps (s : Service) :
    ∃ tasks : List Input, (∀ i ∈ tasks, i.isTask = true) ∧
      let s' := tasks.foldl nextOnTime s
      s'.course = s.course ∧ s'.handoff.backlog.closed = s.handoff.backlog.closed ∧
        s'.handoff.dispatcher.step? s'.handoff.backlog s'.handoff.now 0 = none := by
  induction work : s.handoff.dispatcher.workload s.handoff.backlog using Nat.strong_induction_on
    generalizing s
  case h work ih =>
    subst work
    cases step : s.handoff.dispatcher.step? s.handoff.backlog s.handoff.now 0
    case none => exact ⟨[], by simp, rfl, rfl, step⟩
    case some r =>
      let s' := s.nextOnTime (.step 0)
      have moved : s' = _ := next_step step
      have closed : s'.handoff.backlog.closed = s.handoff.backlog.closed := by
        rw [moved]
        cases Dispatcher.move_of_step? step <;> rfl
      have course : s'.course = s.course := by rw [moved]
      have less := Dispatcher.step?_workload_lt step
      obtain ⟨tasks, own, later, still, rests⟩ := ih _ less s' (by rw [moved])
      exact ⟨.step 0 :: tasks, List.forall_mem_cons.mpr ⟨rfl, own⟩, later.trans course,
        still.trans closed, rests⟩

-- The service comes to rest before time moves on.
theorem exists_isAtRest (s : Service) :
    ∃ tasks : List Input, (∀ i ∈ tasks, i.isTask = true) ∧
      (tasks.foldl nextOnTime s).course.now = s.course.now ∧
      (tasks.foldl nextOnTime s).IsAtRest := by
  obtain ⟨turns, own, time, engine⟩ := s.exists_turns
  let worked := turns.foldl nextOnTime s
  let released := worked.nextOnTime .release
  have same : released.course = worked.course := by
    show (worked.next .release).course = _
    simp only [next]
    split <;> rfl
  have closed (finished : released.course.engine.phase.isOver = true) :
      released.handoff.backlog.closed = true := by
    rw [same] at finished
    show (worked.next .release).handoff.backlog.closed = true
    simp only [next, finished]
    rfl
  obtain ⟨steps, own', course, still, dispatcher⟩ := released.exists_steps
  refine ⟨turns ++ .release :: steps, ?own, ?time, ?rest⟩
  case own => simpa [or_imp, forall_and, Input.isTask] using ⟨own, own'⟩
  case time =>
    rw [List.foldl_append, List.foldl_cons, course, same]
    exact time
  case rest =>
    rw [List.foldl_append, List.foldl_cons]
    refine ⟨?engine, dispatcher, ?closed⟩
    case engine =>
      rw [course, same]
      exact engine
    case closed =>
      rw [course, still]
      exact closed

end Service
end MetricCollector
