import MetricCollector.Daemon
import MetricCollector.Proofs.Service.Conformance
import MetricCollector.Proofs.Service.Idle
import MetricCollector.Proofs.Settings.Acceptance
import MetricCollector.Proofs.Settings.Checks

namespace MetricCollector

namespace Engine

variable {e : Engine}

-- An engine that is over does nothing.
theorem work_of_isOver (finished : e.phase.isOver = true) (now : Moment) (spell : Nat) :
    e.work now spell = ([], e) := by
  have still : e.await now.instant spell = e := by
    unfold await
    split
    case h_1 running => cases running ▸ finished
    case h_2         => rfl
  rw [work, spellLimit, take, still]
  simp only [turn?_of_isOver finished]

-- An engine that has failed to start, with nobody let in.
structure IsLost (e : Engine) : Prop where
  failed : e.phase = .failed
  closed : e.inbox.closed = true

theorem IsLost.isOver (h : e.IsLost) : e.phase.isOver = true :=
  h.failed ▸ rfl

theorem IsLost.submit_eq (h : e.IsLost) (m : Metric) : e.submit m = (.refused .stopped, e) := by
  cases policy : e.settings.overflowPolicy <;> simp [submit, policy, send, trySend, h.closed]

theorem isLost_start {now : Instant} (cannot : e.canRun now = false) : (e.start now).IsLost := by
  rw [start, if_neg (Bool.eq_false_iff.mp cannot)]
  exact ⟨rfl, rfl⟩

-- Setting an alarm does not change when a tick is due.
theorem ticks_await (e : Engine) (now : Instant) (spell : Nat) :
    (e.await now spell).ticks = e.ticks := by
  unfold await
  split
  case h_2 => rfl
  case h_1 flush expiry running =>
    split
    case isTrue  => rfl
    case isFalse =>
      cases expiry
      case none        => simp only [ticks, running]; rfl
      case some ticker =>
        simp only [ticks, running, Option.map_some]
        split <;> rfl

-- The first tick of each ticker comes one period after the start.
theorem ticks_run (e : Engine) (now : Instant) :
    (e.run now).ticks = now.after e.settings.flushInterval ::
      if e.settings.expiryInterval.isZero then [] else [now.after e.settings.expiryInterval] := by
  simp only [run, ticks, Span.isZero]
  split
  case isTrue pos   => simp [pos.ne', Ticker.start]
  case isFalse zero => simp [Nat.eq_zero_of_not_pos zero, Ticker.start]

end Engine

namespace Collector

variable {settings : EngineSettings} {c c' : Collector}

theorem has_turns (h : c.engine.Has settings) : c.runEngine.runOutlet.engine.Has settings :=
  h.take c.now c.spell Engine.spellLimit

theorem has_alternate (h : c.engine.Has settings) : c.alternate.engine.Has settings := by
  fun_induction alternate c
  case case1 ih => exact ih (has_turns h)
  case case2    => exact has_turns h

theorem has_settle (h : c.engine.Has settings) : c.settle.engine.Has settings := by
  unfold settle
  split <;> exact has_alternate h

theorem Operation.has {i : Input} (operation : c.Operation i c') (h : c.engine.Has settings) :
    c'.engine.Has settings := by
  cases operation
  case start  => exact has_settle (h.start _)
  case arrive => exact has_settle h
  case submit m _ served =>
    show (c.hand m).2.settle.engine.Has settings
    rw [hand_of_served served]
    exact has_settle (h.asked (Engine.asked_ask c.engine (.submit m)))
  case stop started =>
    rw [endEngine_of_started { c.engine with stopping := true } started]
    exact has_settle (h.of_phase rfl rfl rfl)

theorem engine_alternate_of_isOver (finished : c.engine.phase.isOver = true) :
    c.alternate.engine = c.engine := by
  have same : c.runEngine.runOutlet.engine = c.engine :=
    congrArg Prod.snd (Engine.work_of_isOver finished c.now c.spell)
  have stuck : ¬ c.runEngine.runOutlet.engine.workload c.runEngine.runOutlet.now.instant <
      c.engine.workload c.now.instant := same ▸ Nat.lt_irrefl _
  rw [alternate, dif_neg stuck]
  exact same

theorem isLost_settle (h : c.engine.IsLost) : c.settle.engine.IsLost := by
  have finished := h.isOver
  unfold settle
  split
  case isTrue  => exact (@engine_alternate_of_isOver c.runOutlet finished).symm ▸ h
  case isFalse => exact (engine_alternate_of_isOver finished).symm ▸ h

theorem isLost_start (cannot : c.engine.canRun c.now.instant = false) : c.start.engine.IsLost :=
  isLost_settle (Engine.isLost_start cannot)

-- What has failed to start is not brought back.
theorem Operation.isLost {i : Input} (operation : c.Operation i c') (h : c.engine.IsLost) :
    c'.engine.IsLost := by
  cases operation
  case start created => cases created.symm.trans h.failed
  case arrive        => exact isLost_settle h
  case submit m _ served =>
    show (c.hand m).2.settle.engine.IsLost
    rw [hand_of_served served, h.submit_eq]
    exact isLost_settle h
  case stop started =>
    rw [endEngine_of_started { c.engine with stopping := true } started]
    exact isLost_settle ⟨h.failed, h.closed⟩

-- What every operation preserves is true however a collector goes on.
theorem LeadsTo.preserves {P : Engine → Prop} (led : c.LeadsTo c')
    (step : ∀ {c c' : Collector} {i}, c.Operation i c' → P c.engine → P c'.engine)
    (h : P c.engine) : P c'.engine := by
  induction led
  case refl => exact h
  case tail operation ih =>
    obtain ⟨_, operation⟩ := operation
    exact step operation ih

-- An engine that can run has nothing to do at first but to wait for its ticks.
theorem running_start (created : c.engine = .create settings)
    (can : c.engine.canRun c.now.instant = true) :
    (∃ flush expiry, c.start.engine.phase = .running flush expiry) ∧
      c.start.engine.ticks = c.now.instant.after settings.flushInterval ::
        if settings.expiryInterval.isZero then []
        else [c.now.instant.after settings.expiryInterval] := by
  let running := (Engine.create settings).run c.now.instant
  have runs : c.start = { c with engine := running }.settle := by
    rw [start, Engine.start_of_canRun can, created]
  have kept := @keeps_settle { c with engine := running } (Engine.attends_run rfl rfl) rfl
  obtain ⟨flush, expiry, phase, _⟩ := kept.attends.tickers
  obtain ⟨spell, awaits⟩ := kept.engine
  refine ⟨⟨flush, expiry, runs ▸ phase⟩, ?_⟩
  rw [runs, awaits, Engine.ticks_await]
  exact Engine.ticks_run ..

end Collector

-- The settings of the engine are those that were set.
structure Settings.Sets (s : Settings) (e : EngineSettings) : Prop where
  flushInterval   : e.flushInterval = s.flushInterval
  expiryInterval  : e.expiryInterval = s.expiryInterval
  thresholds      : e.thresholds.map (·.value) = s.thresholds
  queueCapacity   : e.queueCapacity = s.queueCapacity
  overflowPolicy  : e.overflowPolicy = s.overflowPolicy
  flushOnShutdown : e.flushOnShutdown = s.flushOnShutdown

theorem Settings.sets_of_engine {s : Settings} {e : EngineSettings} (h : s.engine = .ok e) :
    s.Sets e := by
  unfold engine at h
  obtain ⟨thresholds, valid, h⟩ := exists_of_bind_eq_ok h
  have values := validThresholds_eq_ok_iff.mp valid
  split at h
  case isFalse => cases h
  case isTrue  =>
    split at h
    case isFalse => cases h
    case isTrue  =>
      cases h
      exact ⟨rfl, rfl, values, rfl, rfl, rfl⟩

theorem EngineSettings.check_eq_ok (e : EngineSettings) : e.check = .ok () := by
  have flush : e.flushInterval.isZero = false := by
    simpa [Span.isZero] using e.flushInterval_pos.ne'
  rw [check, flush, if_neg (by decide), if_neg e.queueCapacity_pos.ne']
  rfl

namespace Daemon

variable {s : Settings}

theorem create_eq (s : Settings) : create s = s.validate.map fun _ => { settings := s } := by
  unfold create
  cases s.validate <;> rfl

theorem start_eq {e : EngineSettings} (h : s.engine = .ok e) (sinks : List Sink) (now : Moment) :
    start { settings := s } sinks now =
      .ok { Collector.create s e sinks with now }.start := by
  simp only [start, h, ok_bind, e.check_eq_ok]
  rfl

-- What is accepted is just what meets every requirement, and the first requirement that is not met
-- is what is told. With what is accepted the daemon starts. If the first ticks come at instants
-- that a clock can show, its engine runs, and it does what was set for as long as it runs. If not,
-- the engine fails for good and everybody is turned away.
theorem create_settles_start (s : Settings) :
    (s.validate = .ok () ↔
      (∀ x ∈ s.thresholds, IsPercentage x) ∧ 0 < s.flushInterval.nanoseconds ∧
      1 ≤ s.queueCapacity ∧ 1 ≤ s.receiverWorkers ∧ 0 < s.sinkTimeout.nanoseconds ∧
      s.sinkTimeout ≤ s.flushInterval ∧ 1 ≤ s.summaryBacklog) ∧
    (∀ e, s.validate = .error e ↔
      ∃ before p after, s.checks = before ++ (p, e) :: after ∧ (∀ c ∈ before, c.1) ∧ ¬p) ∧
    create s = s.validate.map (fun _ => { settings := s }) ∧
    (∀ d, create s = .ok d → ∀ sinks now, ∃ e c,
      d.settings.engine = .ok e ∧ s.Sets e ∧ d.start sinks now = .ok c ∧
      (∀ c', c.LeadsTo c' → c'.engine.RunsWith e) ∧
      let flush := now.instant.after s.flushInterval
      let expiry := now.instant.after s.expiryInterval
      if flush.canBeShown ∧ expiry.canBeShown then
        (∃ flush expiry, c.engine.phase = .running flush expiry) ∧
          c.engine.ticks = flush :: if s.expiryInterval.isZero then [] else [expiry]
      else ∀ c', c.LeadsTo c' → c'.engine.phase = .failed ∧
        ∀ m, (c'.engine.submit m).1 = .refused .stopped) := by
  refine ⟨?accepted, fun e => s.checked_validate.eq_error_iff, create_eq s, ?starts⟩
  case accepted =>
    have ok : s.validate = .ok () ↔ ∃ u, s.validate = .ok u := ⟨fun h => ⟨(), h⟩, fun ⟨_, h⟩ => h⟩
    rw [ok, s.checked_validate.exists_eq_ok_iff]
    simp [Settings.checks, Settings.engineChecks, or_imp, forall_and]
  case starts =>
    intro d created sinks now
    rw [create_eq] at created
    obtain ⟨_, valid⟩ : ∃ u, s.validate = .ok u := by
      cases checked : s.validate
      case ok u    => exact ⟨u, rfl⟩
      case error e =>
        rw [checked] at created
        cases created
    rw [valid] at created
    cases created
    obtain ⟨e, accepted⟩ := Settings.exists_accepted valid
    have sets := Settings.sets_of_engine accepted.engine
    let c : Collector := { Collector.create s e sinks with now }
    have has : c.start.engine.Has e := (Collector.Operation.start rfl).has (.create e)
    refine ⟨e, c.start, accepted.engine, sets, start_eq accepted.engine sinks now,
      fun c' led => (led.preserves Collector.Operation.has has).runsWith, ?_⟩
    have can : c.engine.canRun now.instant = true ↔
        (now.instant.after e.flushInterval).canBeShown ∧
          (now.instant.after e.expiryInterval).canBeShown := Bool.and_eq_true_iff
    simp only [← sets.flushInterval, ← sets.expiryInterval]
    split
    case isTrue shown   => exact Collector.running_start rfl (can.mpr shown)
    case isFalse hidden =>
      intro c' led
      have cannot : c.engine.canRun now.instant = false := Bool.eq_false_iff.mpr (mt can.mp hidden)
      have still := led.preserves Collector.Operation.isLost (Collector.isLost_start cannot)
      exact ⟨still.failed, fun m => congrArg Prod.fst (still.submit_eq m)⟩

-- The default settings, and those without a place in the queue.
theorem create_settles_start_at_defaults :
    (∃ d, create {} = .ok d ∧ ∃ e c, d.settings.engine = .ok e ∧ d.start [] .origin = .ok c ∧
      ∃ flush expiry, c.engine.phase = .running flush expiry) ∧
    create { queueCapacity := 0 } = .error (.setting .queueCapacityZero) := by
  have ninety : IsPercentage 90.0 := isThreshold_iff_isPercentage.mp (by decide +kernel)
  constructor
  case left =>
    have valid : Settings.validate {} = .ok () :=
      (create_settles_start {}).1.mpr ⟨by simpa using ninety, by decide, by decide, by decide,
        by decide, by decide, by decide⟩
    have created : create {} = .ok { settings := {} } := by rw [create_eq, valid]; rfl
    obtain ⟨e, c, engine, _, started, _, runs⟩ :=
      (create_settles_start {}).2.2.2 _ created [] .origin
    rw [if_pos ⟨by decide, by decide⟩] at runs
    exact ⟨_, created, e, c, engine, started, runs.left⟩
  case right =>
    have refused :
        Settings.validate { queueCapacity := 0 } = .error (.setting .queueCapacityZero) :=
      ((create_settles_start _).2.1 _).mpr
        ⟨[(IsPercentage 90.0, _), (_, _)], _, _, rfl, by simpa using ⟨ninety, by decide⟩,
          by decide⟩
    rw [create_eq, refused]
    rfl

-- Settings that are accepted, with which no engine runs.
theorem create_accepts_what_cannot_run :
    let s : Settings := { flushInterval := .ofSeconds 18446744073709551615 }
    create s = .ok { settings := s } ∧ ∃ c, start { settings := s } [] .origin = .ok c ∧
      c.engine.phase = .failed := by
  intro s
  have valid : s.validate = .ok () := rfl
  obtain ⟨e, accepted⟩ := Settings.exists_accepted valid
  have late : (Moment.origin.instant.after e.flushInterval).canBeShown = false := by
    rw [(Settings.sets_of_engine accepted.engine).flushInterval]
    decide +kernel
  have cannot : (Engine.create e).canRun Moment.origin.instant = false := by
    rw [Engine.canRun, Engine.create, late, Bool.false_and]
  have lost : ({ Collector.create s e [] with now := .origin } : Collector).start.engine.IsLost :=
    Collector.isLost_start cannot
  exact ⟨by rw [create_eq, valid]; rfl, _, start_eq accepted.engine [] .origin, lost.failed⟩

end Daemon
end MetricCollector
