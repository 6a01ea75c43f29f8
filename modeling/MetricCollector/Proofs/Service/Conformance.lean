import MetricCollector.Proofs.Engine.Ending
import MetricCollector.Proofs.Service.Basic

namespace MetricCollector.Engine

variable {settings : EngineSettings} {e : Engine}

-- An engine with these settings, a queue of that size and tickers that tick that often.
structure Has (settings : EngineSettings) (e : Engine) : Prop where
  same     : e.settings = settings
  capacity : e.inbox.capacity = settings.queueCapacity
  flush    : ∀ flush expiry, e.phase = .running flush expiry →
    flush.period = settings.flushInterval
  expiry   : ∀ flush expiry, e.phase = .running flush expiry →
    expiry.map Ticker.period =
      if settings.expiryInterval.isZero then none else some settings.expiryInterval

-- An engine that does what these settings say. What is said of an end concerns the table as it is
-- when everything in the queue has been handled.
structure RunsWith (settings : EngineSettings) (e : Engine) : Prop extends Has settings e where
  admits  : ∀ m, (e.submit m).1 =
    if e.inbox.closed then .refused .stopped
    else if e.inbox.queued.length < settings.queueCapacity then .queued
    else match settings.overflowPolicy with
      | .block => .waiting
      | .drop  => .refused .queueOverflow
  reports : ∀ now,
    let reported := e.table.flush settings.thresholds now.timestamp settings.flushInterval
    (e.flush now).1 = [.published reported.1] ∧ (e.flush now).2.table = reported.2
  expires : ∀ now, (e.expire now).table = (e.table.expire now settings.expiryInterval).2
  ends    : ∀ now, (e.finish now).1.filterMap Effect.summary? =
    if settings.flushOnShutdown then
      let drained := (e.drained now).table
      [(drained.flush settings.thresholds now.timestamp settings.flushInterval).1]
    else []
  turns   : ∀ now r, e.turn? now = some r → Turn e now (e.events now) r
  rests   : ∀ now flush expiry, e.phase = .running flush expiry → e.turn? now = none →
    flush.isReady now.instant = false ∧ ∀ ticker ∈ expiry, ticker.isReady now.instant = false

namespace Has

theorem create (settings : EngineSettings) : Has settings (.create settings) :=
  ⟨rfl, rfl, nofun, nofun⟩

-- What does not touch the tickers.
theorem of_phase (h : Has settings e) {e' : Engine} (same : e'.settings = e.settings)
    (capacity : e'.inbox.capacity = e.inbox.capacity) (phase : e'.phase = e.phase) :
    Has settings e' :=
  ⟨same.trans h.same, capacity.trans h.capacity, phase ▸ h.flush, phase ▸ h.expiry⟩

-- The tickers may tick, but keep their periods.
theorem of_tickers (h : Has settings e) {e' : Engine} {flush flush' : Ticker}
    {expiry expiry' : Option Ticker} (running : e.phase = .running flush expiry)
    (running' : e'.phase = .running flush' expiry') (same : e'.settings = e.settings)
    (capacity : e'.inbox.capacity = e.inbox.capacity) (flushes : flush'.period = flush.period)
    (expires : expiry'.map Ticker.period = expiry.map Ticker.period) : Has settings e' := by
  refine ⟨same.trans h.same, capacity.trans h.capacity, ?flush, ?expiry⟩
  case flush =>
    intro _ _ phase
    cases running'.symm.trans phase
    exact flushes.trans (h.flush _ _ running)
  case expiry =>
    intro _ _ phase
    cases running'.symm.trans phase
    exact expires.trans (h.expiry _ _ running)

theorem of_isOver (h : Has settings e) {e' : Engine} (same : e'.settings = e.settings)
    (capacity : e'.inbox.capacity = e.inbox.capacity) (finished : e'.phase.isOver = true) :
    Has settings e' := by
  have other {flush expiry} : e'.phase ≠ .running flush expiry := by
    intro running
    rw [running] at finished
    cases finished
  exact ⟨same.trans h.same, capacity.trans h.capacity, fun _ _ running => absurd running other,
    fun _ _ running => absurd running other⟩

theorem start (h : Has settings e) (now : Instant) : Has settings (e.start now) := by
  have started := started_start e now
  generalize e.start now = e' at started
  cases started
  case fails => exact h.of_isOver rfl rfl rfl
  case runs  =>
    refine ⟨h.same, h.capacity, ?flush, ?expiry⟩
    case flush =>
      rintro _ _ ⟨⟩
      exact congrArg EngineSettings.flushInterval h.same
    case expiry =>
      rintro _ _ ⟨⟩
      rw [← h.same]
      simp only [Span.isZero, decide_eq_true_eq]
      split
      case isTrue pos   => simp [Ticker.start, pos.ne']
      case isFalse zero => simp [Nat.eq_zero_of_not_pos zero]

theorem await (h : Has settings e) (now : Instant) (spell : Nat) :
    Has settings (e.await now spell) := by
  unfold Engine.await
  split
  case h_2 => exact h
  case h_1 flush expiry running =>
    split
    case isTrue => exact h
    case isFalse =>
      refine h.of_tickers running rfl rfl rfl rfl ?_
      cases expiry
      case none        => rfl
      case some ticker =>
        simp only [Option.map_some, Option.some.injEq]
        split <;> rfl

theorem turn (h : Has settings e) {now : Moment} {r : List Effect × Engine}
    (taken : e.turn? now = some r) : Has settings r.2 := by
  have t := turn_of_turn? taken
  have same := t.follows.settings
  generalize e.events now = log at t
  cases t
  case finish =>
    exact h.of_isOver same (by rw [inbox_finish]; rfl) (phase_finish e now ▸ rfl)
  case flush running _ _      => exact h.of_tickers running rfl rfl rfl rfl rfl
  case expire running _ _ _   => exact h.of_tickers running rfl rfl rfl rfl rfl
  case handle c inbox running _ _ _ popped =>
    refine h.of_phase same ?_ (phase_handle ..)
    rw [inbox_handle]
    unfold Inbox.pop? at popped
    split at popped
    case h_1 => cases popped
    case h_2 =>
      cases popped
      rfl

theorem take (h : Has settings e) (now : Moment) (spell limit : Nat) :
    Has settings (e.take now spell limit).2 := by
  induction limit generalizing e
  case zero => exact h
  case succ limit ih =>
    rw [Engine.take]
    split
    case h_1            => exact h.await now.instant spell
    case h_2 _ e' taken => exact ih ((h.await now.instant spell).turn taken)

theorem asked (h : Has settings e) {c : Command} {r : Admission × Engine}
    (asked : Asked e c r) : Has settings r.2 := by
  refine h.of_phase asked.rests.settings ?_ asked.rests.phase
  cases asked <;> rfl

-- Whatever an engine does depends on nothing but what it has.
theorem runsWith (h : Has settings e) : RunsWith settings e := by
  refine ⟨h, fun m => ?admits, fun now => ?reports, fun now => ?expires, fun now => ?ends,
    fun _ _ => turn_of_turn?, fun _ _ _ running rests => ?rests⟩
  case admits =>
    have asked : Asked e (.submit m) (e.submit m) := asked_ask e (.submit m)
    generalize e.submit m = r at asked
    cases asked
    case stopped closed     => simp [closed]
    case queued opened room =>
      have free : e.inbox.queued.length < settings.queueCapacity := by
        simpa [Inbox.isFull, h.capacity] using room
      simp [opened, free]
    case waiting opened full patient =>
      have taken : settings.queueCapacity ≤ e.inbox.queued.length := by
        simpa [Inbox.isFull, h.capacity] using full
      have policy : settings.overflowPolicy = .block := h.same ▸ patient rfl
      simp [opened, Nat.not_lt.mpr taken, policy]
    case overflow opened full policy _ =>
      have taken : settings.queueCapacity ≤ e.inbox.queued.length := by
        simpa [Inbox.isFull, h.capacity] using full
      have policy : settings.overflowPolicy = .drop := h.same ▸ policy
      simp [opened, Nat.not_lt.mpr taken, policy]
  case reports => exact h.same ▸ ⟨rfl, rfl⟩
  case expires => exact h.same ▸ rfl
  case rests   =>
    exact ⟨(waits_of_turn?_eq_none running rests).right, idle_of_turn?_eq_none running rests⟩
  case ends =>
    rw [finish_fst, List.filterMap_append, summaries_handleAll, h.same]
    split
    case isTrue  => exact (follows_drained e now).settings.trans h.same ▸ rfl
    case isFalse => rfl

end Has
end MetricCollector.Engine
