import MetricCollector.Proofs.Engine.Accounts

namespace MetricCollector

open Engine

namespace Engine

-- Whether the engine will end as soon as it has come to it.
def IsEnding (e : Engine) : Prop :=
  e.stopping = true ∨ e.inbox.deserted = true

theorem Asked.deserted {e : Engine} {c : Command} {r : Admission × Engine}
    (h : Asked e c r) : r.2.inbox.deserted = e.inbox.deserted := by
  cases h <;> rfl

theorem Started.deserted {e engine : Engine} {now : Instant} (h : Started e now engine) :
    engine.inbox.deserted = e.inbox.deserted := by
  cases h <;> rfl

theorem Asked.isEnding_iff {e : Engine} {c : Command} {r : Admission × Engine}
    (h : Asked e c r) : r.2.IsEnding ↔ e.IsEnding := by
  cases h <;> rfl

theorem Turn.deserted {e : Engine} {now : Moment} {log : List Table.Event}
    {r : List Effect × Engine} (t : Turn e now log r) : r.2.inbox.deserted = e.inbox.deserted := by
  cases t
  case finish => rw [inbox_finish]; rfl
  case flush  => rfl
  case expire => rfl
  case handle popped =>
    obtain ⟨_, _, left⟩ := Inbox.pop?_eq_some popped
    rw [inbox_handle, left]

theorem isEnding_handle_iff {e : Engine} {c : Command} {inbox : Inbox Command} (now : Moment)
    (popped : e.inbox.pop? = some (c, inbox)) :
    (handle { e with inbox } now c).2.IsEnding ↔ e.IsEnding := by
  obtain ⟨_, _, left⟩ := Inbox.pop?_eq_some popped
  have stopping : (handle { e with inbox } now c).2.stopping = e.stopping := by
    cases c
    case snapshot => rfl
    case submit m =>
      simp only [handle, handleMetric, countInvalid]
      split <;> rfl
  rw [IsEnding, IsEnding, stopping, inbox_handle, left]

-- A running engine that has nothing to do waits for its ticks.
theorem waits_of_turn?_eq_none {e : Engine} {now : Moment} {flush : Ticker} {expiry : Option Ticker}
    (running : e.phase = .running flush expiry) (rests : e.turn? now = none) :
    ¬ e.IsEnding ∧ flush.isReady now.instant = false := by
  simp only [turn?, running] at rests
  split at rests
  case isTrue        => cases rests
  case isFalse going =>
  split at rests
  case isTrue        => cases rests
  case isFalse early =>
  split at rests
  case h_1 => cases rests
  case h_2 =>
  split at rests
  case h_1 => cases rests
  case h_2 =>
  split at rests
  case isTrue          => cases rests
  case isFalse cared =>
    refine ⟨fun ending => ?_, Bool.eq_false_iff.mpr early⟩
    cases ending
    case inl stopping => exact going stopping
    case inr deserted => exact cared deserted

-- Nor does it leave an expiry that is due.
theorem idle_of_turn?_eq_none {e : Engine} {now : Moment} {flush : Ticker} {expiry : Option Ticker}
    (running : e.phase = .running flush expiry) (rests : e.turn? now = none) :
    ∀ ticker ∈ expiry, ticker.isReady now.instant = false := by
  have ⟨waits, early⟩ := waits_of_turn?_eq_none running rests
  have going : e.stopping ≠ true := fun stopping => waits (.inl stopping)
  rw [turn?, running] at rests
  simp only [going, early, Bool.false_eq_true, if_false] at rests
  split at rests
  case h_1      => cases rests
  case h_2 idle => simpa [Option.filter_eq_none_iff] using idle

-- A turn with which the engine ends is its last one.
theorem Turn.log_of_ended {e : Engine} {now : Moment} {log : List Table.Event}
    {r : List Effect × Engine} (t : Turn e now log r) (ended : r.2.phase = .ended) :
    log = e.lastEvents now := by
  cases t
  case finish => rfl
  case flush | expire => cases ended
  case handle running _ _ _ _ =>
    rw [phase_handle] at ended
    cases running.symm.trans ended

end Engine

namespace Course

variable {settings : EngineSettings} {c : Course}

-- Whether the engine will take at most one more turn.
def IsClosing (c : Course) : Prop :=
  c.engine.stopping = true ∨ c.engine.phase = .ended

-- The turn of an engine that is asked to stop is its last one.
theorem IsClosing.ended_of_turn (h : c.IsClosing) {log : List Table.Event}
    {r : List Effect × Engine} (t : Turn c.engine c.now log r) :
    r.2.phase = .ended ∧ log = c.engine.lastEvents c.now := by
  cases t
  case finish => exact ⟨phase_finish .., rfl⟩
  case flush running going _ | expire running going _ _ | handle running going _ _ _ =>
    cases h
    case inl stopping => cases going.symm.trans stopping
    case inr ended    => cases running.symm.trans ended

theorem isClosing_next (h : c.IsClosing) (i : Input) : (c.next i).IsClosing := by
  by_cases ended : c.engine.phase = .ended
  case pos => exact .inr (ended_next ended i)
  case neg =>
    have stopping := h.resolve_right ended
    cases i <;> simp only [next]
    case turn =>
      split
      case h_1       => exact h
      case h_2 taken => exact .inr (h.ended_of_turn (turn_of_turn? taken)).left
    case call command =>
      split
      case isTrue  => exact h
      case isFalse =>
        have asked := asked_ask c.engine command
        generalize c.engine.ask command = r at asked
        cases asked <;> exact .inl stopping
    case await spell =>
      unfold Engine.await
      split
      case h_2 => exact h
      case h_1 => split <;> exact .inl stopping
    case start =>
      split
      case h_2 => exact h
      case h_1 =>
        have started := started_start c.engine c.now.instant
        generalize c.engine.start c.now.instant = engine at started
        cases started <;> exact .inl stopping
    case stop         => exact .inl rfl
    case unreadable   => exact .inl stopping
    case pass | leave => split <;> exact .inl stopping

-- An engine that has ended has flushed, if it was to do so.
def EndsWithFlush (settings : EngineSettings) (c : Course) : Prop :=
  c.engine.phase = .ended → settings.flushOnShutdown = true → ∃ past timestamp,
    c.log = past ++ [.flush settings.thresholds timestamp settings.flushInterval]

theorem endsWithFlush_next (h : EndsWithFlush settings c) (same : c.engine.settings = settings)
    (i : Input) : EndsWithFlush settings (c.next i) := by
  cases i <;> simp only [next]
  case turn =>
    split
    case h_1 => exact h
    case h_2 taken =>
      intro ended flushes
      have last := (turn_of_turn? taken).log_of_ended ended
      refine ⟨c.log ++ c.engine.inbox.queued.map (Command.event c.now), c.now.timestamp, ?_⟩
      rw [last, lastEvents, flushEvent, same, if_pos flushes, List.append_assoc]
  case call command =>
    split
    case isTrue  => exact h
    case isFalse =>
      have rests := (asked_ask c.engine command).rests
      exact fun ended => h (rests.phase.symm.trans ended)
  case start =>
    split
    case h_2 => exact h
    case h_1 =>
      have started := started_start c.engine c.now.instant
      generalize c.engine.start c.now.instant = engine at started
      cases started <;> exact fun ended => by cases ended
  case await spell =>
    unfold Engine.await
    split
    case h_2 => exact h
    case h_1 =>
      split
      case isTrue  => exact h
      case isFalse => exact fun ended => by cases ended
  case unreadable | stop => exact h
  case pass | leave => split <;> exact h

theorem endsWithFlush_after (settings : EngineSettings) (now : Moment) (inputs : List Input) :
    EndsWithFlush settings (after settings now inputs) := by
  induction inputs using List.reverseRecOn
  case nil => exact fun ended => by cases ended
  case append_singleton inputs i ih =>
    have same := (recorded_after settings now inputs).same
    exact (after_append_singleton ..).symm ▸ endsWithFlush_next ih same i

end Course
end MetricCollector
