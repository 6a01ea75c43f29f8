import MetricCollector.Settings.Basic

namespace MetricCollector.Settings

variable {s : Settings} {e : EngineSettings}

-- The engine can run with the settings, and sinks have no more time than there is between two
-- flushes.
structure Accepted (s : Settings) (e : EngineSettings) : Prop where
  engine   : s.engine = .ok e
  interval : e.flushInterval = s.flushInterval
  workers  : s.receiverWorkers ≠ 0
  time     : s.sinkTimeout.isZero = false
  limit    : s.sinkTimeout ≤ s.flushInterval
  backlog  : s.summaryBacklog ≠ 0

theorem flushInterval_engine (h : s.engine = .ok e) : e.flushInterval = s.flushInterval := by
  unfold engine at h
  simp only [bind, Except.bind] at h
  split at h
  case h_1 => cases h
  case h_2 =>
    split at h
    case isFalse => cases h
    case isTrue  =>
      split at h
      case isFalse => cases h
      case isTrue  => exact Except.ok.inj h ▸ rfl

theorem exists_accepted (h : s.validate = .ok ()) : ∃ e, s.Accepted e := by
  unfold validate at h
  simp only [bind, Except.bind] at h
  -- The checks come one after the other, and the first that fails would be the result.
  split at h
  case h_1          => cases h
  case h_2 e engine =>
  split at h
  case isTrue          => cases h
  case isFalse workers =>
  split at h
  case isTrue       => cases h
  case isFalse time =>
  split at h
  case isTrue        => cases h
  case isFalse limit =>
  split at h
  case isTrue          => cases h
  case isFalse backlog =>
    exact ⟨e, engine, flushInterval_engine engine, workers, Bool.eq_false_iff.mpr time,
      Nat.not_lt.mp limit, backlog⟩

end MetricCollector.Settings
