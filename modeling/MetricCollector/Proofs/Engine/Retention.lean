import MetricCollector.Proofs.Engine.Course
import MetricCollector.Proofs.Table.Windows

namespace MetricCollector

open Engine

-- Expiry is off, or not faster than flushing.
def EngineSettings.SlowExpiry (settings : EngineSettings) : Prop :=
  settings.expiryInterval.isZero = true ∨ settings.flushInterval ≤ settings.expiryInterval

-- The flush that closes a window comes at most one interval after whatever is in the window.
structure Ticker.Closes (flush : Ticker) (interval : Span) (now : Instant)
    (window : List Sighting) : Prop where
  period : flush.period = interval
  soon   : flush.due ≤ now.after interval
  before : ∀ o ∈ window, flush.due ≤ o.time.after interval

-- How far a phase agrees with the log.
def Phase.Agrees (settings : EngineSettings) (now : Instant) (log : List Table.Event) :
    Phase → Prop
  | .created         => log = []
  | .running flush _ => flush.Closes settings.flushInterval now (Windows.of log).current
  | .ended           => settings.flushOnShutdown = true → (Windows.of log).current = []
  | .failed          => log = []

namespace Ticker.Closes

variable {flush : Ticker} {interval : Span} {now later : Instant} {window : List Sighting}

theorem start {pos : 0 < interval.nanoseconds} :
    (Ticker.start now interval pos).Closes interval now [] :=
  ⟨rfl, Int.le_refl _, fun _ h => by cases h⟩

theorem pass (h : flush.Closes interval now window) (le : now ≤ later) :
    flush.Closes interval later window := by
  refine ⟨h.period, ?_, h.before⟩
  have := h.soon
  simp only [Instant.le_def, Instant.after] at this le ⊢
  omega

theorem await (h : flush.Closes interval now window) (spell : Nat) :
    (flush.await spell).Closes interval now window :=
  ⟨h.period, h.soon, h.before⟩

theorem observe (h : flush.Closes interval now window) (m : Metric) :
    flush.Closes interval now (window ++ [⟨m, now⟩]) := by
  refine ⟨h.period, h.soon, fun o ho => ?_⟩
  cases List.mem_append.mp ho
  case inl ho => exact h.before o ho
  case inr ho => exact List.mem_singleton.mp ho ▸ h.soon

theorem handle {now : Moment} (h : flush.Closes interval now.instant window) (c : Command) :
    flush.Closes interval now.instant (window ++ (c.event now).sighting?.toList) := by
  cases c
  case snapshot => exact (List.append_nil window).symm ▸ h
  case submit m =>
    by_cases sound : m.isSound = true <;> simp only [Command.event, Table.Event.sighting?, sound]
    case pos => exact h.observe m
    case neg => exact (List.append_nil window).symm ▸ h

-- Whether the tick is late or not, the next one is at most one interval away.
theorem tick (h : flush.Closes interval now window) (ready : flush.isReady now = true) :
    (flush.tick now).Closes interval now [] := by
  refine ⟨h.period, ?_, fun _ h => by cases h⟩
  have : flush.due ≤ now := of_decide_eq_true ready
  simp only [Ticker.tick, h.period]
  simp only [Instant.le_def, Instant.after] at this ⊢
  split <;> dsimp only <;> omega

end Ticker.Closes

namespace Table

variable {settings : EngineSettings} {log : List Event} {flush : Ticker} {now : Instant}
variable {k : Series}

-- A series that has been idle for longer than expiry allows was not seen since the last flush, as
-- the next flush would be due by now.
theorem unseen_of_removes (slow : settings.SlowExpiry) (spares : Spares log)
    (closes : flush.Closes settings.flushInterval now (Windows.of log).current)
    (early : flush.isReady now = false)
    (gone : (after log).removes now settings.expiryInterval k = true) :
    ∀ o ∈ (Windows.of log).current, o.series ≠ k := by
  intro o ho hk
  rw [removes_eq_isIdle, find?_lastSeen_after, Row.isIdle, Bool.and_eq_true,
    Option.any_eq_true] at gone
  obtain ⟨timed, seen, latest, idle⟩ := gone
  have recent : o ∈ (Life.of k log).recent := by
    rw [recent_eq_filter_current spares k]
    exact List.mem_filter.mpr ⟨ho, by simpa using hk⟩
  have seen_late := Life.le_latest? (List.mem_append_right _ recent) latest
  have due_soon := closes.before o ho
  have idle := of_decide_eq_true idle
  have early := of_decide_eq_false early
  cases slow
  case inl off => simp [off] at timed
  case inr slow =>
    have slow : settings.flushInterval.nanoseconds ≤ settings.expiryInterval.nanoseconds := slow
    have idle : settings.expiryInterval.nanoseconds < (now.since seen).nanoseconds := idle
    simp only [Instant.le_def, Instant.after, Instant.since] at seen_late due_soon early idle
    omega

end Table

namespace Course

-- Nothing was lost so far, and the tickers are such that nothing will be.
structure OnSchedule (settings : EngineSettings) (c : Course) : Prop where
  spares : Table.Spares c.log
  phase  : c.engine.phase.Agrees settings c.now.instant c.log

variable {settings : EngineSettings} {c : Course}

namespace OnSchedule

theorem pass (h : OnSchedule settings c) {later : Moment} (le : c.now.instant ≤ later.instant) :
    OnSchedule settings { c with now := later } := by
  refine ⟨h.spares, ?_⟩
  have agrees := h.phase
  cases hp : c.engine.phase <;> simp only [hp, Phase.Agrees] at agrees ⊢
  case created => exact agrees
  case running => exact agrees.pass le
  case ended   => exact agrees
  case failed  => exact agrees

theorem start (h : OnSchedule settings c) (same : c.engine.settings = settings)
    (created : c.engine.phase = .created) {engine : Engine}
    (started : Started c.engine c.now.instant engine) (calls : List Call) :
    OnSchedule settings { c with engine, calls } := by
  refine ⟨h.spares, ?_⟩
  have empty : c.log = [] := by
    have agrees := h.phase
    rwa [created] at agrees
  subst same
  cases started
  case fails => exact empty
  case runs  =>
    simp only [Engine.run, Phase.Agrees, empty]
    exact .start

theorem await (h : OnSchedule settings c) (spell : Nat) :
    OnSchedule settings { c with engine := c.engine.await c.now.instant spell } := by
  have agrees := h.phase
  unfold Engine.await
  split
  case h_2 => exact h
  case h_1 flush expiry running =>
    split
    case isTrue => exact h
    case isFalse =>
      rw [running] at agrees
      exact ⟨h.spares, Ticker.Closes.await agrees spell⟩

-- The window is closed by the last flush, if there is one.
theorem agrees_ended {now : Instant} {log : List Table.Event} {e : Engine} {last : Moment} :
    Phase.Agrees e.settings now (log ++ e.lastEvents last) .ended := by
  intro flushes
  rw [lastEvents, if_pos flushes, ← List.append_assoc, Windows.of_append_singleton]
  rfl

theorem turn (h : OnSchedule settings c) (same : c.engine.settings = settings)
    (slow : settings.SlowExpiry) {log : List Table.Event} {r : List Effect × Engine}
    (t : Turn c.engine c.now log r) (calls : List Call) :
    OnSchedule settings { c with engine := r.2, log := c.log ++ log, calls } := by
  have agrees := h.phase
  subst same
  cases t
  case finish running ending =>
    refine ⟨h.spares.append fun _ he => ne_expire_of_mem_lastEvents he, ?_⟩
    simp only [phase_finish]
    exact agrees_ended
  case flush flush expiry running going ready =>
    rw [running] at agrees
    refine ⟨h.spares.append_singleton (fun _ _ he => by cases he), ?_⟩
    simp only [Phase.Agrees, Windows.of_append_singleton]
    exact agrees.tick ready
  case expire flush ticker running going early ready =>
    rw [running] at agrees
    constructor
    case spares =>
      apply h.spares.append_singleton
      intro now interval he k gone
      cases he
      exact Table.unseen_of_removes slow h.spares agrees early gone
    case phase =>
      simp only [Phase.Agrees, Windows.of_append_singleton]
      rw [Windows.current_undergo rfl]
      exact (List.append_nil (Windows.of c.log).current).symm ▸ agrees
  case handle flush expiry command inbox running going early idle popped =>
    rw [running] at agrees
    constructor
    case spares =>
      apply h.spares.append_singleton
      intro now interval he
      exact absurd he (command.event_ne_expire c.now now interval)
    case phase =>
      simp only [phase_handle, running, Phase.Agrees, Windows.of_append_singleton]
      rw [Windows.current_undergo (command.isFlush_event c.now)]
      exact agrees.handle command

theorem next (h : OnSchedule settings c) (same : c.engine.settings = settings)
    (slow : settings.SlowExpiry) (i : Input) : OnSchedule settings (c.next i) := by
  cases i <;> simp only [Course.next]
  case pass later =>
    split
    case isTrue le => exact h.pass le
    case isFalse   => exact h
  case start =>
    split
    case h_1 created => exact h.start same created (started_start ..) _
    case h_2         => exact h
  case call command =>
    split
    case isTrue => exact h
    case isFalse =>
      have rests := (asked_ask c.engine command).rests
      exact ⟨h.spares, rests.phase ▸ h.phase⟩
  case unreadable => exact ⟨h.spares, h.phase⟩
  case stop       => exact ⟨h.spares, h.phase⟩
  case leave =>
    split
    case isTrue  => exact ⟨h.spares, h.phase⟩
    case isFalse => exact h
  case await spell => exact h.await spell
  case turn =>
    split
    case h_1 => exact h
    case h_2 effects engine taken => exact h.turn same slow (turn_of_turn? taken) _

end OnSchedule

theorem onSchedule_after (slow : settings.SlowExpiry) (now : Moment) (inputs : List Input) :
    OnSchedule settings (after settings now inputs) := by
  induction inputs using List.reverseRecOn
  case nil => exact ⟨Table.spares_nil, rfl⟩
  case append_singleton inputs i ih =>
    have same := (recorded_after settings now inputs).same
    exact (after_append_singleton ..).symm ▸ ih.next same slow i

-- What the table goes through is what the log says, and the log applies what the engine counts.
-- An expiry spares each series that was observed since the last flush, so that a flush finds all of
-- the window that it closes. When the engine has ended with a last flush, the closed windows are
-- everything that was applied, in order.
theorem nothing_expires_unreported (slow : settings.SlowExpiry) (now : Moment)
    (inputs : List Input) :
    let c := after settings now inputs
    (c.engine.table = Table.after c.log ∧
      c.engine.counts.received = (Table.sightings c.log).length) ∧
    (∀ pre at' interval post, c.log = pre ++ .expire at' interval :: post →
      ∀ k, (Table.after pre).removes at' interval k = true →
        ∀ o ∈ (Windows.of pre).current, o.series ≠ k) ∧
    (∀ pre thresholds timestamp interval post,
      c.log = pre ++ .flush thresholds timestamp interval :: post →
        ∀ k, (Table.after pre).Holds k ((Windows.of pre).current.filter (·.series = k))) ∧
    (c.engine.phase = .ended → settings.flushOnShutdown = true →
      (Windows.of c.log).closed.flatten = Table.sightings c.log ∧
        (Windows.of c.log).closed.length = c.engine.counts.flushes) := by
  intro c
  have recorded := recorded_after settings now inputs
  have h := onSchedule_after slow now inputs
  refine ⟨⟨recorded.table, recorded.received⟩, h.spares, ?whole, ?closed⟩
  case whole =>
    intro pre thresholds timestamp interval post hlog k
    have spares : Table.Spares (pre ++ .flush thresholds timestamp interval :: post) :=
      hlog ▸ h.spares
    exact Table.holds_current spares.of_append k
  case closed =>
    intro ended flushes
    have agrees := h.phase
    rw [ended] at agrees
    have windows := Windows.flatten_closed_append_current c.log
    rw [agrees flushes, List.append_nil] at windows
    exact ⟨windows, (Windows.length_closed c.log).trans recorded.flushes.symm⟩

-- An engine whose series expire as soon as they may, stopped with an observation in its queue.
theorem nothing_expires_unreported_at_the_end :
    let settings : EngineSettings := { expiryInterval := .ofSeconds 1 }
    let m : Metric := { name := "requests", kind := .counter, value := 2.0 }
    let c := after settings .origin [.start, .call (.submit m), .stop, .turn]
    settings.SlowExpiry ∧ c.engine.phase = .ended ∧ settings.flushOnShutdown = true ∧
      (Windows.of c.log).closed.flatten = Table.sightings c.log := by
  intro settings m c
  have slow : settings.SlowExpiry := .inr (by decide)
  have ended : c.engine.phase = .ended := Phase.isEnded_iff.mp (by decide +kernel)
  have whole :=
    nothing_expires_unreported slow .origin [.start, .call (.submit m), .stop, .turn]
  refine ⟨slow, ended, rfl, ?_⟩
  simp only [c] at ended ⊢
  exact (whole.right.right.right ended rfl).left

end Course
end MetricCollector
