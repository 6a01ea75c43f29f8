import MetricCollector.Engine.Spell
import MetricCollector.Proofs.Table.Log

namespace MetricCollector

-- What handling a command means to the table.
def Command.event (now : Moment) : Command → Table.Event
  | submit m     => .observe m now.instant
  | snapshot v _ => .snapshot v now.timestamp

-- The observation that a command hands in.
def Command.metric? : Command → Option Metric
  | submit m   => some m
  | snapshot .. => none

-- Handling commands handles the observations among them.
theorem Command.metrics_map_event (now : Moment) (cs : List Command) :
    Table.metrics (cs.map (Command.event now)) = cs.filterMap Command.metric? := by
  rw [Table.metrics, List.filterMap_map]
  refine congrArg (List.filterMap · cs) (funext fun c => ?_)
  cases c <;> rfl

theorem Command.isFlush_event (c : Command) (now : Moment) : (c.event now).isFlush = false := by
  cases c <;> rfl

theorem Command.event_ne_expire (c : Command) (now : Moment) (later : Instant) (interval : Span) :
    c.event now ≠ .expire later interval := by
  cases c <;> intro h <;> cases h

theorem Inbox.queued_eq_nil {α : Type} {q : Inbox α} (h : q.pop? = none) : q.queued = [] := by
  unfold pop? at h
  split at h
  case h_1 empty => exact empty
  case h_2 => cases h

def Phase.isEnded : Phase → Bool
  | ended => true
  | _     => false

theorem Phase.isEnded_iff {p : Phase} : p.isEnded = true ↔ p = .ended := by
  cases p <;> simp [isEnded]

namespace Engine

def flushEvent (e : Engine) (now : Moment) : Table.Event :=
  .flush e.settings.thresholds now.timestamp e.settings.flushInterval

def expireEvent (e : Engine) (now : Moment) : Table.Event :=
  .expire now.instant e.settings.expiryInterval

-- What the table goes through when the engine ends.
def lastEvents (e : Engine) (now : Moment) : List Table.Event :=
  e.inbox.queued.map (Command.event now) ++
    if e.settings.flushOnShutdown then [e.flushEvent now] else []

theorem ne_expire_of_mem_lastEvents {e : Engine} {now : Moment} {event : Table.Event}
    (h : event ∈ e.lastEvents now) (later : Instant) (interval : Span) :
    event ≠ .expire later interval := by
  cases List.mem_append.mp h
  case inl h =>
    have ⟨c, _, hc⟩ := List.mem_map.mp h
    exact hc ▸ c.event_ne_expire now later interval
  case inr h =>
    split at h
    case isTrue =>
      rw [List.mem_singleton.mp h, flushEvent]
      intro h
      cases h
    case isFalse => cases h

theorem metrics_lastEvents (e : Engine) (now : Moment) :
    Table.metrics (e.lastEvents now) = e.inbox.queued.filterMap Command.metric? := by
  rw [lastEvents, Table.metrics_append, Command.metrics_map_event]
  split <;> exact List.append_nil _

-- What the table goes through in a turn.
def events (e : Engine) (now : Moment) : List Table.Event :=
  match e.phase with
  | .running flush expiry =>
    if e.stopping then e.lastEvents now
    else if flush.isReady now.instant then [e.flushEvent now]
    else
      match expiry.filter (·.isReady now.instant) with
      | some _ => [e.expireEvent now]
      | none   =>
        match e.inbox.pop? with
        | some (c, _) => [c.event now]
        | none        => if e.inbox.deserted then e.lastEvents now else []
  | _ => []

-- The turns that an engine can take, with what the table goes through and what comes of them.
inductive Turn (e : Engine) (now : Moment) : List Table.Event → List Effect × Engine → Prop
  | finish {flush expiry} (running : e.phase = .running flush expiry)
      (ending : e.stopping = true ∨ e.inbox.queued = [] ∧ e.inbox.deserted = true) :
      Turn e now (e.lastEvents now) (e.finish now)
  | flush {flush expiry} (running : e.phase = .running flush expiry) (going : e.stopping = false)
      (ready : flush.isReady now.instant = true) :
      Turn e now [e.flushEvent now]
        ((e.flush now).1,
         { (e.flush now).2 with phase := .running (flush.tick now.instant) expiry })
  | expire {flush ticker} (running : e.phase = .running flush (some ticker))
      (going : e.stopping = false) (early : flush.isReady now.instant = false)
      (ready : ticker.isReady now.instant = true) :
      Turn e now [e.expireEvent now]
        ([],
         { e.expire now.instant with phase := .running flush (some (ticker.tick now.instant)) })
  | handle {flush expiry c inbox} (running : e.phase = .running flush expiry)
      (going : e.stopping = false) (early : flush.isReady now.instant = false)
      (idle : ∀ ticker ∈ expiry, ticker.isReady now.instant = false)
      (popped : e.inbox.pop? = some (c, inbox)) :
      Turn e now [c.event now] (Engine.handle { e with inbox } now c)

theorem turn_of_turn? {e : Engine} {now : Moment} {r : List Effect × Engine}
    (h : e.turn? now = some r) : Turn e now (e.events now) r := by
  unfold turn? at h
  split at h
  case h_2 => cases h
  case h_1 flush expiry running =>
    split at h
    case isTrue stopping =>
      have events : e.events now = e.lastEvents now := by simp [events, running, stopping]
      cases h
      exact events ▸ .finish running (.inl stopping)
    case isFalse going =>
    rw [Bool.not_eq_true] at going
    split at h
    case isTrue ready =>
      have events : e.events now = [e.flushEvent now] := by simp [events, running, going, ready]
      cases h
      exact events ▸ .flush running going ready
    case isFalse early =>
    rw [Bool.not_eq_true] at early
    split at h
    case h_1 ticker due =>
      have events : e.events now = [e.expireEvent now] := by
        simp [events, running, going, early, due]
      have ⟨expires, ready⟩ := Option.filter_eq_some_iff.mp due
      cases h
      exact events ▸ .expire (expires ▸ running) going early ready
    case h_2 due =>
    have idle : ∀ ticker ∈ expiry, ticker.isReady now.instant = false := by
      simpa [Option.filter_eq_none_iff] using due
    split at h
    case h_1 c inbox popped =>
      have events : e.events now = [c.event now] := by
        simp [events, running, going, early, due, popped]
      cases h
      exact events ▸ .handle running going early idle popped
    case h_2 popped =>
    split at h
    case isTrue deserted =>
      have events : e.events now = e.lastEvents now := by
        simp [events, running, going, early, due, popped, deserted]
      cases h
      exact events ▸ .finish running (.inr ⟨Inbox.queued_eq_nil popped, deserted⟩)
    case isFalse => cases h

-- Engine `e'` comes of engine `e` while the table goes through the events of a log.
structure Follows (e e' : Engine) (log : List Table.Event) : Prop where
  settings : e'.settings = e.settings
  table    : e'.table = log.foldl Table.undergo e.table
  received : e'.counts.received = e.counts.received + (Table.sightings log).length
  handled  : e'.counts.received + e'.counts.invalid =
    e.counts.received + e.counts.invalid + (Table.metrics log).length
  flushes  : e'.counts.flushes = e.counts.flushes + log.countP Table.Event.isFlush
  dropped  : e'.counts.dropped = e.counts.dropped

namespace Follows

variable {e e' e'' : Engine} {log more : List Table.Event}

theorem refl (e : Engine) : Follows e e [] :=
  ⟨rfl, rfl, rfl, rfl, rfl, rfl⟩

theorem append (h : Follows e e' log) (h' : Follows e' e'' more) :
    Follows e e'' (log ++ more) where
  settings := h'.settings.trans h.settings
  table    := by rw [h'.table, h.table, List.foldl_append]
  received := by rw [h'.received, h.received, Table.sightings_append, List.length_append]; omega
  handled  := by rw [h'.handled, h.handled, Table.metrics_append, List.length_append]; omega
  flushes  := by rw [h'.flushes, h.flushes, List.countP_append]; omega
  dropped  := h'.dropped.trans h.dropped

end Follows

theorem follows_handle (e : Engine) (now : Moment) (c : Command) :
    Follows e (e.handle now c).2 [c.event now] := by
  cases c
  case snapshot => exact ⟨rfl, rfl, rfl, rfl, rfl, rfl⟩
  case submit m =>
    simp only [handle, handleMetric, countInvalid, Command.event]
    have applied := Table.apply_fst e.table m now.instant
    by_cases sound : m.isSound = true
    case pos =>
      simp only [applied, sound, if_true]
      exact ⟨rfl, rfl, by simp [Table.sightings, Table.Event.sighting?, sound],
        by simp [Table.metrics, Table.Event.metric?]; omega, rfl, rfl⟩
    case neg =>
      simp only [applied, sound]
      exact ⟨rfl, rfl, by simp [Table.sightings, Table.Event.sighting?, sound],
        by simp [Table.metrics, Table.Event.metric?]; omega, rfl, rfl⟩

theorem follows_handleAll (e : Engine) (now : Moment) (cs : List Command) :
    Follows e (e.handleAll now cs).2 (cs.map (Command.event now)) := by
  induction cs generalizing e
  case nil => exact .refl e
  case cons c cs ih => exact (follows_handle e now c).append (ih _)

theorem follows_flush (e : Engine) (now : Moment) :
    Follows e (e.flush now).2 [e.flushEvent now] :=
  ⟨rfl, rfl, rfl, rfl, rfl, rfl⟩

theorem inbox_handleAll (e : Engine) (now : Moment) (cs : List Command) :
    (e.handleAll now cs).2.inbox = e.inbox := by
  induction cs generalizing e
  case nil => rfl
  case cons c cs ih => exact (ih _).trans (inbox_handle e now c)

-- The engine once it has handled what was queued when it came to an end.
def drained (e : Engine) (now : Moment) : Engine :=
  { (handleAll { e with inbox := e.inbox.close } now e.inbox.queued).2 with
    inbox := { e.inbox.close with queued := [] }, phase := .ended }

theorem follows_drained (e : Engine) (now : Moment) :
    Follows e (e.drained now) (e.inbox.queued.map (Command.event now)) :=
  have h := follows_handleAll { e with inbox := e.inbox.close } now e.inbox.queued
  ⟨h.settings, h.table, h.received, h.handled, h.flushes, h.dropped⟩

theorem finish_snd (e : Engine) (now : Moment) :
    (e.finish now).2 =
      if e.settings.flushOnShutdown then ((e.drained now).flush now).2 else e.drained now := by
  have inbox := inbox_handleAll { e with inbox := e.inbox.close } now e.inbox.queued
  have settings := (follows_drained e now).settings
  simp only [drained] at settings
  simp only [finish, drained, inbox, settings]
  split <;> rfl

theorem finish_fst (e : Engine) (now : Moment) :
    (e.finish now).1 =
      (handleAll { e with inbox := e.inbox.close } now e.inbox.queued).1 ++
        if e.settings.flushOnShutdown then ((e.drained now).flush now).1 else [] := by
  have inbox := inbox_handleAll { e with inbox := e.inbox.close } now e.inbox.queued
  have settings := (follows_drained e now).settings
  simp only [drained] at settings
  simp only [finish, drained, inbox, settings]
  split
  case isTrue  => rfl
  case isFalse => exact (List.append_nil _).symm

theorem follows_finish (e : Engine) (now : Moment) :
    Follows e (e.finish now).2 (e.lastEvents now) := by
  have drained := follows_drained e now
  rw [finish_snd, lastEvents]
  split
  case isTrue =>
    have : (e.drained now).flushEvent now = e.flushEvent now := by
      simp only [flushEvent, drained.settings]
    exact drained.append (this ▸ follows_flush (e.drained now) now)
  case isFalse => exact (List.append_nil _).symm ▸ drained

theorem inbox_finish (e : Engine) (now : Moment) :
    (e.finish now).2.inbox = { e.inbox.close with queued := [] } := by
  rw [finish_snd]
  split <;> rfl

namespace Turn

variable {e : Engine} {now : Moment} {log : List Table.Event} {r : List Effect × Engine}

theorem follows (t : Turn e now log r) : Follows e r.2 log := by
  cases t
  case finish => exact follows_finish e now
  case flush  => exact ⟨rfl, rfl, rfl, rfl, rfl, rfl⟩
  case expire => exact ⟨rfl, rfl, rfl, rfl, rfl, rfl⟩
  case handle c inbox _ _ _ _ _ =>
    have h := follows_handle { e with inbox } now c
    exact ⟨h.settings, h.table, h.received, h.handled, h.flushes, h.dropped⟩

end Turn

theorem turn?_of_isOver {e : Engine} {now : Moment} (finished : e.phase.isOver = true) :
    e.turn? now = none := by
  unfold turn?
  split
  case h_1 running => cases running ▸ finished
  case h_2         => rfl

end Engine
end MetricCollector
