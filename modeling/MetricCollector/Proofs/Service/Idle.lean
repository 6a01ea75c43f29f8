import MetricCollector.Proofs.Engine.Ending
import MetricCollector.Proofs.Service.Collector

namespace MetricCollector

namespace Engine

-- A running engine that nothing keeps from its queue.
structure Attends (e : Engine) (now : Moment) : Prop where
  tickers : ∃ flush expiry, e.phase = .running flush expiry ∧
    flush.isReady now.instant = false ∧ ∀ ticker ∈ expiry, ticker.isReady now.instant = false
  going   : e.stopping = false
  heard   : e.inbox.deserted = false

variable {e : Engine} {now : Moment}

theorem start_of_canRun {now : Instant} (can : e.canRun now = true) : e.start now = e.run now :=
  if_pos can

theorem attends_run (going : e.stopping = false) (heard : e.inbox.deserted = false) :
    (e.run now.instant).Attends now := by
  have later {period : Span} (pos : 0 < period.nanoseconds) :
      (Ticker.start now.instant period pos).isReady now.instant = false := by
    simp only [Ticker.isReady, Ticker.start, Instant.after, Instant.le_def,
      decide_eq_false_iff_not]
    omega
  refine ⟨⟨_, _, rfl, later _, ?_⟩, going, heard⟩
  intro ticker mem
  split at mem
  case isTrue pos =>
    cases mem
    exact later pos
  case isFalse => cases mem

-- An engine that has nothing to do, was not asked to stop and has its senders.
theorem attends_of_turn?_eq_none {flush : Ticker} {expiry : Option Ticker}
    (running : e.phase = .running flush expiry) (rests : e.turn? now = none) : e.Attends now := by
  have ⟨waits, early⟩ := waits_of_turn?_eq_none running rests
  refine ⟨⟨flush, expiry, running, early, idle_of_turn?_eq_none running rests⟩, ?_, ?_⟩
  · exact Bool.eq_false_iff.mpr fun stopping => waits (.inl stopping)
  · exact Bool.eq_false_iff.mpr fun deserted => waits (.inr deserted)

namespace Attends

theorem turn?_eq (h : e.Attends now) :
    e.turn? now = e.inbox.pop?.map fun p => handle { e with inbox := p.2 } now p.1 := by
  obtain ⟨flush, expiry, running, early, idle⟩ := h.tickers
  have filtered : expiry.filter (·.isReady now.instant) = none := by
    simpa [Option.filter_eq_none_iff] using idle
  simp only [turn?, running, h.going, early, filtered, h.heard, Bool.false_eq_true, if_false]
  cases e.inbox.pop? <;> rfl

-- Alarms are set, and that is all.
theorem await_eq (h : e.Attends now) (spell : Nat) :
    ∃ phase, e.await now.instant spell = { e with phase } ∧
      (e.await now.instant spell).Attends now := by
  obtain ⟨flush, expiry, running, early, idle⟩ := h.tickers
  have awaits : e.await now.instant spell = { e with
      phase := .running (flush.await spell)
        (expiry.map fun t => if t.isReady now.instant then t else t.await spell) } := by
    simp only [Engine.await, running, early, Bool.false_eq_true, if_false]
  refine ⟨_, awaits, awaits ▸ ⟨⟨_, _, rfl, early, ?_⟩, h.going, h.heard⟩⟩
  intro ticker mem
  obtain ⟨t, member, rfl⟩ := Option.mem_map.mp mem
  rw [if_neg (by simp [idle t member])]
  exact idle t member

end Attends
end Engine

namespace Collector

variable {c : Collector}

-- What remains the same while a collector settles that has nothing to do but to set alarms.
structure Keeps (c c' : Collector) : Prop where
  now     : c'.now = c.now
  answers : c'.answers = c.answers
  engine  : ∃ spell, c'.engine = c.engine.await c.now.instant spell
  attends : c'.engine.Attends c'.now

theorem runEngine_of_idle (attends : c.engine.Attends c.now) (empty : c.engine.inbox.pop? = none) :
    c.runEngine = { c with
      engine := c.engine.await c.now.instant c.spell, spell := c.spell + 1 } := by
  obtain ⟨phase, same, awaiting⟩ := attends.await_eq c.spell
  have rests : (c.engine.await c.now.instant c.spell).turn? c.now = none := by
    rw [awaiting.turn?_eq, same, empty]
    rfl
  have worked : c.engine.work c.now c.spell = ([], c.engine.await c.now.instant c.spell) := by
    rw [Engine.work, Engine.spellLimit, Engine.take]
    simp only [rests]
  simp only [runEngine, worked]
  rfl

theorem alternate_of_idle (attends : c.engine.Attends c.now)
    (empty : c.engine.inbox.pop? = none) : c.alternate = c.runEngine.runOutlet := by
  rw [alternate, dif_neg]
  intro less
  have engine : c.runEngine.runOutlet.engine = c.engine.await c.now.instant c.spell := by
    rw [runEngine_of_idle attends empty]
    rfl
  have time : c.runEngine.runOutlet.now = c.now := by
    rw [runEngine_of_idle attends empty]
    rfl
  rw [engine, time, Engine.workload_await] at less
  exact less.false

theorem keeps_alternate (attends : c.engine.Attends c.now)
    (empty : c.engine.inbox.pop? = none) : c.Keeps c.alternate := by
  obtain ⟨_, _, awaiting⟩ := attends.await_eq c.spell
  rw [alternate_of_idle attends empty, runEngine_of_idle attends empty]
  exact ⟨rfl, rfl, ⟨c.spell, rfl⟩, awaiting⟩

theorem keeps_settle (attends : c.engine.Attends c.now) (empty : c.engine.inbox.pop? = none) :
    c.Keeps c.settle := by
  unfold settle
  split
  case isTrue =>
    obtain ⟨now, answers, engine, attending⟩ :=
      @keeps_alternate c.runOutlet attends empty
    exact ⟨now, answers, engine, attending⟩
  case isFalse => exact keeps_alternate attends empty

-- Whether whoever asks something is served at once.
structure IsOpen (c : Collector) : Prop where
  running : ∃ flush expiry, c.engine.phase = .running flush expiry
  rests   : c.engine.turn? c.now = none
  opened  : c.engine.inbox.closed = false
  alone   : c.engine.inbox.waiting = []
  room    : 0 < c.engine.inbox.capacity

section

variable {v : View} {ticket : Nat} (attends : c.engine.Attends c.now)
  (queued : c.engine.inbox.queued = [.snapshot v ticket]) (alone : c.engine.inbox.waiting = [])

include attends queued alone

-- The command is handled in the first turn, and there is no second one.
theorem work_snapshot : ∃ phase, c.engine.work c.now c.spell =
    ([.answered ticket (c.engine.table.snapshot v c.now.timestamp)],
      { c.engine with inbox := { c.engine.inbox with queued := [] }, phase }) ∧
    (c.engine.work c.now c.spell).2.Attends c.now := by
  obtain ⟨phase, same, awaiting⟩ := attends.await_eq c.spell
  let served : Engine := { c.engine with inbox := { c.engine.inbox with queued := [] }, phase }
  have turn : (c.engine.await c.now.instant c.spell).turn? c.now =
      some ([.answered ticket (c.engine.table.snapshot v c.now.timestamp)], served) := by
    rw [awaiting.turn?_eq, same]
    simp [Inbox.pop?, queued, alone, Engine.handle, served]
  have still : served.Attends c.now := by
    obtain ⟨tickers, going, heard⟩ := same ▸ awaiting
    exact ⟨tickers, going, heard⟩
  obtain ⟨phase', same', awaiting'⟩ := still.await_eq c.spell
  have rests : (served.await c.now.instant c.spell).turn? c.now = none := by
    rw [awaiting'.turn?_eq, same']
    rfl
  have worked : c.engine.work c.now c.spell =
      ([.answered ticket (c.engine.table.snapshot v c.now.timestamp)],
        served.await c.now.instant c.spell) := by
    rw [Engine.work, Engine.spellLimit, Engine.take]
    simp only [turn]
    rw [Engine.take]
    simp only [rests, List.append_nil]
  exact ⟨phase', worked.trans (by rw [same']), by rw [worked]; exact awaiting'⟩

theorem answers_alternate : c.alternate.answers =
    (ticket, c.engine.table.snapshot v c.now.timestamp) :: c.answers := by
  obtain ⟨phase, worked, awaiting⟩ := work_snapshot attends queued alone
  have answers : c.runEngine.runOutlet.answers =
      (ticket, c.engine.table.snapshot v c.now.timestamp) :: c.answers := by
    show (c.engine.work c.now c.spell).1.filterMap Effect.answer? ++ c.answers = _
    rw [worked]
    rfl
  have empty : c.runEngine.runOutlet.engine.inbox.pop? = none := by
    show (c.engine.work c.now c.spell).2.inbox.pop? = none
    rw [worked]
    rfl
  rw [alternate]
  split
  case isTrue  => exact (keeps_alternate awaiting empty).answers.trans answers
  case isFalse => exact answers

theorem answers_settle : c.settle.answers =
    (ticket, c.engine.table.snapshot v c.now.timestamp) :: c.answers := by
  unfold settle
  split
  case isTrue  => exact @answers_alternate c.runOutlet v ticket attends queued alone
  case isFalse => exact answers_alternate attends queued alone

end

-- The snapshot that a collector gives shows the table as it is.
theorem IsOpen.snapshot (h : c.IsOpen) (v : View) :
    (c.snapshot v).1 = .ok (c.engine.table.snapshot v c.now.timestamp) := by
  obtain ⟨flush, expiry, running⟩ := h.running
  have attends := Engine.attends_of_turn?_eq_none running h.rests
  have empty : c.engine.inbox.queued = [] := by
    have rests := h.rests
    rw [attends.turn?_eq, Option.map_eq_none_iff] at rests
    exact Inbox.queued_eq_nil rests
  have room : c.engine.inbox.isFull = false := by
    simp [Inbox.isFull, empty, h.room.ne']
  have sent : c.engine.send (.snapshot v c.tickets) =
      (.queued, { c.engine with inbox := c.engine.inbox.push (.snapshot v c.tickets) }) := by
    simp [Engine.send, h.opened, room]
  have answered := @answers_settle
    { c with engine := { c.engine with inbox := c.engine.inbox.push (.snapshot v c.tickets) },
             tickets := c.tickets + 1 } v c.tickets
    ⟨attends.tickers, attends.going, attends.heard⟩ (by simp [Inbox.push, empty]) h.alone
  simp only [Collector.snapshot, sent]
  rw [answered]
  simp

end Collector
end MetricCollector
