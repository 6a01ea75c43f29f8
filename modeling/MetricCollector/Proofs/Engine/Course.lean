import MetricCollector.Proofs.Engine.Turn

namespace MetricCollector

-- A command that was handed in, and what has become of it so far.
structure Call where
  command   : Command
  admission : Engine.Admission

namespace Call

def isQueued (call : Call) : Bool :=
  call.admission = .queued

def isWaiting (call : Call) : Bool :=
  call.admission = .waiting

-- The first `n` callers that wait get a place.
def seat : (n : Nat) → List Call → List Call
  | 0, calls     => calls
  | _ + 1, []    => []
  | n + 1, call :: calls =>
    if call.isWaiting then { call with admission := .queued } :: seat n calls
    else call :: seat (n + 1) calls

-- The callers that wait are turned away.
def refuse (calls : List Call) : List Call :=
  calls.map fun call =>
    if call.isWaiting then { call with admission := .refused .stopped } else call

-- What the callers learn from the queue when it has changed.
def hear (before after : Inbox Command) (calls : List Call) : List Call :=
  if after.closed then refuse calls
  else seat (before.waiting.length - after.waiting.length) calls

end Call

namespace Engine

-- Hands in a command. Only observations are subject to the overflow policy.
def ask (e : Engine) : Command → Admission × Engine
  | .submit m          => e.submit m
  | .snapshot v ticket => e.send (.snapshot v ticket)

-- What can become of a command that is handed in.
inductive Asked (e : Engine) (c : Command) : Admission × Engine → Prop
  | stopped (closed : e.inbox.closed = true) : Asked e c (.refused .stopped, e)
  | queued (opened : e.inbox.closed = false) (room : e.inbox.isFull = false) :
      Asked e c (.queued, { e with inbox := e.inbox.push c })
  | waiting (opened : e.inbox.closed = false) (full : e.inbox.isFull = true)
      (patient : c.metric?.isSome = true → e.settings.overflowPolicy = .block) :
      Asked e c (.waiting, { e with inbox := e.inbox.enlist c })
  | overflow (opened : e.inbox.closed = false) (full : e.inbox.isFull = true)
      (policy : e.settings.overflowPolicy = .drop) (observation : c.metric?.isSome = true) :
      Asked e c
        (.refused .queueOverflow,
         { e with counts := { e.counts with dropped := e.counts.dropped + 1 } })

theorem asked_send {e : Engine} {c : Command}
    (patient : c.metric?.isSome = true → e.settings.overflowPolicy = .block) :
    Asked e c (e.send c) := by
  unfold send
  split
  case isTrue closed => exact .stopped closed
  case isFalse opened =>
    rw [Bool.not_eq_true] at opened
    split
    case isTrue full  => exact .waiting opened full patient
    case isFalse room => exact .queued opened (by simpa using room)

theorem asked_trySend {e : Engine} {c : Command} (policy : e.settings.overflowPolicy = .drop)
    (observation : c.metric?.isSome = true) : Asked e c (e.trySend c) := by
  unfold trySend
  split
  case isTrue closed => exact .stopped closed
  case isFalse opened =>
    rw [Bool.not_eq_true] at opened
    split
    case isTrue full  => exact .overflow opened full policy observation
    case isFalse room => exact .queued opened (by simpa using room)

theorem asked_ask (e : Engine) (c : Command) : Asked e c (e.ask c) := by
  cases c
  case snapshot => exact asked_send (fun h => by cases h)
  case submit m =>
    simp only [ask, submit]
    split
    case h_1 policy => exact asked_send (fun _ => policy)
    case h_2 policy => exact asked_trySend policy rfl

-- Handing in a command has no effect on the table and its tickers.
structure Rests (e e' : Engine) : Prop where
  settings : e'.settings = e.settings
  table    : e'.table = e.table
  received : e'.counts.received = e.counts.received
  invalid  : e'.counts.invalid = e.counts.invalid
  flushes  : e'.counts.flushes = e.counts.flushes
  phase    : e'.phase = e.phase

theorem Asked.rests {e : Engine} {c : Command} {r : Admission × Engine} (h : Asked e c r) :
    Rests e r.2 := by
  cases h <;> exact ⟨rfl, rfl, rfl, rfl, rfl, rfl⟩

-- What can become of an engine that starts.
inductive Started (e : Engine) (now : Instant) : Engine → Prop
  | runs (can : e.canRun now = true) : Started e now (e.run now)
  | fails (cannot : e.canRun now = false) : Started e now e.fail

theorem started_start (e : Engine) (now : Instant) : Started e now (e.start now) := by
  unfold start
  split
  case isTrue can     => exact .runs can
  case isFalse cannot => exact .fails (Bool.eq_false_iff.mpr cannot)

end Engine

-- What can happen next.
inductive Input
  -- The clocks move.
  | pass (later : Moment)
  | start
  | call (c : Command)
  -- Somebody reports a record that could not be read.
  | unreadable
  | stop
  -- Nobody is left to hand in commands.
  | leave
  -- The engine sets its alarms.
  | await (spell : Nat)
  | turn

structure Course where
  engine : Engine
  now    : Moment
  -- What the table went through.
  log    : List Table.Event := []
  -- In the order in which the callers came.
  calls  : List Call := []
  -- How many records could not be read.
  unreadable : Nat := 0

namespace Course

def create (settings : EngineSettings) (now : Moment) : Course where
  engine := .create settings
  now    := now

-- The course after one more input. What cannot happen at this point changes nothing: time does not
-- run backwards, an engine starts once, and a caller that waits has not left.
def next (c : Course) : Input → Course
  | .pass later  => if c.now.instant ≤ later.instant then { c with now := later } else c
  | .start       =>
    match c.engine.phase with
    | .created =>
      let engine := c.engine.start c.now.instant
      { c with engine, calls := Call.hear c.engine.inbox engine.inbox c.calls }
    | _        => c
  | .call command =>
    if c.engine.inbox.deserted then c
    else
      let (admission, engine) := c.engine.ask command
      { c with engine, calls := c.calls ++ [{ command, admission }] }
  | .unreadable  => { c with engine := c.engine.countInvalid, unreadable := c.unreadable + 1 }
  | .stop        => { c with engine := { c.engine with stopping := true } }
  | .leave       =>
    if c.engine.inbox.waiting.isEmpty then
      { c with engine := { c.engine with inbox := { c.engine.inbox with deserted := true } } }
    else c
  | .await spell => { c with engine := c.engine.await c.now.instant spell }
  | .turn        =>
    match c.engine.turn? c.now with
    | none             => c
    | some (_, engine) =>
      { c with
        engine,
        log   := c.log ++ c.engine.events c.now,
        calls := Call.hear c.engine.inbox engine.inbox c.calls }

-- What comes out of the engine with the next input.
def effects (c : Course) : Input → List Effect
  | .turn => (c.engine.turn? c.now).elim [] Prod.fst
  | _     => []

-- The course that inputs lead to.
def after (settings : EngineSettings) (now : Moment) (inputs : List Input) : Course :=
  inputs.foldl next (create settings now)

@[simp]
theorem after_nil (settings : EngineSettings) (now : Moment) :
    after settings now [] = create settings now := rfl

@[simp]
theorem after_append_singleton (settings : EngineSettings) (now : Moment) (inputs : List Input)
    (i : Input) : after settings now (inputs ++ [i]) = (after settings now inputs).next i := by
  simp [after]

-- Time does not run backwards.
theorem now_le_next (c : Course) (i : Input) : c.now.instant ≤ (c.next i).now.instant := by
  cases i <;> simp only [next]
  case pass later =>
    split
    case isTrue le => exact le
    case isFalse   => exact Int.le_refl _
  case start | call | leave | turn => split <;> exact Int.le_refl _
  case unreadable | stop | await => exact Int.le_refl _

-- Nothing that happened to the table is forgotten.
theorem log_next (c : Course) (i : Input) : c.log <+: (c.next i).log := by
  cases i <;> simp only [next]
  case turn =>
    split
    case h_1 => exact List.prefix_refl c.log
    case h_2 => exact List.prefix_append ..
  case pass | start | call | leave => split <;> exact List.prefix_refl c.log
  case unreadable | stop | await => exact List.prefix_refl c.log

-- What an engine does in a spell of work could also happen to it in a course.
theorem exists_take (c : Course) (spell limit : Nat) :
    ∃ inputs : List Input, (inputs.foldl next c).now = c.now ∧
      (inputs.foldl next c).engine = (c.engine.take c.now spell limit).2 := by
  induction limit generalizing c
  case zero => exact ⟨[], rfl, rfl⟩
  case succ limit ih =>
    cases taken : (c.engine.await c.now.instant spell).turn? c.now
    case none =>
      refine ⟨[.await spell], rfl, ?_⟩
      simp [next, Engine.take, taken]
    case some r =>
      obtain ⟨inputs, now, engine⟩ := ih ((c.next (.await spell)).next .turn)
      refine ⟨.await spell :: .turn :: inputs, ?now, ?engine⟩
      case now    => simpa [next, taken] using now
      case engine => simpa [next, taken, Engine.take] using engine

-- The table and the counts are what the log makes of them.
structure Recorded (settings : EngineSettings) (c : Course) : Prop where
  same     : c.engine.settings = settings
  table    : c.engine.table = Table.after c.log
  received : c.engine.counts.received = (Table.sightings c.log).length
  handled  : c.engine.counts.received + c.engine.counts.invalid =
    (Table.metrics c.log).length + c.unreadable
  flushes  : c.engine.counts.flushes = c.log.countP Table.Event.isFlush

namespace Recorded

variable {settings : EngineSettings} {c : Course}

theorem turn (h : Recorded settings c) {log : List Table.Event} {engine : Engine}
    (follows : Engine.Follows c.engine engine log) (calls : List Call) :
    Recorded settings { c with engine, log := c.log ++ log, calls } where
  same     := follows.settings.trans h.same
  table    := by rw [follows.table, h.table, Table.after_append]
  received := by rw [follows.received, h.received, Table.sightings_append, List.length_append]
  handled  := by
    rw [follows.handled, h.handled, Table.metrics_append, List.length_append, Nat.add_right_comm]
  flushes  := by rw [follows.flushes, h.flushes, List.countP_append]

theorem next (h : Recorded settings c) (i : Input) : Recorded settings (c.next i) := by
  cases i <;> simp only [Course.next]
  case pass later =>
    split
    case isTrue  => exact ⟨h.same, h.table, h.received, h.handled, h.flushes⟩
    case isFalse => exact h
  case start =>
    split
    case h_2 => exact h
    case h_1 =>
      have started := Engine.started_start c.engine c.now.instant
      generalize c.engine.start c.now.instant = engine at started
      cases started <;> exact ⟨h.same, h.table, h.received, h.handled, h.flushes⟩
  case call command =>
    split
    case isTrue => exact h
    case isFalse =>
      have rests := (Engine.asked_ask c.engine command).rests
      refine ⟨rests.settings.trans h.same, rests.table.trans h.table,
        rests.received.trans h.received, ?_, rests.flushes.trans h.flushes⟩
      exact rests.received ▸ rests.invalid ▸ h.handled
  case unreadable =>
    refine ⟨h.same, h.table, h.received, ?_, h.flushes⟩
    have := h.handled
    simp only [Engine.countInvalid]
    omega
  case stop => exact ⟨h.same, h.table, h.received, h.handled, h.flushes⟩
  case leave =>
    split
    case isTrue  => exact ⟨h.same, h.table, h.received, h.handled, h.flushes⟩
    case isFalse => exact h
  case await spell =>
    unfold Engine.await
    split
    case h_2 => exact h
    case h_1 =>
      split
      case isTrue  => exact h
      case isFalse => exact ⟨h.same, h.table, h.received, h.handled, h.flushes⟩
  case turn =>
    split
    case h_1 => exact h
    case h_2 taken => exact h.turn (Engine.turn_of_turn? taken).follows _

end Recorded

theorem recorded_after (settings : EngineSettings) (now : Moment) (inputs : List Input) :
    Recorded settings (after settings now inputs) := by
  induction inputs using List.reverseRecOn
  case nil => exact ⟨rfl, rfl, rfl, rfl, rfl⟩
  case append_singleton inputs i ih => exact (after_append_singleton ..).symm ▸ ih.next i

end Course
end MetricCollector
