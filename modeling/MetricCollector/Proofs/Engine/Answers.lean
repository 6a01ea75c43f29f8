import MetricCollector.Proofs.Engine.Accounts
import MetricCollector.Proofs.Table.Views

namespace MetricCollector

namespace Command

def ticket? : Command → Option Nat
  | submit _          => none
  | snapshot _ ticket => some ticket

-- What a command is answered, if it asks for something.
def answer? (t : Table) (now : Moment) : Command → Option (Nat × Snapshot)
  | submit _          => none
  | snapshot v ticket => some (ticket, t.snapshot v now.timestamp)

theorem map_fst_answer? (c : Command) (t : Table) (now : Moment) :
    (c.answer? t now).toList.map Prod.fst = [c].filterMap ticket? := by
  cases c <;> rfl

end Command

theorem Engine.answers_handle (e : Engine) (now : Moment) (c : Command) :
    (e.handle now c).1.filterMap Effect.answer? = (c.answer? e.table now).toList := by
  cases c <;> rfl

theorem Engine.answers_flush (e : Engine) (now : Moment) :
    (e.flush now).1.filterMap Effect.answer? = [] := rfl

-- A command is queued if that is what its sender is told.
theorem Engine.Asked.queued_eq {e : Engine} {c : Command} {r : Admission × Engine}
    (asked : e.Asked c r) :
    r.2.inbox.queued = e.inbox.queued ++ Call.accepted [⟨c, r.1⟩] := by
  cases asked <;> simp [Inbox.push, Inbox.enlist]

-- What an answer shows. The caller with this ticket asked for it and got in, by the time at which
-- it was answered the table had handled the observations of those that came before and got in, and
-- no others, and the answer is a copy of what was asked for of that table.
structure Shows (log : List Table.Event) (calls : List Call) (ticket : Nat) (s : Snapshot)
    (v : View) (takenAt : Timestamp) (past : List Table.Event) : Prop where
  asked  : calls[ticket]? = some ⟨.snapshot v ticket, .queued⟩
  point  : past ++ [.snapshot v takenAt] <+: log
  shown  : s.IsCopy (Table.after past) v takenAt
  before : Table.metrics past = (Call.accepted (calls.take ticket)).filterMap Command.metric?

namespace Shows

variable {log more : List Table.Event} {calls later : List Call} {ticket : Nat} {s : Snapshot}
variable {v : View} {takenAt : Timestamp} {past : List Table.Event}

theorem append (h : Shows log calls ticket s v takenAt past) (more : List Table.Event) :
    Shows (log ++ more) calls ticket s v takenAt past :=
  ⟨h.asked, h.point.trans (List.prefix_append log more), h.shown, h.before⟩

theorem take_eq (h : Shows log calls ticket s v takenAt past) (inTurn : Call.InTurn calls)
    (goOn : Call.GoOn calls later) : later.take (ticket + 1) = calls.take (ticket + 1) := by
  have bound := (List.getElem?_eq_some_iff.mp h.asked).1
  have told := Call.isWaiting_eq_false_of_mem_take inTurn h.asked rfl
  exact Call.take_eq_of_goOn goOn bound told

theorem goOn (h : Shows log calls ticket s v takenAt past) (inTurn : Call.InTurn calls)
    (goOn : Call.GoOn calls later) : Shows log later ticket s v takenAt past := by
  have same := h.take_eq inTurn goOn
  refine ⟨?asked, h.point, h.shown, ?before⟩
  case asked =>
    have found := congrArg (·[ticket]?) same
    simp only [List.getElem?_take, Nat.lt_succ_self, if_true] at found
    exact found.trans h.asked
  case before =>
    have first := congrArg (List.take ticket) same
    simp only [List.take_take, Nat.min_eq_left (Nat.le_succ ticket)] at first
    rw [first]
    exact h.before

end Shows

-- A ticket is a place among the callers.
def Call.Numbered (calls : List Call) : Prop :=
  ∀ i (call : Call), calls[i]? = some call → ∀ ticket ∈ call.command.ticket?, ticket = i

-- What has got in was handled or is queued, in that order, and whoever asked for something was
-- answered when it was handled.
structure Served (calls : List Call) (handled queued : List Command) (log : List Table.Event)
    (answers : List (Nat × Snapshot)) : Prop where
  numbered : Call.Numbered calls
  accepted : Call.accepted calls = handled ++ queued
  tickets  : answers.map Prod.fst = handled.filterMap Command.ticket?
  metrics  : Table.metrics log = handled.filterMap Command.metric?
  shown    : ∀ a ∈ answers, ∃ v takenAt past, Shows log calls a.1 a.2 v takenAt past

namespace Served

variable {calls : List Call} {handled queued : List Command} {log : List Table.Event}
variable {answers : List (Nat × Snapshot)} {c : Command} {now : Moment} {e : Engine}

theorem handle (h : Served calls handled (c :: queued) log answers) (now : Moment) :
    Served calls (handled ++ [c]) queued (log ++ [c.event now])
      (answers ++ (c.answer? (Table.after log) now).toList) where
  numbered := h.numbered
  accepted := by rw [h.accepted, List.append_assoc, List.singleton_append]
  tickets  := by rw [List.map_append, h.tickets, c.map_fst_answer?, ← List.filterMap_append]
  metrics  := by
    rw [Table.metrics_append, h.metrics, List.filterMap_append]
    exact congrArg _ (Command.metrics_map_event now [c])
  shown    := by
    intro a mem
    cases List.mem_append.mp mem
    case inl mem =>
      obtain ⟨v, takenAt, past, shows⟩ := h.shown a mem
      exact ⟨v, takenAt, past, shows.append _⟩
    case inr mem =>
      obtain ⟨i, found, before⟩ := Call.exists_place h.accepted
      cases c with
      | submit _          => cases mem
      | snapshot v ticket =>
        cases List.mem_singleton.mp mem
        obtain rfl : ticket = i := h.numbered i _ found ticket rfl
        have shown := (Table.after log).isCopy_snapshot v now.timestamp
        exact ⟨v, now.timestamp, log, found, List.prefix_refl _, shown, before ▸ h.metrics⟩

theorem handleAll {cs : List Command} (table : e.table = Table.after log)
    (h : Served calls handled (cs ++ queued) log answers) :
    Served calls (handled ++ cs) queued (log ++ cs.map (Command.event now))
      (answers ++ (e.handleAll now cs).1.filterMap Effect.answer?) := by
  induction cs generalizing e handled log answers
  case nil => simpa [Engine.handleAll] using h
  case cons c cs ih =>
    have follows := Engine.follows_handle e now c
    have table' : (e.handle now c).2.table = Table.after (log ++ [c.event now]) := by
      rw [follows.table, table, Table.after_append]
    have served := ih table' (h.handle now)
    rw [← table, ← Engine.answers_handle] at served
    simpa [Engine.handleAll, List.filterMap_append] using served

-- A tick has no effect on those who ask.
theorem tick (h : Served calls handled queued log answers) {event : Table.Event}
    (tick : event.metric? = none) : Served calls handled queued (log ++ [event]) answers where
  numbered := h.numbered
  accepted := h.accepted
  tickets  := h.tickets
  metrics  := by simp [Table.metrics, tick, ← h.metrics]
  shown    := by
    intro a mem
    obtain ⟨v, takenAt, past, shows⟩ := h.shown a mem
    exact ⟨v, takenAt, past, shows.append _⟩

-- More callers may come, and those who wait may get in.
theorem goOn (h : Served calls handled queued log answers) (inTurn : Call.InTurn calls)
    {later : List Call} (goOn : Call.GoOn calls later) (numbered : Call.Numbered later)
    {more : List Command} (accepted : Call.accepted later = Call.accepted calls ++ more) :
    Served later handled (queued ++ more) log answers where
  numbered := numbered
  accepted := by rw [accepted, h.accepted, List.append_assoc]
  tickets  := h.tickets
  metrics  := h.metrics
  shown    := by
    intro a mem
    obtain ⟨v, takenAt, past, shows⟩ := h.shown a mem
    exact ⟨v, takenAt, past, shows.goOn inTurn goOn⟩

-- Calls that only change their admission keep their tickets.
theorem numbered_of_becomes (h : Served calls handled queued log answers) {later : List Call}
    (becomes : List.Forall₂ Call.Becomes calls later) : Call.Numbered later := by
  intro i call found
  obtain ⟨hi, rfl⟩ := List.getElem?_eq_some_iff.mp found
  have hi' : i < calls.length := becomes.length_eq ▸ hi
  have same := (becomes.get hi' hi).command
  simp only [List.get_eq_getElem] at same
  exact same ▸ h.numbered i _ (List.getElem?_eq_getElem hi')

theorem hear (h : Served calls handled queued log answers) (inTurn : Call.InTurn calls)
    (before after : Inbox Command) {more : List Command}
    (accepted : Call.accepted (Call.hear before after calls) = Call.accepted calls ++ more) :
    Served (Call.hear before after calls) handled (queued ++ more) log answers :=
  have becomes := Call.becomes_hear before after calls
  h.goOn inTurn (Call.goOn_of_forall₂ becomes) (h.numbered_of_becomes becomes) accepted

-- Callers are answered in the order in which they came.
theorem ascending (h : Served calls handled queued log answers) :
    (answers.map Prod.fst).Pairwise (· < ·) := by
  have places : calls.Pairwise fun a b =>
      ∀ t ∈ a.command.ticket?, ∀ t' ∈ b.command.ticket?, t < t' := by
    refine List.pairwise_iff_getElem.mpr fun i j hi hj less t ht t' ht' => ?_
    rw [h.numbered i _ (List.getElem?_eq_getElem hi) t ht,
      h.numbered j _ (List.getElem?_eq_getElem hj) t' ht']
    exact less
  have accepted : ((Call.accepted calls).filterMap Command.ticket?).Pairwise (· < ·) := by
    rw [Call.accepted, List.filterMap_map, List.pairwise_filterMap]
    exact places.filter _
  rw [h.accepted, List.filterMap_append] at accepted
  exact h.tickets ▸ (List.pairwise_append.mp accepted).left

-- Whoever got in was answered or has its place in the queue.
theorem answered_or_queued (h : Served calls handled queued log answers) {i ticket : Nat} {v : View}
    (found : calls[i]? = some ⟨.snapshot v ticket, .queued⟩) :
    ticket = i ∧ ((∃ s, (i, s) ∈ answers) ∨ .snapshot v i ∈ queued) := by
  obtain rfl : ticket = i := h.numbered i _ found ticket rfl
  refine ⟨rfl, ?_⟩
  have mem : .snapshot v ticket ∈ Call.accepted calls :=
    List.mem_map_of_mem (List.mem_filter.mpr ⟨List.mem_of_getElem? found, rfl⟩)
  rw [h.accepted] at mem
  refine (List.mem_append.mp mem).imp_left fun done => ?_
  have named : ticket ∈ answers.map Prod.fst :=
    h.tickets ▸ List.mem_filterMap.mpr ⟨_, done, rfl⟩
  obtain ⟨⟨_, s⟩, answered, rfl⟩ := List.mem_map.mp named
  exact ⟨s, answered⟩

-- What gets in now is queued behind the others.
theorem ask (h : Served calls handled e.inbox.queued log answers) (inTurn : Call.InTurn calls)
    {r : Engine.Admission × Engine} (asked : e.Asked c r)
    (own : ∀ ticket ∈ c.ticket?, ticket = calls.length) :
    Served (calls ++ [⟨c, r.1⟩]) handled r.2.inbox.queued log answers := by
  have numbered : Call.Numbered (calls ++ [⟨c, r.1⟩]) := by
    intro i call found ticket asks
    rw [List.getElem?_append] at found
    split at found
    case isTrue => exact h.numbered i call found ticket asks
    case isFalse =>
      obtain ⟨last, rfl⟩ : i - calls.length = 0 ∧ ⟨c, r.1⟩ = call := by
        simpa [List.getElem?_singleton] using found
      have := own ticket asks
      omega
  rw [asked.queued_eq]
  exact h.goOn inTurn (Call.goOn_append calls _) numbered (Call.accepted_append ..)

end Served

variable {settings : EngineSettings} {c : Course} {handled : List Command}
variable {answers : List (Nat × Snapshot)}

namespace Served

-- An engine that fails to start answers nobody, and those who got in keep their places.
theorem start (h : Served c.calls handled c.engine.inbox.queued c.log answers)
    (balanced : Course.Balanced settings c) (created : c.engine.phase = .created) {engine : Engine}
    (started : Engine.Started c.engine c.now.instant engine) :
    Served (Call.hear c.engine.inbox engine.inbox c.calls) handled engine.inbox.queued c.log
      answers := by
  cases started
  case runs =>
    have opened : c.engine.inbox.closed = false := balanced.closed.trans (created ▸ rfl)
    exact (Call.hear_self opened c.calls).symm ▸ h
  case fails =>
    have refused := (Call.accepted_refuse c.calls).trans (List.append_nil _).symm
    have served := h.hear balanced.inTurn c.engine.inbox c.engine.inbox.close refused
    exact List.append_nil c.engine.inbox.queued ▸ served

-- What is left when the engine ends is answered in its turn.
theorem finish (h : Served c.calls handled c.engine.inbox.queued c.log answers)
    (recorded : Course.Recorded settings c) (inTurn : Call.InTurn c.calls) :
    let r := c.engine.finish c.now
    Served (Call.hear c.engine.inbox r.2.inbox c.calls) (handled ++ c.engine.inbox.queued)
      r.2.inbox.queued (c.log ++ c.engine.lastEvents c.now)
      (answers ++ r.1.filterMap Effect.answer?) := by
  intro r
  let closing : Engine := { c.engine with inbox := c.engine.inbox.close }
  have inbox : r.2.inbox = { c.engine.inbox.close with queued := [] } :=
    Engine.inbox_finish c.engine c.now
  have emptied : r.2.inbox.queued = [] := by rw [inbox]
  have refused : Call.accepted (Call.hear c.engine.inbox r.2.inbox c.calls) =
      Call.accepted c.calls ++ [] := by
    rw [inbox, List.append_nil]
    exact Call.accepted_refuse c.calls
  have drained : Served c.calls (handled ++ c.engine.inbox.queued) []
      (c.log ++ c.engine.inbox.queued.map (Command.event c.now))
      (answers ++ (closing.handleAll c.now c.engine.inbox.queued).1.filterMap Effect.answer?) :=
    handleAll (e := closing) recorded.table ((List.append_nil c.engine.inbox.queued).symm ▸ h)
  -- The last flush is of no concern to those who ask.
  have flushed : Served c.calls (handled ++ c.engine.inbox.queued) []
      (c.log ++ c.engine.lastEvents c.now) (answers ++ r.1.filterMap Effect.answer?) := by
    simp only [r, Engine.finish_fst, Engine.lastEvents]
    split
    case isTrue =>
      rw [List.filterMap_append, Engine.answers_flush, List.append_nil, ← List.append_assoc]
      exact drained.tick rfl
    case isFalse => simpa [closing] using drained
  exact emptied.symm ▸ flushed.hear inTurn c.engine.inbox r.2.inbox refused

theorem turn (h : Served c.calls handled c.engine.inbox.queued c.log answers)
    (recorded : Course.Recorded settings c) (balanced : Course.Balanced settings c)
    {log : List Table.Event} {r : List Effect × Engine} (t : Engine.Turn c.engine c.now log r) :
    ∃ handled', Served (Call.hear c.engine.inbox r.2.inbox c.calls) handled' r.2.inbox.queued
      (c.log ++ log) (answers ++ r.1.filterMap Effect.answer?) := by
  cases t
  case finish => exact ⟨_, h.finish recorded balanced.inTurn⟩
  case flush running _ _ =>
    refine ⟨handled, ?_⟩
    have same := Call.hear_self (balanced.opened running) c.calls
    rw [Engine.answers_flush, List.append_nil]
    exact same.symm ▸ h.tick rfl
  case expire running _ _ _ =>
    refine ⟨handled, ?_⟩
    have same := Call.hear_self (balanced.opened running) c.calls
    rw [List.filterMap_nil, List.append_nil]
    exact same.symm ▸ h.tick rfl
  case handle command inbox running _ _ _ popped =>
    have opened := balanced.opened running
    obtain ⟨rest, queued, left⟩ := Inbox.pop?_eq_some popped
    have inbox_eq := Engine.inbox_handle { c.engine with inbox } c.now command
    have seated := balanced.accepted_hear opened popped
    have served := (queued ▸ h).handle c.now
    refine ⟨handled ++ [command], ?_⟩
    rw [Engine.answers_handle, inbox_eq]
    have heard := served.hear balanced.inTurn c.engine.inbox inbox seated
    simpa [left, ← recorded.table] using heard

end Served

-- A course with the answers that were given in it, in the order of time.
structure Viewing where
  course  : Course
  answers : List (Nat × Snapshot) := []

-- Whoever asks for a snapshot has a ticket of its own, which is its place among the callers.
def Input.withTicket (n : Nat) : Input → Input
  | .call (.snapshot v _) => .call (.snapshot v n)
  | i                     => i

theorem Input.ticket_withTicket {n : Nat} {i : Input} {c : Command} (h : i.withTicket n = .call c) :
    ∀ ticket ∈ c.ticket?, ticket = n := by
  unfold withTicket at h
  split at h
  case h_1 =>
    cases h
    exact fun ticket asks => (Option.some.inj asks).symm
  case h_2 other =>
    subst h
    cases c with
    | submit _     => exact fun _ asks => by cases asks
    | snapshot v t => exact absurd rfl (other v t)

namespace Viewing

def next (d : Viewing) (i : Input) : Viewing :=
  let i := i.withTicket d.course.calls.length
  { course  := d.course.next i
    answers := d.answers ++ (d.course.effects i).filterMap Effect.answer? }

def after (settings : EngineSettings) (now : Moment) (inputs : List Input) : Viewing :=
  inputs.foldl next { course := .create settings now }

theorem after_append (settings : EngineSettings) (now : Moment) (inputs more : List Input) :
    after settings now (inputs ++ more) = more.foldl next (after settings now inputs) :=
  List.foldl_append ..

@[simp]
theorem after_append_singleton (settings : EngineSettings) (now : Moment) (inputs : List Input)
    (i : Input) : after settings now (inputs ++ [i]) = (after settings now inputs).next i :=
  after_append settings now inputs [i]

-- Whoever looks at the answers sees a course as any other.
theorem exists_course (settings : EngineSettings) (now : Moment) (inputs : List Input) :
    ∃ inputs', (after settings now inputs).course = Course.after settings now inputs' := by
  induction inputs using List.reverseRecOn
  case nil => exact ⟨[], rfl⟩
  case append_singleton inputs i ih =>
    obtain ⟨inputs', same⟩ := ih
    let i' := i.withTicket (after settings now inputs).course.calls.length
    refine ⟨inputs' ++ [i'], ?_⟩
    rw [after_append_singleton, Course.after_append_singleton, ← same]
    rfl

-- Everybody that got in has been answered or will be, in the order in which they came.
def IsServed (d : Viewing) : Prop :=
  ∃ handled, Served d.course.calls handled d.course.engine.inbox.queued d.course.log d.answers

variable {settings : EngineSettings} {d : Viewing}

theorem isServed_next (h : d.IsServed) (recorded : Course.Recorded settings d.course)
    (balanced : Course.Balanced settings d.course) (i : Input) : (d.next i).IsServed := by
  obtain ⟨handled, served⟩ := h
  simp only [next, IsServed]
  have own c := Input.ticket_withTicket (n := d.course.calls.length) (i := i) (c := c)
  generalize i.withTicket d.course.calls.length = i at own
  cases i <;> simp only [Course.next, Course.effects, List.filterMap_nil, List.append_nil]
  case call command =>
    split
    case isTrue  => exact ⟨handled, served⟩
    case isFalse => exact ⟨handled, served.ask balanced.inTurn (Engine.asked_ask ..) (own _ rfl)⟩
  case turn =>
    cases taken : d.course.engine.turn? d.course.now
    case none   => exact ⟨handled, (List.append_nil d.answers).symm ▸ served⟩
    case some r => exact served.turn recorded balanced (Engine.turn_of_turn? taken)
  case await spell =>
    unfold Engine.await
    split
    case h_2 => exact ⟨handled, served⟩
    case h_1 => split <;> exact ⟨handled, served⟩
  case start =>
    split
    case h_1 created => exact ⟨handled, served.start balanced created (Engine.started_start ..)⟩
    case h_2         => exact ⟨handled, served⟩
  case stop | unreadable => exact ⟨handled, served⟩
  case pass | leave => split <;> exact ⟨handled, served⟩

theorem isServed_after (settings : EngineSettings) (now : Moment) (inputs : List Input) :
    (after settings now inputs).IsServed := by
  induction inputs using List.reverseRecOn
  case nil =>
    refine ⟨[], ?numbered, rfl, rfl, rfl, ?shown⟩
    case numbered => exact fun i call found => by cases found
    case shown    => exact fun a mem => by cases mem
  case append_singleton inputs i ih =>
    obtain ⟨inputs', same⟩ := exists_course settings now inputs
    have recorded := Course.recorded_after settings now inputs'
    have balanced := Course.balanced_after settings now inputs'
    exact (after_append_singleton ..).symm ▸ isServed_next ih (same ▸ recorded) (same ▸ balanced) i

-- What happened stays in the log, what was answered stays answered, and callers keep their places.
structure GoesOn (d later : Viewing) : Prop where
  log     : d.course.log <+: later.course.log
  answers : d.answers <+: later.answers
  calls   : Call.GoOn d.course.calls later.course.calls

theorem goesOn_next (d : Viewing) (i : Input) : d.GoesOn (d.next i) :=
  let i' := i.withTicket d.course.calls.length
  ⟨d.course.log_next i', List.prefix_append .., d.course.goOn_next i'⟩

theorem goesOn_after (settings : EngineSettings) (now : Moment) (inputs more : List Input) :
    (after settings now inputs).GoesOn (after settings now (inputs ++ more)) := by
  induction more using List.reverseRecOn
  case nil =>
    rw [List.append_nil]
    exact ⟨List.prefix_refl _, List.prefix_refl _, Call.goOn_refl _⟩
  case append_singleton more i ih =>
    rw [← List.append_assoc, after_append_singleton]
    have step := goesOn_next (after settings now (inputs ++ more)) i
    exact ⟨ih.log.trans step.log, ih.answers.trans step.answers, ih.calls.trans step.calls⟩

-- A snapshot is what its caller would have seen if everything had happened at once at the point
-- where the table had handled those that got in before it. Callers are answered once and in the
-- order in which they came. An observation that got in before a snapshot was called for is among
-- those that it shows, and one that was handed in after the answer is not, because the callers up
-- to that point are settled. Whoever got in is answered at the end, if not before.
theorem snapshots_are_linearizable (settings : EngineSettings) (now : Moment)
    (inputs more : List Input) :
    let d := after settings now inputs
    let later := after settings now (inputs ++ more)
    (d.course.engine.table = Table.after d.course.log ∧ d.GoesOn later) ∧
    (d.answers.map Prod.fst).Pairwise (· < ·) ∧
    (∀ a ∈ d.answers, a.1 < d.course.calls.length ∧
      (∃ v takenAt past, Shows d.course.log d.course.calls a.1 a.2 v takenAt past) ∧
      later.course.calls.take (a.1 + 1) = d.course.calls.take (a.1 + 1)) ∧
    (∀ i, d.course.calls.length ≤ i →
      Call.accepted d.course.calls <+: Call.accepted (later.course.calls.take i)) ∧
    (∀ (i : Nat) v ticket, d.course.calls[i]? = some ⟨.snapshot v ticket, .queued⟩ → ticket = i ∧
      ((∃ s, (i, s) ∈ d.answers) ∨
        .snapshot v i ∈ d.course.engine.inbox.queued ∧ d.course.engine.phase ≠ .ended)) := by
  intro d later
  obtain ⟨inputs', same⟩ := exists_course settings now inputs
  have recorded : Course.Recorded settings d.course := same ▸ Course.recorded_after ..
  have balanced : Course.Balanced settings d.course := same ▸ Course.balanced_after ..
  have goesOn : d.GoesOn later := goesOn_after settings now inputs more
  obtain ⟨handled, served⟩ : d.IsServed := isServed_after settings now inputs
  refine ⟨⟨recorded.table, goesOn⟩, served.ascending, ?shown, ?earlier, ?kept⟩
  case shown =>
    intro a mem
    obtain ⟨v, takenAt, past, shows⟩ := served.shown a mem
    have bound := (List.getElem?_eq_some_iff.mp shows.asked).1
    exact ⟨bound, ⟨v, takenAt, past, shows⟩, shows.take_eq balanced.inTurn goesOn.calls⟩
  case earlier => exact fun i le => Call.accepted_isPrefix balanced.inTurn goesOn.calls le
  case kept =>
    intro i v ticket found
    obtain ⟨own, fate⟩ := served.answered_or_queued found
    refine ⟨own, fate.imp_right fun mem => ⟨mem, fun ended => ?_⟩⟩
    rw [balanced.drained ended] at mem
    cases mem

end Viewing
end MetricCollector
