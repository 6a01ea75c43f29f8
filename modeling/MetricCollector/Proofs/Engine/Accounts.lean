import MetricCollector.Proofs.Engine.Calls

namespace MetricCollector

open Engine

namespace Inbox

variable {α : Type} {n : Nat} {q q' : Inbox α} {a : α}

theorem pop?_eq_some {a : α} (h : q.pop? = some (a, q')) :
    ∃ as, q.queued = a :: as ∧
      q' = { q with queued := as ++ q.waiting.take 1, waiting := q.waiting.drop 1 } := by
  unfold pop? at h
  split at h
  case h_1 => cases h
  case h_2 a as queued =>
    cases h
    exact ⟨as, queued, rfl⟩

-- The queue keeps to its capacity, and senders wait for nothing but room.
structure Fits (n : Nat) (q : Inbox α) : Prop where
  places : q.capacity = n
  bound  : q.queued.length ≤ n
  full   : q.waiting ≠ [] → n ≤ q.queued.length

namespace Fits

theorem isFull_iff (h : q.Fits n) : q.isFull = true ↔ q.queued.length = n := by
  have := h.bound
  rw [isFull, h.places, decide_eq_true_iff]
  omega

theorem waiting_eq_nil (h : q.Fits n) (room : q.isFull = false) : q.waiting = [] := by
  by_contra waiting
  have full := h.full waiting
  rw [isFull, h.places] at room
  exact absurd full (of_decide_eq_false room)

theorem push (h : q.Fits n) (room : q.isFull = false) : (q.push a).Fits n := by
  have nobody := h.waiting_eq_nil room
  refine ⟨h.places, ?_, fun waiting => absurd nobody waiting⟩
  rw [isFull, h.places] at room
  have free := Nat.lt_of_not_le (of_decide_eq_false room)
  simpa [Inbox.push] using Nat.succ_le_of_lt free

theorem enlist (h : q.Fits n) (full : q.isFull = true) : (q.enlist a).Fits n :=
  ⟨h.places, h.bound, fun _ => Nat.le_of_eq (h.isFull_iff.mp full).symm⟩

-- The place that becomes free is taken at once if somebody waits.
theorem pop (h : q.Fits n) (popped : q.pop? = some (a, q')) : q'.Fits n := by
  have ⟨places, bound, full⟩ := h
  have ⟨as, queued, hq⟩ := pop?_eq_some popped
  subst hq
  rw [queued, List.length_cons] at bound full
  refine ⟨places, ?bound, ?full⟩
  case bound =>
    simp only [List.length_append, List.length_take]
    omega
  case full =>
    cases hw : q.waiting
    case nil => simp
    case cons b bs =>
      have := full (by simp [hw])
      simpa using fun _ => this

theorem emptied (h : q.Fits n) : Fits n { q.close with queued := [] } :=
  ⟨h.places, Nat.zero_le _, fun waiting => absurd rfl waiting⟩

end Fits
end Inbox

-- One of those who wait gets in, unless nobody does.
theorem Call.hear_pop {q q' : Inbox Command} {c : Command} (opened : q.closed = false)
    (popped : q.pop? = some (c, q')) (calls : List Call) :
    hear q q' calls = seat (q.waiting.take 1).length calls := by
  obtain ⟨_, _, left⟩ := Inbox.pop?_eq_some popped
  cases hw : q.waiting <;> simp [hear, left, opened, hw]

-- What an engine replies to an observation that is handed in now. Places that were given to those
-- who wait are taken.
structure Engine.Replies (e : Engine) (reply : Admission) : Prop where
  stopped  : reply = .refused .stopped ↔ e.phase.isOver = true
  overflow : reply = .refused .queueOverflow ↔
    e.phase.isOver = false ∧ e.inbox.queued.length = e.settings.queueCapacity ∧
      e.settings.overflowPolicy = .drop
  waiting  : reply = .waiting ↔
    e.phase.isOver = false ∧ e.inbox.queued.length = e.settings.queueCapacity ∧
      e.settings.overflowPolicy = .block
  queued   : reply = .queued ↔
    e.phase.isOver = false ∧ e.inbox.queued.length < e.settings.queueCapacity

namespace Course

-- The queue, the callers and the log agree on what became of each command.
structure Balanced (settings : EngineSettings) (c : Course) : Prop where
  fits     : c.engine.inbox.Fits settings.queueCapacity
  pending  : Call.pending c.calls = c.engine.inbox.waiting
  inTurn   : Call.InTurn c.calls
  accepted : (Call.accepted c.calls).filterMap Command.metric? =
    Table.metrics c.log ++ c.engine.inbox.queued.filterMap Command.metric?
  dropped  : Call.overflows c.calls = c.engine.counts.dropped
  blocking : settings.overflowPolicy = .block → Call.overflows c.calls = 0
  closed   : c.engine.inbox.closed = c.engine.phase.isOver
  nobody   : c.engine.inbox.closed = true → c.engine.inbox.waiting = []
  drained  : c.engine.phase = .ended → c.engine.inbox.queued = []

variable {settings : EngineSettings} {c : Course}

namespace Balanced

theorem call (h : Balanced settings c) (same : c.engine.settings = settings) {command : Command}
    {r : Admission × Engine} (asked : Asked c.engine command r) :
    Balanced settings { c with engine := r.2, calls := c.calls ++ [⟨command, r.1⟩] } := by
  subst same
  have ⟨fits, pending, inTurn, accepted, dropped, blocking, closed, nobody, drained⟩ := h
  cases asked
  case stopped =>
    refine ⟨fits, ?pending, ?inTurn, ?accepted, ?dropped, ?blocking, closed, nobody, drained⟩
    case pending  => simpa using pending
    case inTurn   => exact Call.inTurn_append_singleton inTurn fun hq => by cases hq
    case accepted => simpa using accepted
    case dropped  => simpa using dropped
    case blocking => simpa using blocking
  case queued opened room =>
    have free := fits.waiting_eq_nil room
    refine ⟨fits.push room, ?pending, ?inTurn, ?accepted, ?dropped, ?blocking, closed, nobody,
      ?drained⟩
    case pending  => simpa [Inbox.push] using pending
    case inTurn   => exact Call.inTurn_append_singleton inTurn fun _ => pending.trans free
    case accepted => simp [Inbox.push, accepted]
    case dropped  => simpa using dropped
    case blocking => simpa using blocking
    case drained =>
      intro ended
      rw [closed, ended] at opened
      cases opened
  case waiting opened full patient =>
    refine ⟨fits.enlist full, ?pending, ?inTurn, ?accepted, ?dropped, ?blocking, closed, ?nobody,
      drained⟩
    case nobody =>
      intro closed
      cases opened.symm.trans closed
    case pending  => simp [Inbox.enlist, pending]
    case inTurn   => exact Call.inTurn_append_singleton inTurn fun hq => by cases hq
    case accepted => simpa [Inbox.enlist] using accepted
    case dropped  => simpa using dropped
    case blocking => simpa using blocking
  case overflow opened full policy observation =>
    refine ⟨fits, ?pending, ?inTurn, ?accepted, ?dropped, ?blocking, closed, nobody, drained⟩
    case pending  => simpa using pending
    case inTurn   => exact Call.inTurn_append_singleton inTurn fun hq => by cases hq
    case accepted => simpa using accepted
    case dropped  => simpa using dropped
    case blocking =>
      intro block
      rw [block] at policy
      cases policy

-- The engine runs as long as the queue is open.
theorem opened (h : Balanced settings c) {flush : Ticker} {expiry : Option Ticker}
    (running : c.engine.phase = .running flush expiry) : c.engine.inbox.closed = false := by
  rw [h.closed, running]
  rfl

-- The place of the command that is handled goes to the one who has waited longest.
theorem accepted_hear (h : Balanced settings c) {command : Command} {inbox : Inbox Command}
    (opened : c.engine.inbox.closed = false)
    (popped : c.engine.inbox.pop? = some (command, inbox)) :
    Call.accepted (Call.hear c.engine.inbox inbox c.calls) =
      Call.accepted c.calls ++ c.engine.inbox.waiting.take 1 := by
  rw [Call.hear_pop opened popped, Call.accepted_seat h.inTurn, h.pending]
  cases c.engine.inbox.waiting <;> rfl

-- What is queued is handled, and those who wait are turned away.
theorem finish (h : Balanced settings c) :
    let engine := (c.engine.finish c.now).2
    Balanced settings
      { c with
        engine,
        log   := c.log ++ c.engine.lastEvents c.now,
        calls := Call.hear c.engine.inbox engine.inbox c.calls } := by
  intro engine
  have inbox : engine.inbox = { c.engine.inbox.close with queued := [] } :=
    inbox_finish c.engine c.now
  have phase : engine.phase = .ended := phase_finish c.engine c.now
  have heard : Call.hear c.engine.inbox engine.inbox c.calls = Call.refuse c.calls := by
    rw [inbox]
    rfl
  have overflows := Call.overflows_eq (Call.becomes_refuse c.calls)
  have follows := follows_finish c.engine c.now
  rw [heard]
  refine ⟨?fits, ?pending, ?inTurn, ?accepted, ?dropped, ?blocking, ?closed, ?nobody, ?drained⟩
  case fits     => exact inbox ▸ h.fits.emptied
  case nobody   => exact fun _ => inbox ▸ rfl
  case pending  =>
    rw [inbox, Call.pending_eq_nil_iff.mpr fun _ => Call.isWaiting_of_mem_refuse]
    rfl
  case inTurn   => exact Call.inTurn_refuse c.calls
  case accepted =>
    rw [Call.accepted_refuse, h.accepted, Table.metrics_append, metrics_lastEvents, inbox]
    exact (List.append_nil _).symm
  case dropped  => rw [overflows, h.dropped, follows.dropped]
  case blocking => exact fun block => overflows.trans (h.blocking block)
  case closed   => simp [inbox, phase, Inbox.close, Phase.isOver]
  case drained  => simp [inbox]

-- A tick has no effect on the queue.
theorem tick (h : Balanced settings c) {engine : Engine} {log : List Table.Event}
    {flush flush' : Ticker} {expiry expiry' : Option Ticker}
    (running : c.engine.phase = .running flush expiry)
    (inbox : engine.inbox = c.engine.inbox)
    (counts : engine.counts.dropped = c.engine.counts.dropped)
    (running' : engine.phase = .running flush' expiry') (ticks : Table.metrics log = []) :
    Balanced settings
      { c with
        engine,
        log   := c.log ++ log,
        calls := Call.hear c.engine.inbox engine.inbox c.calls } := by
  have opened := h.opened running
  rw [inbox, Call.hear_self opened]
  refine ⟨?fits, ?pending, h.inTurn, ?accepted, ?dropped, h.blocking, ?closed, ?nobody, ?drained⟩
  case fits     => exact inbox ▸ h.fits
  case nobody   => exact inbox ▸ h.nobody
  case pending  => exact inbox ▸ h.pending
  case accepted => rw [Table.metrics_append, ticks, List.append_nil, inbox, h.accepted]
  case dropped  => exact counts ▸ h.dropped
  case closed   => simp [inbox, opened, running', Phase.isOver]
  case drained  => simp [running']

-- The first command is handled, and the first that waits takes a place at the end.
theorem handle (h : Balanced settings c) {command : Command} {inbox : Inbox Command}
    {flush : Ticker} {expiry : Option Ticker} (running : c.engine.phase = .running flush expiry)
    (popped : c.engine.inbox.pop? = some (command, inbox)) :
    let engine := (Engine.handle { c.engine with inbox } c.now command).2
    Balanced settings
      { c with
        engine,
        log   := c.log ++ [command.event c.now],
        calls := Call.hear c.engine.inbox engine.inbox c.calls } := by
  intro engine
  have follows := follows_handle { c.engine with inbox } c.now command
  have opened := h.opened running
  have inbox_eq : engine.inbox = inbox := inbox_handle _ _ _
  have phase : engine.phase = c.engine.phase := phase_handle _ _ _
  have ⟨rest, queued, left⟩ := Inbox.pop?_eq_some popped
  let n := (c.engine.inbox.waiting.take 1).length
  have drop : c.engine.inbox.waiting.drop n = c.engine.inbox.waiting.drop 1 := by
    cases hw : c.engine.inbox.waiting <;> simp [n, hw]
  have heard : Call.hear c.engine.inbox engine.inbox c.calls = Call.seat n c.calls :=
    inbox_eq ▸ Call.hear_pop opened popped c.calls
  have overflows := Call.overflows_eq (Call.becomes_seat n c.calls)
  rw [heard]
  refine ⟨?fits, ?pending, ?inTurn, ?accepted, ?dropped, ?blocking, ?closed, ?nobody, ?drained⟩
  case fits     => exact inbox_eq ▸ h.fits.pop popped
  case nobody   => simp [inbox_eq, left, opened]
  case pending  => rw [Call.pending_seat, h.pending, drop, inbox_eq, left]
  case inTurn   => exact Call.inTurn_seat n h.inTurn
  case accepted =>
    have handled := Command.metrics_map_event c.now [command]
    rw [List.map_singleton] at handled
    rw [← heard, inbox_eq, h.accepted_hear opened popped, List.filterMap_append, h.accepted, queued,
      Table.metrics_append, handled, left, ← List.singleton_append]
    simp only [List.filterMap_append, List.append_assoc]
  case dropped  => rw [overflows, h.dropped, follows.dropped]
  case blocking => exact fun block => overflows.trans (h.blocking block)
  case closed   => simp [inbox_eq, left, phase, running, opened, Phase.isOver]
  case drained  => simp [phase, running]

theorem turn (h : Balanced settings c) {log : List Table.Event} {r : List Effect × Engine}
    (t : Turn c.engine c.now log r) :
    Balanced settings
      { c with
        engine := r.2,
        log    := c.log ++ log,
        calls  := Call.hear c.engine.inbox r.2.inbox c.calls } := by
  cases t
  case finish running ending => exact h.finish
  case flush running going ready => exact h.tick running rfl rfl rfl rfl
  case expire running going early ready => exact h.tick running rfl rfl rfl rfl
  case handle running going early idle popped => exact h.handle running popped

-- What neither touches the queue nor ends the engine has no effect.
theorem rest (h : Balanced settings c) {c' : Course} (inbox : c'.engine.inbox = c.engine.inbox)
    (dropped : c'.engine.counts.dropped = c.engine.counts.dropped)
    (finished : c'.engine.phase.isOver = c.engine.phase.isOver)
    (ended : c'.engine.phase = .ended → c.engine.phase = .ended) (log : c'.log = c.log)
    (calls : c'.calls = c.calls) : Balanced settings c' where
  fits     := inbox ▸ h.fits
  pending  := by rw [calls, inbox, h.pending]
  inTurn   := calls ▸ h.inTurn
  accepted := by rw [calls, inbox, log, h.accepted]
  dropped  := by rw [calls, dropped, h.dropped]
  blocking := calls ▸ h.blocking
  closed   := by rw [inbox, finished, h.closed]
  nobody   := inbox ▸ h.nobody
  drained  := fun last => inbox ▸ h.drained (ended last)

-- What is queued stays there, and those who wait are turned away.
theorem fail (h : Balanced settings c) :
    Balanced settings { c with engine := c.engine.fail, calls := Call.refuse c.calls } := by
  have overflows := Call.overflows_eq (Call.becomes_refuse c.calls)
  refine ⟨?fits, ?pending, ?inTurn, ?accepted, ?dropped, ?blocking, rfl, fun _ => rfl, ?drained⟩
  case fits     => exact ⟨h.fits.places, h.fits.bound, fun waiting => absurd rfl waiting⟩
  case pending  => exact Call.pending_eq_nil_iff.mpr fun _ => Call.isWaiting_of_mem_refuse
  case inTurn   => exact Call.inTurn_refuse c.calls
  case accepted => exact (congrArg _ (Call.accepted_refuse c.calls)).trans h.accepted
  case dropped  => exact overflows.trans h.dropped
  case blocking => exact fun block => overflows.trans (h.blocking block)
  case drained  => exact fun ended => by cases ended

theorem start (h : Balanced settings c) (created : c.engine.phase = .created) {engine : Engine}
    (started : Started c.engine c.now.instant engine) :
    Balanced settings
      { c with engine, calls := Call.hear c.engine.inbox engine.inbox c.calls } := by
  cases started
  case fails => exact h.fail
  case runs  =>
    have opened : c.engine.inbox.closed = false := h.closed.trans (created ▸ rfl)
    have same := Call.hear_self opened c.calls
    exact h.rest rfl rfl (created ▸ rfl) (fun ended => by cases ended) rfl same

theorem next (h : Balanced settings c) (same : c.engine.settings = settings) (i : Input) :
    Balanced settings (c.next i) := by
  cases i <;> simp only [Course.next]
  case pass later =>
    split
    case isTrue  => exact h.rest rfl rfl rfl id rfl rfl
    case isFalse => exact h
  case start =>
    split
    case h_1 created => exact h.start created (started_start ..)
    case h_2         => exact h
  case call command =>
    split
    case isTrue  => exact h
    case isFalse => exact h.call same (asked_ask c.engine command)
  case unreadable => exact h.rest rfl rfl rfl id rfl rfl
  case stop       => exact h.rest rfl rfl rfl id rfl rfl
  case leave =>
    split
    case isTrue =>
      exact ⟨⟨h.fits.places, h.fits.bound, h.fits.full⟩, h.pending, h.inTurn, h.accepted,
        h.dropped, h.blocking, h.closed, h.nobody, h.drained⟩
    case isFalse => exact h
  case await spell =>
    unfold Engine.await
    split
    case h_2 => exact h
    case h_1 flush expiry running =>
      split
      case isTrue  => exact h
      case isFalse => exact h.rest rfl rfl (running ▸ rfl) (fun ended => by cases ended) rfl rfl
  case turn =>
    split
    case h_1 => exact h
    case h_2 effects engine taken => exact h.turn (turn_of_turn? taken)

end Balanced

theorem balanced_after (settings : EngineSettings) (now : Moment) (inputs : List Input) :
    Balanced settings (after settings now inputs) := by
  induction inputs using List.reverseRecOn
  case nil =>
    refine ⟨⟨rfl, Nat.zero_le _, fun h => absurd rfl h⟩, rfl, .nil, rfl, rfl, fun _ => rfl, rfl,
      fun _ => rfl, fun _ => rfl⟩
  case append_singleton inputs i ih =>
    have same := (recorded_after settings now inputs).same
    exact (after_append_singleton ..).symm ▸ ih.next same i

theorem goOn_next (c : Course) (i : Input) : Call.GoOn c.calls (c.next i).calls := by
  cases i <;> simp only [Course.next]
  case call command =>
    split
    case isTrue  => exact Call.goOn_refl c.calls
    case isFalse => exact Call.goOn_append c.calls _
  case turn =>
    split
    case h_1 => exact Call.goOn_refl c.calls
    case h_2 => exact Call.goOn_of_forall₂ (Call.becomes_hear ..)
  case start =>
    split
    case h_1 => exact Call.goOn_of_forall₂ (Call.becomes_hear ..)
    case h_2 => exact Call.goOn_refl c.calls
  case unreadable | stop | await => exact Call.goOn_refl c.calls
  case pass | leave => split <;> exact Call.goOn_refl c.calls

-- An engine that has ended or failed does not come back.
theorem phase_next_of_isOver (finished : c.engine.phase.isOver = true) (i : Input) :
    (c.next i).engine.phase = c.engine.phase := by
  cases i <;> simp only [Course.next]
  case pass later => split <;> rfl
  case start =>
    split
    case h_1 created => cases created ▸ finished
    case h_2         => rfl
  case call command =>
    split
    case isTrue  => rfl
    case isFalse => exact (asked_ask c.engine command).rests.phase
  case unreadable => rfl
  case leave => split <;> rfl
  case await =>
    unfold Engine.await
    split
    case h_1 running => cases running ▸ finished
    case h_2         => rfl
  case turn => rw [Engine.turn?_of_isOver finished]

theorem ended_next (ended : c.engine.phase = .ended) (i : Input) :
    (c.next i).engine.phase = .ended :=
  (phase_next_of_isOver (ended ▸ rfl) i).trans ended

theorem goOn_after (settings : EngineSettings) (now : Moment) (inputs more : List Input) :
    Call.GoOn (after settings now inputs).calls (after settings now (inputs ++ more)).calls := by
  induction more using List.reverseRecOn
  case nil => exact (List.append_nil inputs).symm ▸ Call.goOn_refl _
  case append_singleton more i ih =>
    rw [← List.append_assoc, after_append_singleton]
    exact ih.trans (goOn_next _ i)

theorem phase_after_of_isOver {now : Moment} {inputs : List Input}
    (finished : (after settings now inputs).engine.phase.isOver = true) (more : List Input) :
    (after settings now (inputs ++ more)).engine.phase =
      (after settings now inputs).engine.phase := by
  induction more using List.reverseRecOn
  case nil => rw [List.append_nil]
  case append_singleton more i ih =>
    rw [← List.append_assoc, after_append_singleton]
    exact (phase_next_of_isOver (ih ▸ finished) i).trans ih

theorem Balanced.replies (h : Balanced settings c) (same : c.engine.settings = settings)
    (m : Metric) : c.engine.Replies (c.engine.submit m).1 := by
  subst same
  have bound := h.fits.bound
  have going (opened : c.engine.inbox.closed = false) : c.engine.phase.isOver = false :=
    h.closed.symm.trans opened
  have asked : Asked c.engine (.submit m) (c.engine.submit m) := asked_ask c.engine (.submit m)
  generalize c.engine.submit m = r at asked
  cases asked
  case stopped closed =>
    have finished : c.engine.phase.isOver = true := h.closed.symm.trans closed
    constructor <;> simp [finished]
  case queued opened room =>
    have free : c.engine.inbox.queued.length ≠ c.engine.settings.queueCapacity := by
      rw [ne_eq, ← h.fits.isFull_iff, room]
      decide
    have less := Nat.lt_of_le_of_ne bound free
    constructor <;> simp [going opened, free, less]
  case waiting opened full patient =>
    have full := h.fits.isFull_iff.mp full
    constructor <;> simp [going opened, full, patient rfl]
  case overflow opened full policy observation =>
    have full := h.fits.isFull_iff.mp full
    constructor <;> simp [going opened, full, policy]

-- Nobody waits in front of an empty queue.
theorem Balanced.waiting_eq_nil (h : Balanced settings c) (empty : c.engine.inbox.queued = []) :
    c.engine.inbox.waiting = [] := by
  by_contra waiting
  have full := h.fits.full waiting
  have places := settings.queueCapacity_pos
  rw [empty, List.length_nil] at full
  omega

-- Whatever got in has been handled when the engine has ended.
theorem Balanced.metrics_log (h : Balanced settings c) (ended : c.engine.phase = .ended) :
    Table.metrics c.log = (Call.accepted c.calls).filterMap Command.metric? := by
  have accepted := h.accepted
  rw [h.drained ended] at accepted
  exact (accepted.trans (List.append_nil _)).symm

-- The bound and the replies hold at any time, and a reply is final. What got into the queue is
-- handled in that order, and what was refused never is. When the engine is over nobody waits, and
-- from then on everybody is turned away. At the end of an engine that ran nothing is left.
theorem submissions_are_accounted_for (settings : EngineSettings) (now : Moment)
    (inputs more : List Input) :
    let c := after settings now inputs
    let later := after settings now (inputs ++ more)
    let accepted := (Call.accepted c.calls).filterMap Command.metric?
    (c.engine.inbox.queued.length ≤ settings.queueCapacity ∧
      (∀ m, c.engine.Replies (c.engine.submit m).1) ∧ Call.GoOn c.calls later.calls) ∧
    (c.engine.table = Table.after c.log ∧
      accepted = Table.metrics c.log ++ c.engine.inbox.queued.filterMap Command.metric? ∧
      Call.overflows c.calls = c.engine.counts.dropped ∧
      (settings.overflowPolicy = .block → Call.overflows c.calls = 0)) ∧
    (c.engine.phase.isOver = true →
      (∀ call ∈ c.calls, call.isWaiting = false) ∧
        ∀ command, (later.engine.ask command).1 = .refused .stopped) ∧
    (c.engine.phase = .ended →
      Table.metrics c.log = accepted ∧
        accepted.length + c.unreadable = c.engine.counts.received + c.engine.counts.invalid) := by
  intro c later accepted
  have recorded := recorded_after settings now inputs
  have h := balanced_after settings now inputs
  refine ⟨⟨h.fits.bound, h.replies recorded.same, goOn_after settings now inputs more⟩,
    ⟨recorded.table, h.accepted, h.dropped, h.blocking⟩, fun finished => ⟨?nobody, ?stopped⟩,
    fun ended => ⟨h.metrics_log ended, ?counted⟩⟩
  case nobody =>
    exact Call.pending_eq_nil_iff.mp (h.pending.trans (h.nobody (h.closed.trans finished)))
  case counted =>
    rw [show accepted = Table.metrics c.log from (h.metrics_log ended).symm]
    exact recorded.handled.symm
  case stopped =>
    intro command
    have h := balanced_after settings now (inputs ++ more)
    have closed : later.engine.inbox.closed = true :=
      h.closed.trans (phase_after_of_isOver finished more ▸ finished)
    have asked := asked_ask later.engine command
    generalize later.engine.ask command = r at asked
    cases asked
    case stopped => rfl
    case queued opened _ | waiting opened _ _ | overflow opened _ _ _ =>
      rw [closed] at opened
      cases opened

end Course
end MetricCollector
