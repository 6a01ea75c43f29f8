import MetricCollector.Delivery.Outlet
import MetricCollector.Proofs.Delivery.Backlog
import MetricCollector.Proofs.Delivery.Books

namespace MetricCollector

-- Whether the dispatcher will take nothing more from the backlog.
def DispatcherPhase.isLeaving : DispatcherPhase → Bool
  | closing _ => true
  | ended     => true
  | _         => false

-- A dispatcher at the end of a backlog, with what was published and what was dispatched so far.
structure Handoff where
  backlog    : Backlog Summary
  dispatcher : Dispatcher
  now        : Instant
  published  : List Summary := []
  dispatched : List (Taking Summary) := []

-- What the dispatcher takes and what it is told was lost are accounted for.
theorem Backlog.Accounts.move {d d' : Dispatcher} {b b' : Backlog Summary} {now : Instant}
    {spell : Nat} {published : List Summary} {taken : List (Taking Summary)}
    (h : b.Accounts published taken d.missed) (m : Dispatcher.Move d b now spell (d', b')) :
    b'.Accounts published
      (taken ++ d'.phase.summaries.map fun s => ⟨b.front published, s⟩) d'.missed := by
  cases m
  case lose          => exact (List.append_nil taken).symm ▸ h.report
  case offer pending => exact h.take pending
  case finish        => exact (List.append_nil taken).symm ▸ h
  case drain         => exact (List.append_nil taken).symm ▸ h
  case close         => exact (List.append_nil taken).symm ▸ h
  case leave         => exact (List.append_nil taken).symm ▸ h

namespace Handoff

-- What can happen next.
inductive Input
  | publish (s : Summary)
  -- Nothing more will come.
  | close
  | pass (later : Instant)
  -- The dispatcher looks at what the sinks have answered so far.
  | look
  | step (spell : Nat)

-- Before anything has happened to the sinks.
def create (room : Nat) (timeout : Span) (sinks : List Sink) (now : Instant) : Handoff :=
  let outlet := Outlet.create room timeout (sinks.map Sink.unused)
  { backlog := outlet.backlog, dispatcher := outlet.dispatcher, now }

-- The summaries that are being delivered were the oldest ones in the backlog.
def taken (h : Handoff) (p : DispatcherPhase) : List (Taking Summary) :=
  p.summaries.map fun s => ⟨h.backlog.front h.published, s⟩

-- What cannot happen at this point changes nothing: time does not run backwards, and nothing is
-- published when nothing more will come.
def next (h : Handoff) : Input → Handoff
  | .publish s  =>
    if h.backlog.closed then h
    else { h with backlog := h.backlog.publish s, published := h.published ++ [s] }
  | .close      => { h with backlog := h.backlog.close }
  | .pass later => if h.now ≤ later then { h with now := later } else h
  | .look       => { h with dispatcher := h.dispatcher.look h.now }
  | .step spell =>
    match h.dispatcher.step? h.backlog h.now spell with
    | none                       => h
    | some (dispatcher, backlog) =>
      { h with dispatcher, backlog, dispatched := h.dispatched ++ h.taken dispatcher.phase }

-- Where inputs lead to.
def after (room : Nat) (timeout : Span) (sinks : List Sink) (now : Instant) (inputs : List Input) :
    Handoff :=
  inputs.foldl next (create room timeout sinks now)

-- What a dispatcher does on its own can also happen here.
theorem exists_settle (h : Handoff) (spell : Nat) :
    ∃ inputs : List Input, (inputs.foldl next h).now = h.now ∧
      (inputs.foldl next h).published = h.published ∧
      ((inputs.foldl next h).dispatcher, (inputs.foldl next h).backlog) =
        h.dispatcher.settle h.backlog h.now spell := by
  induction work : h.dispatcher.workload h.backlog using Nat.strong_induction_on generalizing h
  case h work ih =>
    subst work
    -- Every call of `settle` is one step, and the last one only looks.
    rw [Dispatcher.settle]
    split
    case h_1 rests => exact ⟨[.look], rfl, rfl, rfl⟩
    case h_2 dispatcher backlog step =>
      obtain ⟨inputs, time, published, settled⟩ :=
        ih _ (Dispatcher.step?_workload_lt step) (h.next (.step spell)) (by simp [next, step])
      refine ⟨.step spell :: inputs, ?time, ?published, ?settled⟩
      case time      => simpa [next, step] using time
      case published => simpa [next, step] using published
      case settled   => simpa [next, step] using settled

-- Nothing is left in the backlog once the sinks are being closed.
structure Drained (b : Backlog Summary) : Prop where
  closed  : b.closed = true
  told    : b.missed = 0
  pending : b.pending = []

theorem Drained.move {d d' : Dispatcher} {b b' : Backlog Summary} {now : Instant} {spell : Nat}
    (h : d.phase.isLeaving = true → Drained b) (m : Dispatcher.Move d b now spell (d', b'))
    (leaving : d'.phase.isLeaving = true) : Drained b' := by
  cases m
  case lose                      => cases leaving
  case offer                     => cases leaving
  case finish                    => cases leaving
  case drain told pending closed => exact ⟨closed, told, pending⟩
  case close closing _ _         => exact h (closing ▸ rfl)
  case leave closing _           => exact h (closing ▸ rfl)

-- What is true whenever summaries are handed over.
structure Sound (room : Nat) (sinks : List Sink) (h : Handoff) : Prop where
  capacity : h.backlog.capacity = room.nextPowerOfTwo
  accounts : h.backlog.Accounts h.published h.dispatched h.dispatcher.missed
  books    : h.dispatcher.Books (sinks.map Sink.unused) (h.dispatched.map Taking.item)
  drained  : h.dispatcher.phase.isLeaving = true → Drained h.backlog

namespace Sound

variable {room : Nat} {sinks : List Sink} {h : Handoff}

theorem create (room : Nat) (timeout : Span) (sinks : List Sink) (now : Instant) :
    Sound room sinks (create room timeout sinks now) where
  capacity := rfl
  accounts := .withRoom room
  books    := .create timeout sinks
  drained  := fun h => by cases h

theorem publish (s : Sound room sinks h) (opened : h.backlog.closed = false) (summary : Summary) :
    Sound room sinks
      { h with backlog := h.backlog.publish summary, published := h.published ++ [summary] } where
  capacity := by
    simp only [Backlog.publish]
    split <;> exact s.capacity
  accounts := s.accounts.publish summary
  books    := s.books
  drained  := fun leaving => by cases opened.symm.trans (s.drained leaving).closed

theorem close (s : Sound room sinks h) :
    Sound room sinks { h with backlog := h.backlog.close } where
  capacity := s.capacity
  accounts := s.accounts.close
  books    := s.books
  drained  := fun leaving => ⟨rfl, (s.drained leaving).told, (s.drained leaving).pending⟩

theorem look (s : Sound room sinks h) :
    Sound room sinks { h with dispatcher := h.dispatcher.look h.now } where
  capacity := s.capacity
  accounts := by
    have missed : (h.dispatcher.look h.now).missed = h.dispatcher.missed := by
      unfold Dispatcher.look
      split <;> rfl
    exact missed ▸ s.accounts
  books    := s.books.look h.now
  drained  := by
    intro leaving
    refine s.drained ?_
    unfold Dispatcher.look at leaving
    split at leaving
    case h_1 => cases leaving
    case h_2 => exact leaving

theorem step (s : Sound room sinks h) {spell : Nat} {d : Dispatcher} {b : Backlog Summary}
    (m : Dispatcher.Move h.dispatcher h.backlog h.now spell (d, b)) :
    Sound room sinks
      { h with dispatcher := d, backlog := b, dispatched := h.dispatched ++ h.taken d.phase } where
  capacity := by cases m <;> exact s.capacity
  accounts := s.accounts.move m
  books    := by simpa [taken, Function.comp_def] using s.books.move m
  drained  := Drained.move s.drained m

theorem next (s : Sound room sinks h) (i : Input) : Sound room sinks (h.next i) := by
  cases i <;> simp only [Handoff.next]
  case publish summary =>
    split
    case isTrue         => exact s
    case isFalse opened => exact s.publish (Bool.eq_false_iff.mpr opened) summary
  case close => exact s.close
  case pass later =>
    split
    case isTrue  => exact ⟨s.capacity, s.accounts, s.books, s.drained⟩
    case isFalse => exact s
  case look => exact s.look
  case step spell =>
    split
    case h_1                         => exact s
    case h_2 dispatcher backlog step => exact s.step (Dispatcher.move_of_step? step)

theorem leave_ne_none (s : Sound room sinks h)
    (polite : ∀ sink ∈ sinks, sink.leave.delay? ≠ none) :
    ∀ sink ∈ h.dispatcher.sinks, sink.leave.delay? ≠ none := by
  intro sink mem
  have unused : sink.unused ∈ sinks.map Sink.unused := s.books.same ▸ List.mem_map_of_mem mem
  obtain ⟨configured, mem, same⟩ := List.mem_map.mp unused
  have leave : configured.leave = sink.leave := (congrArg Sink.leave same :)
  exact leave ▸ polite configured mem

-- When nothing more comes, the dispatcher ends, if all sinks say some time that they are closed.
theorem exists_end (s : Sound room sinks h) (closed : h.backlog.closed = true)
    (polite : ∀ sink ∈ sinks, sink.leave.delay? ≠ none) :
    ∃ inputs : List Input, (inputs.foldl Handoff.next h).dispatcher.phase = .ended := by
  induction work : h.dispatcher.workload h.backlog using Nat.strong_induction_on generalizing h
  case h work ih =>
    subst work
    by_cases going : h.dispatcher.phase = .ended
    case pos => exact ⟨[], going⟩
    case neg =>
      -- There may be no step now, but there is one later, and it leaves less to do.
      obtain ⟨later, le, ⟨d, b⟩, step⟩ :=
        Dispatcher.exists_move h.backlog h.now 0 closed (s.leave_ne_none polite) going
      have less := Dispatcher.step?_workload_lt step
      have moved : (h.next (.pass later)).next (.step 0) =
          { h with
            now := later, dispatcher := d, backlog := b,
            dispatched := h.dispatched ++ h.taken d.phase } := by
        simp [Handoff.next, le, step, taken]
      have s := (s.next (.pass later)).next (.step 0)
      rw [moved] at s
      have closed : b.closed = true := by
        cases Dispatcher.move_of_step? step <;> exact closed
      obtain ⟨inputs, ended⟩ := ih _ less s closed rfl
      refine ⟨.pass later :: .step 0 :: inputs, ?_⟩
      rw [List.foldl_cons, List.foldl_cons, moved]
      exact ended

end Sound

theorem sound_after (room : Nat) (timeout : Span) (sinks : List Sink) (now : Instant)
    (inputs : List Input) : Sound room sinks (after room timeout sinks now inputs) := by
  induction inputs using List.reverseRecOn
  case nil                          => exact .create room timeout sinks now
  case append_singleton inputs i ih =>
    rw [after, List.foldl_append]
    exact ih.next i

-- At any time the dispatcher has taken summaries in the order in which they were published, and has
-- given each of them to every sink once. Whatever is in front of those that wait and was not taken
-- is counted as lost, and had a whole backlog of newer ones behind it. At the end nothing waits.
theorem summaries_are_handed_off (room : Nat) (timeout : Span) (sinks : List Sink) (now : Instant)
    (inputs : List Input) :
    let h := after room timeout sinks now inputs
    let d := h.dispatcher
    let summaries := h.dispatched.map Taking.item
    (h.backlog.capacity = room.nextPowerOfTwo ∧ d.sinks.map Sink.unused = sinks.map Sink.unused) ∧
    (h.dispatched.Pairwise (·.place < ·.place) ∧
      ∀ t ∈ h.dispatched, h.published[t.place]? = some t.item) ∧
    (∀ i sink, d.sinks[i]? = some sink →
      sink.attempts = summaries ∧ Sink.History summaries (d.phase.status i) sink.journal) ∧
    (∃ n : Nat, ∀ i (sink : Sink), d.sinks[i]? = some sink → (sink.isClosed = true ↔ i < n)) ∧
    (h.dispatched.length + d.missed + h.backlog.missed = h.backlog.front h.published ∧
      ∀ i < h.backlog.front h.published,
        (∃ t ∈ h.dispatched, t.place = i) ∨ i + h.backlog.capacity < h.published.length) ∧
    (d.phase = .ended →
      h.backlog.closed = true ∧ h.dispatched.length + d.missed = h.published.length ∧
      (∀ i < h.published.length, h.published.length ≤ i + h.backlog.capacity →
        ∃ t ∈ h.dispatched, t.place = i) ∧
      d.failures = Offering.failuresOf d.sinks ∧
      ∀ sink ∈ d.sinks, sink.accepted.length + sink.failures = summaries.length ∧
        ∃ clean past, sink.journal = .closed clean :: past ∧ ∀ e ∈ past, e.isClosing = false) ∧
    ((∀ sink ∈ sinks, sink.leave.delay? ≠ none) →
      ∃ more,
        (after room timeout sinks now (inputs ++ .close :: more)).dispatcher.phase = .ended) := by
  intro h d summaries
  have s := sound_after room timeout sinks now inputs
  refine ⟨⟨s.capacity, s.books.same⟩, ⟨s.accounts.inOrder, s.accounts.found⟩, ?attempts, ?closings,
    ⟨s.accounts.counted, s.accounts.skipped⟩, ?ended, ?ends⟩
  case attempts =>
    intro i sink found
    have history := s.books.histories i sink found
    exact ⟨history.offers, history⟩
  case closings => exact ⟨_, fun i sink => s.books.isClosed_iff⟩
  case ended =>
    intro ended
    have drained := s.drained (ended ▸ rfl)
    have front : h.backlog.front h.published = h.published.length := by
      rw [Backlog.front, drained.pending, List.length_nil, Nat.sub_zero]
    obtain ⟨failures, histories⟩ := s.books.of_ended ended
    refine ⟨drained.closed, ?counted, ?newest, failures, fun sink mem => ?sinks⟩
    case counted =>
      have counted := s.accounts.counted
      rw [front, drained.told] at counted
      exact counted
    case newest =>
      -- What was skipped had a whole backlog of newer ones behind it, and these have not.
      intro i hi newest
      exact (s.accounts.skipped i (front ▸ hi)).resolve_right (Nat.not_lt.mpr newest)
    case sinks =>
      have history := histories sink mem
      exact ⟨Sink.accepted_add_failures history, history.closing_last⟩
  case ends =>
    intro polite
    have s := s.next .close
    obtain ⟨more, ended⟩ := s.exists_end rfl polite
    refine ⟨more, ?_⟩
    rw [after, List.foldl_append]
    exact ended

end Handoff
end MetricCollector
