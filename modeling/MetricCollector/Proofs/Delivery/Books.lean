import MetricCollector.Proofs.Delivery.Journal
import MetricCollector.Proofs.Delivery.Move

namespace MetricCollector

namespace DispatcherPhase

-- What the sink at this place is busy with.
def status (p : DispatcherPhase) (i : Nat) : SinkStatus :=
  match p with
  | waiting      => .idle
  | delivering o => (o.offers[i]?.map (Offer.status o.summary)).getD .idle
  | closing c    => if i < c.count then .closed else .idle
  | ended        => .closed

-- How many of this many sinks are closed.
def closed (p : DispatcherPhase) (sinks : Nat) : Nat :=
  match p with
  | closing c => c.count
  | ended     => sinks
  | _         => 0

-- The sinks are closed in their order.
theorem status_eq_closed_iff (p : DispatcherPhase) {i sinks : Nat} (hi : i < sinks) :
    p.status i = .closed ↔ i < p.closed sinks := by
  cases p
  case waiting      => simp [status, closed]
  case closing c    => simp [status, closed]
  case ended        => simp [status, closed, hi]
  case delivering o =>
    simp only [status, closed, Nat.not_lt_zero, iff_false]
    cases o.offers[i]?
    case none       => simp
    case some offer => cases offer <;> simp [Offer.status]

-- The summaries that are being delivered.
def summaries : DispatcherPhase → List Summary
  | delivering o => [o.summary]
  | _            => []

-- The failures that the dispatcher has not counted yet.
def failures : DispatcherPhase → Nat
  | delivering o => o.failures
  | _            => 0

end DispatcherPhase

namespace Dispatcher

-- Nothing is seen of a change that `f` does not see.
theorem map_set_of_getElem? {α β : Type} {f : α → β} {as : List α} {i : Nat} {a a' : α}
    (h : as[i]? = some a) (same : f a' = f a) : (as.set i a').map f = as.map f := by
  obtain ⟨hi, rfl⟩ := List.getElem?_eq_some_iff.mp h
  rw [List.map_set, same, ← List.map_set, List.set_getElem_self]

-- The dispatcher has these sinks, to all of which it has offered these summaries.
structure Books (d : Dispatcher) (sinks : List Sink) (ss : List Summary) : Prop where
  same      : d.sinks.map Sink.unused = sinks
  offers    : ∀ o, d.phase = .delivering o → o.offers.length = d.sinks.length
  histories : ∀ i sink, d.sinks[i]? = some sink →
    Sink.History ss (d.phase.status i) sink.journal
  failures  : d.failures + d.phase.failures = Offering.failuresOf d.sinks

namespace Books

variable {d d' : Dispatcher} {b b' : Backlog Summary} {sinks : List Sink} {ss : List Summary}
variable {now : Instant} {spell : Nat}

theorem create (timeout : Span) (sinks : List Sink) :
    Books { timeout, sinks := sinks.map Sink.unused } (sinks.map Sink.unused) [] where
  same      := by rw [List.map_map]; rfl
  offers    := fun _ h => by cases h
  histories := by
    intro i sink found
    obtain ⟨sink, _, rfl⟩ := List.mem_map.mp (List.mem_of_getElem? found)
    exact .new
  failures  := by
    simp [Offering.failuresOf, Function.comp_def, Sink.failures, Sink.unused,
      DispatcherPhase.failures, List.map_const']

theorem offer (h : d.Books sinks ss) (waiting : d.phase = .waiting) (s : Summary) :
    Books { (d.offer s now spell).2 with phase := .delivering (d.offer s now spell).1 }
      sinks (ss ++ [s]) where
  same := by
    rw [← h.same]
    simp [Dispatcher.offer, Offering.sinks_start]
  offers := by
    intro o delivering
    cases delivering
    simp [Dispatcher.offer, Offering.sinks_start, Offering.offers_start]
  histories := by
    intro i sink
    simp only [Dispatcher.offer, Offering.sinks_start, DispatcherPhase.status,
      Offering.offers_start, List.getElem?_map]
    intro offered
    obtain ⟨sink, found, rfl⟩ := Option.map_eq_some_iff.mp offered
    have idle := h.histories i sink found
    rw [waiting] at idle
    rw [found]
    exact Sink.history_offer idle s
  failures := by
    have failures := h.failures
    rw [waiting] at failures
    simp only [Dispatcher.offer, DispatcherPhase.failures, Offering.failures_start,
      Offering.failuresOf_start]
    exact failures

theorem poll {o : Offering} (h : d.Books sinks ss) (delivering : d.phase = .delivering o)
    (now : Instant) :
    Books { (d.poll o now).2 with phase := .delivering (d.poll o now).1 } sinks ss where
  same := (Offering.unused_sinks_poll (h.offers o delivering)).trans h.same
  offers := by
    intro o' polled
    cases polled
    exact Offering.length_offers_poll
  histories := by
    intro i sink polled
    obtain ⟨offer, sink, hoffer, found, hoffer', rfl⟩ := Offering.getElem?_poll polled
    have history := h.histories i sink found
    simp only [delivering, DispatcherPhase.status, hoffer, Option.map_some,
      Option.getD_some] at history
    simp only [DispatcherPhase.status, Dispatcher.poll, hoffer', Option.map_some, Option.getD_some]
    exact Sink.history_poll history
  failures := by
    have failures := h.failures
    have noted :
        Offering.failuresOf (d.poll o now).2.sinks + o.failures =
          Offering.failuresOf d.sinks + (d.poll o now).1.failures :=
      Offering.failuresOf_poll (h.offers o delivering)
    have count : (d.poll o now).2.failures = d.failures := rfl
    simp only [delivering, DispatcherPhase.failures] at failures ⊢
    omega

theorem look (h : d.Books sinks ss) (now : Instant) : (d.look now).Books sinks ss := by
  unfold Dispatcher.look
  split
  case h_1 o delivering => exact h.poll delivering now
  case h_2              => exact h

-- When all offers are settled, no sink is busy any more.
theorem finish {o : Offering} (h : d.Books sinks ss) (delivering : d.phase = .delivering o)
    (settled : o.isPending = false) : Books { d.count o with phase := .waiting } sinks ss where
  same      := h.same
  offers    := fun _ h => by cases h
  histories := by
    intro i sink found
    have history := h.histories i sink found
    simp only [delivering, DispatcherPhase.status] at history
    cases hoffer : o.offers[i]?
    case none =>
      rw [hoffer] at history
      exact history
    case some offer =>
      -- An offer that is still pending would keep the sink busy.
      have done := List.any_eq_false.mp settled offer (List.mem_of_getElem? hoffer)
      rw [hoffer] at history
      cases offer
      case pending => exact absurd rfl done
      case settled => exact history
  failures  := by
    have failures := h.failures
    rw [delivering] at failures
    exact failures

theorem lose (h : d.Books sinks ss) (waiting : d.phase = .waiting) (n : Nat) :
    Books { d with missed := n, phase := .waiting } sinks ss :=
  waiting ▸ ⟨h.same, h.offers, h.histories, h.failures⟩

theorem drain (h : d.Books sinks ss) (waiting : d.phase = .waiting) :
    Books { d with phase := .closing { since := now, spell } } sinks ss where
  same      := h.same
  offers    := fun _ h => by cases h
  histories := by
    have histories := h.histories
    rw [waiting] at histories
    exact histories
  failures  := by
    have failures := h.failures
    rw [waiting] at failures
    exact failures

-- Only the next sink is closed, and how it answers is of no importance to the others.
theorem close {c : Closing} {sink : Sink} (h : d.Books sinks ss) (closing : d.phase = .closing c)
    (next : d.sinks[c.count]? = some sink) (clean : Bool) :
    Books
      { d with
        sinks := d.sinks.set c.count (sink.note (.closed clean)),
        phase := .closing { count := c.count + 1, since := now, spell } } sinks ss where
  same      := (map_set_of_getElem? next (Sink.unused_note ..)).trans h.same
  offers    := fun _ h => by cases h
  histories := by
    intro i sink' found
    have histories := h.histories
    simp only [closing, DispatcherPhase.status] at histories ⊢
    by_cases this : i = c.count
    case pos =>
      subst this
      have idle := histories c.count sink next
      rw [if_neg (Nat.lt_irrefl _)] at idle
      rw [List.getElem?_set_self (List.getElem?_eq_some_iff.mp next).1] at found
      cases found
      rw [if_pos (Nat.lt_succ_self _)]
      exact .closed idle clean
    case neg =>
      rw [List.getElem?_set_ne (Ne.symm this)] at found
      have before : i < c.count + 1 ↔ i < c.count := by omega
      simp only [before]
      exact histories i sink' found
  failures  := by
    have noted : (sink.note (.closed clean)).failures = sink.failures := by
      simp [Sink.failures, Sink.note, SinkEvent.isFailure]
    have failures := h.failures
    rw [closing] at failures
    rw [Offering.failuresOf, map_set_of_getElem? next noted]
    exact failures

theorem leave {c : Closing} (h : d.Books sinks ss) (closing : d.phase = .closing c)
    (done : d.sinks[c.count]? = none) : Books { d with phase := .ended } sinks ss where
  same      := h.same
  offers    := fun _ h => by cases h
  histories := by
    intro i sink found
    have history := h.histories i sink found
    have before : i < c.count :=
      Nat.lt_of_lt_of_le (List.getElem?_eq_some_iff.mp found).1 (List.getElem?_eq_none_iff.mp done)
    rw [closing, DispatcherPhase.status, if_pos before] at history
    exact history
  failures  := by
    have failures := h.failures
    rw [closing] at failures
    exact failures

-- Whatever the dispatcher does, it keeps its books, and it does not deliver on the sly.
theorem move (h : d.Books sinks ss) (m : Move d b now spell (d', b')) :
    d'.Books sinks (ss ++ d'.phase.summaries) := by
  cases m
  case lose waiting _                  => exact (List.append_nil _).symm ▸ h.lose waiting _
  case offer s _ waiting _ _           => exact h.offer waiting s
  case finish delivering settled       =>
    exact (List.append_nil _).symm ▸ (h.poll delivering now).finish rfl settled
  case drain waiting _ _ _             => exact (List.append_nil _).symm ▸ h.drain waiting
  case close sink clean closing next _ =>
    exact (List.append_nil _).symm ▸ h.close closing next clean
  case leave closing done              => exact (List.append_nil _).symm ▸ h.leave closing done

theorem isClosed_iff (h : d.Books sinks ss) {i : Nat} {sink : Sink}
    (found : d.sinks[i]? = some sink) :
    sink.isClosed = true ↔ i < d.phase.closed d.sinks.length := by
  have history := h.histories i sink found
  rw [Sink.isClosed_eq, history.any_isClosing]
  exact d.phase.status_eq_closed_iff (List.getElem?_eq_some_iff.mp found).1

-- A dispatcher that has ended has closed every sink, and has counted every failure.
theorem of_ended (h : d.Books sinks ss) (ended : d.phase = .ended) :
    d.failures = Offering.failuresOf d.sinks ∧
      ∀ sink ∈ d.sinks, Sink.History ss .closed sink.journal := by
  obtain ⟨_, _, histories, failures⟩ := h
  rw [ended] at histories failures
  refine ⟨failures, fun sink mem => ?_⟩
  obtain ⟨i, found⟩ := List.mem_iff_getElem?.mp mem
  exact histories i sink found

end Books
end Dispatcher
end MetricCollector
