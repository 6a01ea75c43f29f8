import Mathlib.Algebra.GroupWithZero.Nat
import MetricCollector.Delivery.Offering

namespace MetricCollector

-- What a sink is busy with.
inductive SinkStatus
  | idle
  | busy (s : Summary)
  | closed

-- How many attempts to deliver to the sink are going on.
def SinkStatus.attempts : SinkStatus → Nat
  | busy _ => 1
  | _      => 0

-- The journals that a sink can have that has got these summaries, and nothing else, in this order.
-- As in a journal, the latest event is the first.
inductive Sink.History : List Summary → SinkStatus → List SinkEvent → Prop
  | new : History [] .idle []
  | offered {ss j} (h : History ss .idle j) (s : Summary) :
      History (ss ++ [s]) (.busy s) (.offered s :: j)
  | answered {ss s j} (h : History ss (.busy s) j) (accepted : Bool) :
      History ss .idle ((if accepted then .accepted s else .failed s) :: j)
  | closed {ss j} (h : History ss .idle j) (clean : Bool) : History ss .closed (.closed clean :: j)

namespace SinkEvent

def offered? : SinkEvent → Option Summary
  | offered s => some s
  | _         => none

def isFailure : SinkEvent → Bool
  | failed _ => true
  | _        => false

def isClosing : SinkEvent → Bool
  | closed _ => true
  | _        => false

end SinkEvent

namespace Sink

-- The summaries that were offered to the sink, in the order of time.
def attempts (s : Sink) : List Summary :=
  s.journal.reverse.filterMap SinkEvent.offered?

-- How many attempts to deliver to the sink have failed.
def failures (s : Sink) : Nat :=
  s.journal.countP SinkEvent.isFailure

theorem isClosed_eq (s : Sink) : s.isClosed = s.journal.any SinkEvent.isClosing := by
  refine congrArg s.journal.any (funext fun e => ?_)
  cases e <;> rfl

-- A sink to which nothing has happened yet.
def unused (s : Sink) : Sink :=
  { s with offers := 0, journal := [] }

@[simp]
theorem unused_note (s : Sink) (e : SinkEvent) : (s.note e).unused = s.unused := rfl

@[simp]
theorem unused_offer (s : Sink) (summary : Summary) : (s.offer summary).2.unused = s.unused := rfl

@[simp]
theorem unused_poll (s : Sink) (summary : Summary) (timeout elapsed : Span) (o : Offer) :
    (poll summary timeout elapsed o s).2.unused = s.unused := by
  unfold poll
  split
  case h_1 => split <;> rfl
  case h_2 => rfl

namespace History

variable {ss : List Summary} {status : SinkStatus} {j : List SinkEvent}

theorem offers (h : History ss status j) : j.reverse.filterMap SinkEvent.offered? = ss := by
  induction h
  case new => rfl
  case offered s ih => simp [ih, SinkEvent.offered?]
  case answered accepted ih => cases accepted <;> simp [ih, SinkEvent.offered?]
  case closed ih => simp [ih, SinkEvent.offered?]

-- A sink is not closed before its time.
theorem open_of_idle_or_busy (h : History ss status j) (opened : status ≠ .closed) :
    ∀ e ∈ j, e.isClosing = false := by
  induction h
  case new => exact fun _ h => by cases h
  case offered s ih => simpa [SinkEvent.isClosing] using ih (by simp)
  case answered accepted ih =>
    cases accepted <;> simpa [SinkEvent.isClosing] using ih (by simp)
  case closed => exact absurd rfl opened

-- The one and only closing comes last.
theorem closing_last (h : History ss .closed j) :
    ∃ clean past, j = .closed clean :: past ∧ ∀ e ∈ past, e.isClosing = false := by
  cases h
  case closed past clean idle =>
    exact ⟨clean, past, rfl, idle.open_of_idle_or_busy (by simp)⟩

theorem any_isClosing (h : History ss status j) :
    j.any SinkEvent.isClosing = true ↔ status = .closed where
  mp closing := by
    obtain ⟨e, he, closing⟩ := List.any_eq_true.mp closing
    refine Classical.byContradiction fun opened => ?_
    rw [h.open_of_idle_or_busy opened e he] at closing
    cases closing
  mpr closed := by
    subst closed
    obtain ⟨clean, past, rfl, _⟩ := h.closing_last
    rfl

end History

-- Every attempt has succeeded or failed, except for the one that is going on.
theorem accepted_add_failures {s : Sink} {ss : List Summary} {status : SinkStatus}
    (h : History ss status s.journal) :
    s.accepted.length + s.failures + status.attempts = ss.length := by
  unfold accepted failures
  generalize s.journal = j at h
  induction h
  case new => rfl
  case offered s ih =>
    simp [SinkEvent.isFailure, SinkStatus.attempts] at ih ⊢
    omega
  case answered accepted ih =>
    cases accepted <;>
      simp [SinkEvent.isFailure, SinkStatus.attempts, List.countP_cons] at ih ⊢ <;> omega
  case closed ih => simpa [SinkEvent.isFailure, SinkStatus.attempts] using ih

end Sink

namespace Offer

-- What a sink does that has got this offer.
def status (summary : Summary) : Offer → SinkStatus
  | pending _ => .busy summary
  | settled _ => .idle

end Offer

section

variable {ss : List Summary} {summary : Summary} {timeout elapsed : Span} {o : Offer} {s : Sink}

theorem Sink.history_offer (h : History ss .idle s.journal) (summary : Summary) :
    History (ss ++ [summary]) ((s.offer summary).1.status summary) (s.offer summary).2.journal :=
  .offered h summary

theorem Sink.history_poll (h : History ss (o.status summary) s.journal) :
    History ss ((poll summary timeout elapsed o s).1.status summary)
      (poll summary timeout elapsed o s).2.journal := by
  unfold poll
  split
  case h_1 r =>
    split
    case h_1 accepted _ => exact h.answered accepted
    case h_2 => exact h
  case h_2 => exact h

theorem Sink.failures_poll (summary : Summary) (timeout elapsed : Span) (o : Offer) (s : Sink) :
    (poll summary timeout elapsed o s).2.failures + [o].countP Offer.hasFailed =
      s.failures + [(poll summary timeout elapsed o s).1].countP Offer.hasFailed := by
  cases o
  case settled   => rfl
  case pending r =>
    simp only [poll]
    cases r.outcome? timeout elapsed
    case none          => rfl
    case some accepted =>
      cases accepted <;> simp [failures, note, Offer.hasFailed, SinkEvent.isFailure,
        List.countP_cons]

end

namespace Offering

variable {o : Offering} {timeout : Span} {now : Instant} {sinks : List Sink}

-- How many attempts to deliver to any of the sinks have failed.
def failuresOf (sinks : List Sink) : Nat :=
  (sinks.map Sink.failures).sum

theorem offers_start (summary : Summary) (since : Instant) (spell : Nat) (sinks : List Sink) :
    (start summary since spell sinks).1.offers = sinks.map fun s => (s.offer summary).1 := by
  simp [start, List.unzip_eq_map]

theorem sinks_start (summary : Summary) (since : Instant) (spell : Nat) (sinks : List Sink) :
    (start summary since spell sinks).2 = sinks.map fun s => (s.offer summary).2 := by
  simp [start, List.unzip_eq_map]

theorem offers_poll (o : Offering) (timeout : Span) (now : Instant) (sinks : List Sink) :
    (o.poll timeout now sinks).1.offers =
      List.zipWith (fun offer s => (Sink.poll o.summary timeout (now.since o.since) offer s).1)
        o.offers sinks := by
  simp [poll, List.unzip_eq_map, List.map_zipWith]

theorem sinks_poll (o : Offering) (timeout : Span) (now : Instant) (sinks : List Sink) :
    (o.poll timeout now sinks).2 =
      List.zipWith (fun offer s => (Sink.poll o.summary timeout (now.since o.since) offer s).2)
        o.offers sinks := by
  simp [poll, List.unzip_eq_map, List.map_zipWith]

theorem length_offers_poll :
    (o.poll timeout now sinks).1.offers.length = (o.poll timeout now sinks).2.length := by
  rw [offers_poll, sinks_poll, List.length_zipWith, List.length_zipWith]

theorem unused_sinks_poll (same : o.offers.length = sinks.length) :
    (o.poll timeout now sinks).2.map Sink.unused = sinks.map Sink.unused := by
  refine List.ext_getElem ?length fun i _ _ => ?getElem
  case length  => simp [sinks_poll, same]
  case getElem => simp [sinks_poll]

-- What the sink at one place is offered and does is its own affair.
theorem getElem?_poll {i : Nat} {s : Sink} (h : (o.poll timeout now sinks).2[i]? = some s) :
    ∃ offer s', o.offers[i]? = some offer ∧ sinks[i]? = some s' ∧
      (o.poll timeout now sinks).1.offers[i]? =
        some (Sink.poll o.summary timeout (now.since o.since) offer s').1 ∧
      s = (Sink.poll o.summary timeout (now.since o.since) offer s').2 := by
  rw [sinks_poll, List.getElem?_zipWith_eq_some] at h
  obtain ⟨offer, s', hoffer, hs, rfl⟩ := h
  refine ⟨offer, s', hoffer, hs, ?_, rfl⟩
  rw [offers_poll, List.getElem?_zipWith_eq_some]
  exact ⟨offer, s', hoffer, hs, rfl⟩

theorem failures_start (summary : Summary) (since : Instant) (spell : Nat) (sinks : List Sink) :
    (start summary since spell sinks).1.failures = 0 := by
  rw [failures, offers_start, List.countP_map, List.countP_eq_zero]
  exact fun _ _ h => by cases h

theorem failuresOf_start (summary : Summary) (since : Instant) (spell : Nat) (sinks : List Sink) :
    failuresOf (start summary since spell sinks).2 = failuresOf sinks := by
  rw [failuresOf, sinks_start, List.map_map]
  rfl

-- Whoever is settled now as a failure has just noted it.
theorem failuresOf_poll (same : o.offers.length = sinks.length) :
    failuresOf (o.poll timeout now sinks).2 + o.failures =
      failuresOf sinks + (o.poll timeout now sinks).1.failures := by
  rw [failures, failures, failuresOf, failuresOf, sinks_poll, offers_poll]
  generalize o.offers = offers at same
  induction sinks generalizing offers
  case nil =>
    have : offers = [] := List.length_eq_zero_iff.mp same
    subst this
    rfl
  case cons s sinks ih =>
    cases offers
    case nil => cases same
    case cons offer offers =>
      have rest := ih offers (Nat.succ.inj same)
      have first := Sink.failures_poll o.summary timeout (now.since o.since) offer s
      rw [List.zipWith_cons_cons, List.zipWith_cons_cons, List.map_cons, List.map_cons,
        List.sum_cons, List.sum_cons]
      rw [List.countP_cons, List.countP_cons]
      rw [List.countP_singleton, List.countP_singleton] at first
      omega

end Offering
end MetricCollector
