import MetricCollector.Proofs.Delivery.Move
import MetricCollector.Proofs.Time.Timers

namespace MetricCollector

-- A look decides unless it is too early.
theorem Response.outcome?_eq (r : Response) (limit elapsed : Span) :
    r.outcome? limit elapsed =
      if r.duration limit ≤ elapsed then some (r.succeeds elapsed) else none := by
  cases given : r.delay?
  case none =>
    have silent : r.succeeds elapsed = false := by simp [succeeds, given]
    simp [outcome?, answer?, duration, given, silent]
  case some delay =>
    have answered : r.succeeds elapsed = (r.isAcceptance && decide (delay ≤ elapsed)) := by
      simp [succeeds, given]
    simp only [outcome?, answer?, duration, given, answered, Option.any_some, decide_eq_true_eq]
    by_cases there : delay ≤ elapsed <;> by_cases ended : limit ≤ elapsed <;>
      by_cases early : delay ≤ limit <;> simp [there, ended, early]
    all_goals simp only [Span.le_def] at *; omega

namespace Sink

-- The sink after one attempt to deliver a summary to it.
def attempted (summary : Summary) (accepted : Bool) (s : Sink) : Sink :=
  (s.offer summary).2.note (if accepted then .accepted summary else .failed summary)

-- How the sink answers the next offer.
def reply (s : Sink) : Response :=
  s.respond s.offers

-- What has become of an attempt when one has looked at it after some times.
def tried (summary : Summary) (limit : Span) (looks : List Span) (s : Sink) : Offer × Sink :=
  match looks.find? (s.reply.duration limit ≤ ·) with
  | some elapsed =>
    (.settled (s.reply.succeeds elapsed), s.attempted summary (s.reply.succeeds elapsed))
  | none         => s.offer summary

variable (summary : Summary) (limit : Span) (looks : List Span) (s : Sink)

theorem tried_nil : s.tried summary limit [] = s.offer summary := rfl

theorem tried_append (elapsed : Span) : s.tried summary limit (looks ++ [elapsed]) =
    poll summary limit elapsed (s.tried summary limit looks).1
      (s.tried summary limit looks).2 := by
  rw [tried, tried, List.find?_append]
  cases looks.find? (s.reply.duration limit ≤ ·)
  case some  => rfl
  case none  =>
    have outcome := s.reply.outcome?_eq limit elapsed
    by_cases decided : s.reply.duration limit ≤ elapsed
    case pos =>
      rw [if_pos decided] at outcome
      have outcome : (s.respond s.offers).outcome? limit elapsed = _ := outcome
      simp [poll, offer, decided, outcome, attempted]
    case neg =>
      rw [if_neg decided] at outcome
      have outcome : (s.respond s.offers).outcome? limit elapsed = _ := outcome
      simp [poll, offer, decided, outcome]

theorem isPending_tried : (s.tried summary limit looks).1.isPending =
    (looks.find? (s.reply.duration limit ≤ ·)).isNone := by
  rw [tried]
  cases looks.find? (s.reply.duration limit ≤ ·) <;> rfl

theorem duration?_tried : (s.tried summary limit looks).1.duration? limit =
    if (looks.find? (s.reply.duration limit ≤ ·)).isNone then some (s.reply.duration limit)
    else none := by
  rw [tried]
  cases looks.find? (s.reply.duration limit ≤ ·) <;> rfl

end Sink

-- An offering to some sinks that has been looked at after some times, and the sinks by then.
def Offering.during (summary : Summary) (since : Instant) (spell : ℕ) (limit : Span)
    (looks : List Span) (sinks : List Sink) : Offering × List Sink :=
  ({ summary, since, spell, offers := sinks.map fun s => (s.tried summary limit looks).1 },
   sinks.map fun s => (s.tried summary limit looks).2)

namespace Offering

variable (summary : Summary) (since now : Instant) (spell : ℕ) (limit : Span) (looks : List Span)
  (sinks : List Sink)

theorem start_eq_during :
    start summary since spell sinks = during summary since spell limit [] sinks := by
  simp [start, during, Sink.tried_nil, List.unzip_eq_map]

theorem poll_during :
    (during summary since spell limit looks sinks).1.poll limit now
        (during summary since spell limit looks sinks).2 =
      during summary since spell limit (looks ++ [now.since since]) sinks := by
  simp [poll, during, Sink.tried_append, List.unzip_eq_map, List.zipWith_map, List.zipWith_self]

end Offering

namespace Dispatcher

variable (d : Dispatcher) (summary : Summary) (since : Instant) (spell : ℕ)

-- A dispatcher that has offered a summary and looked at the offering after some times.
def during (looks : List Span) : Offering × Dispatcher :=
  let (offering, sinks) := Offering.during summary since spell (d.limit since) looks d.sinks
  (offering, { d with sinks })

theorem offer_eq_during : d.offer summary since spell = d.during summary since spell [] := by
  rw [offer, Offering.start_eq_during summary since spell (d.limit since)]
  rfl

theorem poll_during (looks : List Span) (now : Instant) :
    (d.during summary since spell looks).2.poll (d.during summary since spell looks).1 now =
      d.during summary since spell (looks ++ [now.since since]) := by
  have limit : (d.during summary since spell looks).2.limit
      (d.during summary since spell looks).1.since = d.limit since := rfl
  simp only [poll, limit]
  simp only [during, Offering.poll_during]

-- However often and however late the dispatcher looks, each sink comes to the same as if there were
-- no others.
theorem foldl_poll (looks : List Instant) :
    looks.foldl (fun x now => x.2.poll x.1 now) (d.offer summary since spell) =
      d.during summary since spell (looks.map (·.since since)) := by
  induction looks using List.reverseRecOn
  case nil => exact d.offer_eq_during summary since spell
  case append_singleton looks now ih =>
    rw [List.foldl_append, ih, List.foldl_cons, List.foldl_nil, poll_during, List.map_append]
    rfl

end Dispatcher
end MetricCollector
