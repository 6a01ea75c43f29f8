import MetricCollector.Delivery.Dispatcher
import MetricCollector.Proofs.Delivery.Journal

namespace MetricCollector

-- When the time is up, every attempt has come to something.
theorem Response.outcome?_ne_none {limit elapsed : Span} (h : limit ≤ elapsed) (r : Response) :
    r.outcome? limit elapsed ≠ none := by
  rw [outcome?, if_pos h]
  cases r.answer? elapsed <;> simp

theorem Response.answer?_ne_none {elapsed delay : Span} {r : Response} (h : r.delay? = some delay)
    (le : delay ≤ elapsed) : r.answer? elapsed ≠ none := by
  simp [answer?, h, le]

theorem Sink.isPending_poll {limit elapsed : Span} (h : limit ≤ elapsed) (summary : Summary)
    (o : Offer) (s : Sink) : (poll summary limit elapsed o s).1.isPending = false := by
  cases o
  case settled   => rfl
  case pending r =>
    obtain ⟨accepted, outcome⟩ := Option.ne_none_iff_exists'.mp (r.outcome?_ne_none h)
    simp [poll, outcome, Offer.isPending]

theorem Offering.isPending_poll {o : Offering} {limit : Span} {now : Instant}
    (h : limit ≤ now.since o.since) (sinks : List Sink) :
    (o.poll limit now sinks).1.isPending = false := by
  rw [isPending, List.any_eq_false]
  intro offer mem
  obtain ⟨i, hi⟩ := List.mem_iff_getElem?.mp mem
  rw [offers_poll, List.getElem?_zipWith_eq_some] at hi
  obtain ⟨offer, sink, _, _, rfl⟩ := hi
  exact Bool.eq_false_iff.mp (sink.isPending_poll h o.summary offer)

-- Looking twice at the same instant shows nothing new.
theorem Sink.poll_poll (summary : Summary) (limit elapsed : Span) (o : Offer) (s : Sink) :
    poll summary limit elapsed (poll summary limit elapsed o s).1
      (poll summary limit elapsed o s).2 = poll summary limit elapsed o s := by
  cases o
  case settled   => rfl
  case pending r => cases outcome : r.outcome? limit elapsed <;> simp [poll, outcome]

theorem Offering.offers_poll_poll (o : Offering) (limit : Span) (now : Instant)
    (sinks : List Sink) :
    ((o.poll limit now sinks).1.poll limit now (o.poll limit now sinks).2).1.offers =
      (o.poll limit now sinks).1.offers := by
  rw [offers_poll, sinks_poll, offers_poll]
  refine List.ext_getElem (by simp) fun i _ _ => ?_
  simp only [List.getElem_zipWith]
  exact congrArg Prod.fst (Sink.poll_poll ..)

namespace Dispatcher

-- The steps that a dispatcher can take, with what becomes of the backlog.
inductive Move (d : Dispatcher) (b : Backlog Summary) (now : Instant) (spell : Nat) :
    Dispatcher × Backlog Summary → Prop
  | lose (waiting : d.phase = .waiting) (missed : b.missed ≠ 0) :
      Move d b now spell
        ({ d with missed := d.missed + b.missed, phase := .waiting }, { b with missed := 0 })
  | offer {s ss} (waiting : d.phase = .waiting) (told : b.missed = 0)
      (pending : b.pending = s :: ss) :
      Move d b now spell
        ({ (d.offer s now spell).2 with phase := .delivering (d.offer s now spell).1 },
         { b with pending := ss })
  | finish {o} (delivering : d.phase = .delivering o)
      (settled : (d.poll o now).1.isPending = false) :
      Move d b now spell ({ (d.poll o now).2.count (d.poll o now).1 with phase := .waiting }, b)
  | drain (waiting : d.phase = .waiting) (told : b.missed = 0) (pending : b.pending = [])
      (closed : b.closed = true) :
      Move d b now spell ({ d with phase := .closing { since := now, spell } }, b)
  | close {c sink clean} (closing : d.phase = .closing c) (next : d.sinks[c.count]? = some sink)
      (answer : sink.leave.answer? (now.since c.since) = some clean) :
      Move d b now spell
        ({ d with
           sinks := d.sinks.set c.count (sink.note (.closed clean)),
           phase := .closing { count := c.count + 1, since := now, spell } }, b)
  | leave {c} (closing : d.phase = .closing c) (done : d.sinks[c.count]? = none) :
      Move d b now spell ({ d with phase := .ended }, b)

-- Why a dispatcher has no step to take.
inductive Rests (d : Dispatcher) (b : Backlog Summary) (now : Instant) : Prop
  | idle (waiting : d.phase = .waiting) (told : b.missed = 0) (pending : b.pending = [])
      (opened : b.closed = false)
  | busy {o} (delivering : d.phase = .delivering o) (pending : (d.poll o now).1.isPending = true)
  | closing {c sink} (closing : d.phase = .closing c) (next : d.sinks[c.count]? = some sink)
      (unanswered : sink.leave.answer? (now.since c.since) = none)
  | ended (ended : d.phase = .ended)

-- A dispatcher moves unless it rests.
inductive Next (d : Dispatcher) (b : Backlog Summary) (now : Instant) (spell : Nat) :
    Option (Dispatcher × Backlog Summary) → Prop
  | rests (h : Rests d b now) : Next d b now spell none
  | moves {r} (h : Move d b now spell r) : Next d b now spell (some r)

variable {d : Dispatcher} {b : Backlog Summary} {now : Instant} {spell : Nat}

theorem Next.of_move {r : Dispatcher × Backlog Summary} (h : Move d b now spell r)
    (step : d.step? b now spell = some r) : Next d b now spell (d.step? b now spell) :=
  step ▸ .moves h

theorem Next.of_rests (h : Rests d b now) (step : d.step? b now spell = none) :
    Next d b now spell (d.step? b now spell) :=
  step ▸ .rests h

theorem next_of_waiting (waiting : d.phase = .waiting) :
    Next d b now spell (d.step? b now spell) := by
  by_cases told : b.missed = 0
  case neg =>
    refine .of_move (.lose waiting told) ?_
    simp only [step?, waiting, Backlog.take, ne_eq, told, not_false_eq_true, if_true]
  case pos =>
    cases pending : b.pending
    case cons s ss =>
      refine .of_move (.offer waiting told pending) ?_
      simp only [step?, waiting, Backlog.take, if_neg (not_not_intro told), pending]
    case nil =>
      cases closed : b.closed
      case false =>
        refine .of_rests (.idle waiting told pending closed) ?_
        simp [step?, waiting, Backlog.take, told, pending, closed]
      case true =>
        refine .of_move (.drain waiting told pending closed) ?_
        simp [step?, waiting, Backlog.take, told, pending, closed]

theorem next_of_closing {c : Closing} (closing : d.phase = .closing c) :
    Next d b now spell (d.step? b now spell) := by
  cases next : d.sinks[c.count]?
  case none =>
    refine .of_move (.leave closing next) ?_
    simp only [step?, closing, closeNext?, next, Option.map_some]
  case some sink =>
    cases answer : sink.leave.answer? (now.since c.since)
    case none =>
      refine .of_rests (.closing closing next answer) ?_
      simp only [step?, closing, closeNext?, next, answer, Option.map_none]
    case some clean =>
      refine .of_move (.close closing next answer) ?_
      simp only [step?, closing, closeNext?, next, answer, Option.map_some]

theorem next_step? (d : Dispatcher) (b : Backlog Summary) (now : Instant) (spell : Nat) :
    Next d b now spell (d.step? b now spell) := by
  cases phase : d.phase
  case waiting      => exact next_of_waiting phase
  case closing c    => exact next_of_closing phase
  case ended        => exact .of_rests (.ended phase) (by simp only [step?, phase])
  case delivering o =>
    cases settled : (d.poll o now).1.isPending
    case true  => exact .of_rests (.busy phase settled) (by simp [step?, phase, settled])
    case false => exact .of_move (.finish phase settled) (by simp [step?, phase, settled])

theorem move_of_step? {r : Dispatcher × Backlog Summary} (h : d.step? b now spell = some r) :
    Move d b now spell r := by
  have next := next_step? d b now spell
  rw [h] at next
  cases next
  case moves move => exact move

theorem rests_of_step?_eq_none (h : d.step? b now spell = none) : d.Rests b now := by
  have next := next_step? d b now spell
  rw [h] at next
  cases next
  case rests rests => exact rests

theorem step?_eq_none_iff {spell : Nat} : d.step? b now spell = none ↔ d.Rests b now where
  mp  := rests_of_step?_eq_none
  mpr rests := by
    cases rests
    case idle waiting told pending opened =>
      simp [step?, waiting, Backlog.take, told, pending, opened]
    case busy delivering pending         => simp [step?, delivering, pending]
    case closing closing next unanswered => simp [step?, closing, closeNext?, next, unanswered]
    case ended ended                     => simp [step?, ended]

-- A dispatcher that has come to rest stays so when it looks at the sinks once more.
theorem rests_look (h : d.Rests b now) : (d.look now).Rests b now := by
  cases phase : d.phase
  case waiting | closing | ended =>
    have same : d.look now = d := by simp [look, phase]
    exact same.symm ▸ h
  case delivering o =>
    have looked : d.look now =
        { (d.poll o now).2 with phase := .delivering (d.poll o now).1 } := by simp [look, phase]
    cases h
    case idle h _ _ _ | closing h _ _ | ended h => cases phase.symm.trans h
    case busy delivering pending =>
      cases phase.symm.trans delivering
      refine .busy (by rw [looked]) ?_
      rw [looked]
      have again := o.offers_poll_poll (d.limit o.since) now d.sinks
      exact (congrArg (List.any · Offer.isPending) again).trans pending

theorem rests_settle (d : Dispatcher) (b : Backlog Summary) (now : Instant) (spell : Nat) :
    (d.settle b now spell).1.Rests (d.settle b now spell).2 now := by
  fun_induction settle d b now spell
  case case1 rests   => exact rests_look (rests_of_step?_eq_none rests)
  case case2 step ih => exact ih

-- Nobody waits for ever, unless it is for a summary or for a sink that never says that it is
-- closed.
theorem exists_not_rests (b : Backlog Summary) (now : Instant) (closed : b.closed = true)
    (polite : ∀ sink ∈ d.sinks, sink.leave.delay? ≠ none) (going : d.phase ≠ .ended) :
    ∃ later, now ≤ later ∧ ¬ d.Rests b later := by
  cases phase : d.phase
  case ended   => exact absurd phase going
  case waiting =>
    refine ⟨now, Int.le_refl _, fun rests => ?_⟩
    cases rests
    case idle opened                        => cases opened.symm.trans closed
    case busy h _ | closing h _ _ | ended h => cases phase.symm.trans h
  case delivering o =>
    let up := o.since.after (d.limit o.since)
    refine ⟨now.later up, now.le_later_left _, fun rests => ?_⟩
    cases rests
    case idle h _ _ _ | closing h _ _ | ended h => cases phase.symm.trans h
    case busy h pending                         =>
      cases phase.symm.trans h
      have ended := Instant.le_since_of_after_le (now.le_later_right up)
      exact Bool.eq_false_iff.mp (Offering.isPending_poll ended d.sinks) pending
  case closing c =>
    cases next : d.sinks[c.count]?
    case none =>
      refine ⟨now, Int.le_refl _, fun rests => ?_⟩
      cases rests
      case idle h _ _ _ | busy h _ | ended h => cases phase.symm.trans h
      case closing h found _                 =>
        cases phase.symm.trans h
        cases next.symm.trans found
    case some sink =>
      have ⟨delay, hdelay⟩ :=
        Option.ne_none_iff_exists'.mp (polite sink (List.mem_of_getElem? next))
      refine ⟨now.later (c.since.after delay), now.le_later_left _, fun rests => ?_⟩
      cases rests
      case idle h _ _ _ | busy h _ | ended h => cases phase.symm.trans h
      case closing h found unanswered        =>
        cases phase.symm.trans h
        cases next.symm.trans found
        have up := Instant.le_since_of_after_le (now.le_later_right (c.since.after delay))
        exact Response.answer?_ne_none hdelay up unanswered

theorem exists_move (b : Backlog Summary) (now : Instant) (spell : Nat) (closed : b.closed = true)
    (polite : ∀ sink ∈ d.sinks, sink.leave.delay? ≠ none) (going : d.phase ≠ .ended) :
    ∃ later, now ≤ later ∧ ∃ r, d.step? b later spell = some r := by
  obtain ⟨later, le, restless⟩ := exists_not_rests b now closed polite going
  refine ⟨later, le, Option.ne_none_iff_exists'.mp fun none => ?_⟩
  exact restless (rests_of_step?_eq_none none)

end Dispatcher
end MetricCollector
