import MetricCollector.Proofs.Service.Rest

namespace MetricCollector

-- Phases that are alike as far as flushes are concerned.
inductive Phase.Like : Phase → Phase → Prop
  | created : Like .created .created
  | running {flush flush' : Ticker} {expiry expiry' : Option Ticker}
      (due : flush'.due = flush.due) (period : flush'.period = flush.period) :
      Like (.running flush' expiry') (.running flush expiry)
  | ended : Like .ended .ended
  | failed : Like .failed .failed

theorem Phase.like_refl (p : Phase) : p.Like p := by
  cases p <;> constructor <;> rfl

theorem Engine.like_await (e : Engine) (now : Instant) (spell : Nat) :
    (e.await now spell).phase.Like e.phase := by
  unfold await
  split
  case h_2 => exact Phase.like_refl _
  case h_1 running =>
    split
    case isTrue  => exact Phase.like_refl _
    case isFalse => exact running ▸ .running rfl rfl

theorem Engine.isEnding_of_await (e : Engine) (now : Instant) (spell : Nat)
    (ending : (e.await now spell).IsEnding) : e.IsEnding := by
  unfold await at ending
  split at ending
  case h_2 => exact ending
  case h_1 => split at ending <;> exact ending

-- A backlog with nothing in it has room for one more.
theorem Backlog.foldl_publish_of_pending_eq_nil {α : Type} {b : Backlog α} (room : 0 < b.capacity)
    (empty : b.pending = []) {as : List α} (few : as.length ≤ 1) :
    as.foldl publish b = { b with pending := as } := by
  cases as
  case nil =>
    cases b
    cases empty
    rfl
  case cons a as =>
    obtain rfl : as = [] := List.eq_nil_of_length_eq_zero (by simpa using few)
    simp [publish, empty, room]

-- An engine that ends flushes once at the most.
theorem Engine.length_summaries_finish_le (e : Engine) (now : Moment) :
    ((e.finish now).1.filterMap Effect.summary?).length ≤ 1 := by
  have quiet : (e.inbox.queued.map (Command.event now)).countP Table.Event.isFlush = 0 := by
    refine List.countP_eq_zero.mpr fun event mem => ?_
    obtain ⟨c, _, rfl⟩ := List.mem_map.mp mem
    rw [c.isFlush_event now]
    decide
  rw [summaries_finish, Table.length_reportsFrom, lastEvents, List.countP_append, quiet]
  split <;> simp [flushEvent, Table.Event.isFlush]

namespace Service

-- While the engine runs. A summary waits only at the instant at which it was flushed, and then
-- whatever is still being delivered has had its time.
structure InStep (interval : Span) (flush : Ticker) (s : Service) : Prop where
  period : flush.period = interval
  early  : s.course.now.instant ≤ flush.due
  fresh  : s.handoff.backlog.pending ≠ [] →
    flush.due = s.course.now.instant.after interval ∧
      s.flushes.getLast? = some ⟨s.course.now.instant, false⟩
  spare  : ∀ t ∈ s.handoff.dispatcher.phase.since?, t.after interval ≤ flush.due ∧
    (s.handoff.backlog.pending ≠ [] → t.after interval ≤ s.course.now.instant)
  calm   : s.course.engine.IsEnding →
    s.handoff.backlog.pending = [] ∧ s.course.now.instant < flush.due

-- What is left to be delivered, depending on how far the engine is.
def KeepsPace (interval : Span) (s : Service) : Prop :=
  match s.course.engine.phase with
  | .created | .failed =>
    s.handoff.backlog.pending = [] ∧ s.handoff.dispatcher.phase.since? = none
  | .running flush _   => s.InStep interval flush
  | .ended             =>
    s.handoff.backlog.pending ≠ [] → ∃ f, s.flushes.getLast? = some f ∧ f.final = true ∧
      ∀ t ∈ s.handoff.dispatcher.phase.since?, t ≤ f.time

-- What is true at any time of a run that is on time.
structure Punctual (interval timeout : Span) (s : Service) : Prop where
  limit  : s.handoff.dispatcher.limit = fun _ => timeout
  told   : s.handoff.backlog.missed = 0
  missed : s.handoff.dispatcher.missed = 0
  single : s.handoff.backlog.pending.length ≤ 1
  begun  : ∀ t ∈ s.handoff.dispatcher.phase.since?, t ≤ s.course.now.instant
  prompt : ∀ (i : Nat) t f, s.starts[i]? = some t → s.flushes[i]? = some f → f.final = false →
    t = f.time
  pace   : s.KeepsPace interval

-- Nothing happens that has to do with flushes, except that a delivery may be over.
structure Abides (s s' : Service) : Prop where
  phase   : s'.course.engine.phase.Like s.course.engine.phase
  ending  : s'.course.engine.IsEnding → s.course.engine.IsEnding
  now     : s'.course.now = s.course.now
  limit   : s'.handoff.dispatcher.limit = s.handoff.dispatcher.limit
  missed  : s'.handoff.dispatcher.missed = s.handoff.dispatcher.missed
  since   : ∀ t ∈ s'.handoff.dispatcher.phase.since?, t ∈ s.handoff.dispatcher.phase.since?
  told    : s'.handoff.backlog.missed = s.handoff.backlog.missed
  pending : s'.handoff.backlog.pending = s.handoff.backlog.pending
  flushes : s'.flushes = s.flushes
  starts  : s'.starts = s.starts

variable {settings : EngineSettings} {room : Nat} {sinks : List Sink} {now : Moment}
variable {interval timeout : Span} {s s' : Service}

-- What an input to the engine does with which nothing is published.
theorem Sound.next_engine_of_news_eq_nil (h : Sound settings room sinks now s)
    {i : MetricCollector.Input} (quiet : s.news i = []) :
    s.next (.engine i) =
      { s with
        course  := s.course.next i,
        handoff := { s.handoff with now := (s.course.next i).now.instant } } := by
  rw [h.next_engine, quiet]
  simp

theorem Sound.next_engine_of_same (h : Sound settings room sinks now s)
    {i : MetricCollector.Input} (quiet : s.news i = []) (same : s.course.next i = s.course) :
    s.next (.engine i) = s := by
  rw [h.next_engine_of_news_eq_nil quiet, same, ← h.together]

theorem Sound.abides_engine (h : Sound settings room sinks now s) {i : MetricCollector.Input}
    (quiet : s.news i = []) (phase : (s.course.next i).engine.phase.Like s.course.engine.phase)
    (ending : (s.course.next i).engine.IsEnding → s.course.engine.IsEnding)
    (same : (s.course.next i).now = s.course.now) : Abides s (s.next (.engine i)) := by
  rw [h.next_engine_of_news_eq_nil quiet]
  exact ⟨phase, ending, same, rfl, rfl, fun _ mem => mem, rfl, rfl, rfl, rfl⟩

-- What an input to the engine does where nothing waits.
theorem Sound.next_engine_of_pending_eq_nil (h : Sound settings room sinks now s)
    {i : MetricCollector.Input} (empty : s.handoff.backlog.pending = [])
    (few : (s.news i).length ≤ 1) :
    s.next (.engine i) =
      { s with
        course  := s.course.next i,
        handoff :=
          { s.handoff with
            now       := (s.course.next i).now.instant,
            backlog   := { s.handoff.backlog with pending := s.news i },
            published := s.handoff.published ++ s.news i },
        flushes := s.flushes ++ (s.news i).map fun _ =>
          ⟨(s.course.next i).now.instant, (s.course.next i).engine.phase.isEnded⟩ } := by
  rw [h.next_engine, Backlog.foldl_publish_of_pending_eq_nil h.handoff.accounts.room empty few]

-- What a step of the dispatcher does that is not the beginning of a delivery.
theorem abides_step {d : Dispatcher} {dispatched : List (Taking Summary)}
    (limit : d.limit = s.handoff.dispatcher.limit)
    (missed : d.missed = s.handoff.dispatcher.missed) (idle : d.phase.since? = none) :
    Abides s
      { s with
        handoff := { s.handoff with dispatcher := d, dispatched },
        starts  := s.starts ++ List.replicate d.phase.summaries.length s.handoff.now } := by
  refine ⟨Phase.like_refl _, id, rfl, limit, missed, fun t mem => ?since, rfl, rfl, rfl, ?starts⟩
  case since  => cases idle ▸ mem
  case starts =>
    have none : d.phase.summaries = [] := by
      cases phase : d.phase <;> rw [phase] at idle <;> first | rfl | cases idle
    simp [none]

-- Who has to wait at rest waits for a delivery that still has time.
theorem Sound.busy_of_isAtRest (h : Sound settings room sinks now s) (rest : s.IsAtRest)
    (waiting : s.handoff.backlog.pending ≠ []) :
    ∃ t ∈ s.handoff.dispatcher.phase.since?,
      s.course.now.instant < t.after (s.handoff.dispatcher.limit t) := by
  have drained (leaving : s.handoff.dispatcher.phase.isLeaving = true) : False :=
    waiting (h.handoff.drained leaving).pending
  cases Dispatcher.rests_of_step?_eq_none rest.right.left
  case idle empty _        => exact absurd empty waiting
  case closing closing _ _ => exact (drained (closing ▸ rfl)).elim
  case ended ended         => exact (drained (ended ▸ rfl)).elim
  case busy o delivering pending =>
    refine ⟨o.since, delivering ▸ rfl, Int.not_le.mp fun up => ?_⟩
    have up := Instant.le_since_of_after_le (h.together ▸ up : _ ≤ s.handoff.now)
    exact Bool.eq_false_iff.mp (Offering.isPending_poll up _) pending

namespace Punctual

theorem create (settings : EngineSettings) (room : Nat) (timeout : Span) (sinks : List Sink)
    (now : Moment) :
    Punctual settings.flushInterval timeout
      (create settings room timeout sinks now).withExactTimers where
  limit  := rfl
  told   := rfl
  missed := rfl
  single := Nat.zero_le _
  begun  := fun _ h => by cases h
  prompt := fun _ _ _ h => by cases h
  pace   := ⟨rfl, rfl⟩

theorem abide (h : Punctual interval timeout s) (a : Abides s s') :
    Punctual interval timeout s' where
  limit  := a.limit.trans h.limit
  told   := a.told.trans h.told
  missed := a.missed.trans h.missed
  single := a.pending ▸ h.single
  begun  := fun t mem => a.now ▸ h.begun t (a.since t mem)
  prompt := by rw [a.starts, a.flushes]; exact h.prompt
  pace   := by
    have pace := h.pace
    have like := a.phase
    unfold KeepsPace at pace ⊢
    generalize s.course.engine.phase = p at pace like
    generalize s'.course.engine.phase = p' at like
    rw [a.pending, a.flushes]
    cases like
    case created | failed =>
      refine ⟨pace.left, Option.eq_none_iff_forall_not_mem.mpr fun t mem => ?_⟩
      cases pace.right ▸ a.since t mem
    case ended =>
      intro waiting
      obtain ⟨f, last, final, before⟩ := pace waiting
      exact ⟨f, last, final, fun t mem => before t (a.since t mem)⟩
    case running due period =>
      refine ⟨period.trans pace.period, ?early, ?fresh, ?spare, ?calm⟩ <;> rw [due, a.now]
      case early => exact pace.early
      case fresh => exact a.pending ▸ a.flushes ▸ pace.fresh
      case spare => exact fun t mem => a.pending ▸ pace.spare t (a.since t mem)
      case calm  => exact fun ending => a.pending ▸ pace.calm (a.ending ending)

-- Nothing waits at rest as long as the engine runs.
theorem pending_eq_nil (h : Punctual interval timeout s) (sound : Sound settings room sinks now s)
    (le : timeout ≤ interval) (rest : s.IsAtRest) {flush : Ticker} {expiry : Option Ticker}
    (running : s.course.engine.phase = .running flush expiry) :
    s.handoff.backlog.pending = [] := by
  by_contra waiting
  have pace := h.pace
  simp only [KeepsPace, running] at pace
  obtain ⟨t, since, early⟩ := sound.busy_of_isAtRest rest waiting
  have done := (pace.spare t since).right waiting
  rw [h.limit] at early
  have le : timeout.nanoseconds ≤ interval.nanoseconds := le
  simp only [Instant.le_def, Instant.lt_def, Instant.after] at done early
  omega

theorem pass (h : Punctual interval timeout s) (sound : Sound settings room sinks now s)
    (le : timeout ≤ interval) (rest : s.IsAtRest) {later : Moment}
    (soon : ∀ t ∈ s.deadlines, later.instant ≤ t) :
    Punctual interval timeout (s.next (.engine (.pass later))) := by
  by_cases forward : s.course.now.instant ≤ later.instant
  case neg =>
    have same : s.course.next (.pass later) = s.course := if_neg forward
    exact (sound.next_engine_of_same rfl same).symm ▸ h
  case pos =>
    have moved : s.course.next (.pass later) = { s.course with now := later } := if_pos forward
    rw [sound.next_engine_of_news_eq_nil rfl, moved]
    refine ⟨h.limit, h.told, h.missed, h.single, fun t mem => ?begun, h.prompt, ?pace⟩
    case begun => exact Instant.le_trans (h.begun t mem) forward
    case pace =>
      have pace := h.pace
      unfold KeepsPace at pace ⊢
      cases phase : s.course.engine.phase <;> simp only [phase] at pace ⊢
      case created | ended | failed => exact pace
      case running flush expiry =>
        have empty := h.pending_eq_nil sound le rest phase
        have waits := (Engine.waits_of_turn?_eq_none phase rest.left).left
        refine ⟨pace.period, soon _ ?due, fun waiting => absurd empty waiting, fun t mem => ?spare,
          fun ending => absurd ending waits⟩
        case due   => simp [deadlines, Engine.ticks, phase]
        case spare => exact ⟨(pace.spare t mem).left, fun waiting => absurd empty waiting⟩

theorem start (h : Punctual settings.flushInterval timeout s)
    (sound : Sound settings room sinks now s) :
    Punctual settings.flushInterval timeout (s.next (.engine .start)) := by
  cases created : s.course.engine.phase
  case running | ended | failed =>
    have same : s.course.next .start = s.course := by simp only [Course.next, created]
    exact (sound.next_engine_of_same rfl same).symm ▸ h
  case created =>
    have pace := h.pace
    simp only [KeepsPace, created] at pace
    rw [sound.next_engine_of_news_eq_nil rfl]
    simp only [Course.next, created]
    have started := Engine.started_start s.course.engine s.course.now.instant
    generalize s.course.engine.start s.course.now.instant = engine at started
    refine ⟨h.limit, h.told, h.missed, h.single, h.begun, h.prompt, ?_⟩
    cases started
    case fails => exact pace
    case runs  =>
      have pos := settings.flushInterval_pos
      refine ⟨?period, ?early, fun waiting => absurd pace.left waiting, fun t mem => ?spare,
        fun _ => ⟨pace.left, ?calm⟩⟩
      case period => exact congrArg EngineSettings.flushInterval sound.recorded.same
      case spare  => cases pace.right ▸ mem
      case early | calm =>
        simp only [Ticker.start, sound.recorded.same, Instant.le_def, Instant.lt_def, Instant.after]
        omega

-- The engine may be asked to stop when a flush has just been delivered, or is not due yet.
theorem bid (h : Punctual interval timeout s) (sound : Sound settings room sinks now s)
    (le : timeout ≤ interval) (rest : s.IsAtRest) {i : MetricCollector.Input}
    (quiet : s.news i = []) (phase : (s.course.next i).engine.phase = s.course.engine.phase)
    (same : (s.course.next i).now = s.course.now) :
    Punctual interval timeout (s.next (.engine i)) := by
  have pace := h.pace
  rw [sound.next_engine_of_news_eq_nil quiet]
  refine ⟨h.limit, h.told, h.missed, h.single, same ▸ h.begun, h.prompt, ?_⟩
  unfold KeepsPace at pace ⊢
  simp only [phase]
  cases running : s.course.engine.phase <;> simp only [running] at pace ⊢
  case created | ended | failed => exact pace
  case running flush expiry =>
    have empty := h.pending_eq_nil sound le rest running
    have early := (Engine.waits_of_turn?_eq_none running rest.left).right
    refine ⟨pace.period, same ▸ pace.early, same ▸ pace.fresh, same ▸ pace.spare,
      fun _ => ⟨empty, ?_⟩⟩
    rw [same]
    exact Int.not_le.mp (of_decide_eq_false early)

-- What is published waits alone.
theorem publish (h : Punctual interval timeout s) (sound : Sound settings room sinks now s)
    {i : MetricCollector.Input} (empty : s.handoff.backlog.pending = [])
    (few : (s.news i).length ≤ 1) (same : (s.course.next i).now = s.course.now)
    (pace : (s.next (.engine i)).KeepsPace interval) :
    Punctual interval timeout (s.next (.engine i)) := by
  rw [sound.next_engine_of_pending_eq_nil empty few] at pace ⊢
  refine ⟨h.limit, h.told, h.missed, few, same ▸ h.begun, ?_, pace⟩
  intro i t f begun flushed
  -- Whatever has begun was published before.
  have counted := sound.handoff.accounts.counted
  have old : i < s.flushes.length := by
    have : i < s.starts.length := (List.getElem?_eq_some_iff.mp begun).1
    rw [Backlog.front] at counted
    have := sound.flushed
    have := sound.started
    omega
  rw [List.getElem?_append_left old] at flushed
  exact h.prompt i t f begun flushed

theorem turn (h : Punctual interval timeout s) (sound : Sound settings room sinks now s) :
    Punctual interval timeout (s.next (.engine .turn)) := by
  cases taken : s.course.engine.turn? s.course.now
  case none =>
    have quiet : s.news .turn = [] := by simp [news, Course.effects, taken]
    have same : s.course.next .turn = s.course := by simp only [Course.next, taken]
    exact (sound.next_engine_of_same quiet same).symm ▸ h
  case some r =>
    have news : s.news .turn = r.1.filterMap Effect.summary? := by
      simp [news, Course.effects, taken]
    have engine : (s.course.next .turn).engine = r.2 := by simp only [Course.next, taken]
    have time : (s.course.next .turn).now = s.course.now := by simp only [Course.next, taken]
    have pace := h.pace
    have turn := Engine.turn_of_turn? taken
    generalize s.course.engine.events s.course.now = log at turn
    cases turn
    case finish flush expiry running ending =>
      simp only [KeepsPace, running] at pace
      have empty : s.handoff.backlog.pending = [] :=
        (pace.calm (ending.imp_right And.right)).left
      have few : (s.news .turn).length ≤ 1 := news ▸ Engine.length_summaries_finish_le ..
      refine h.publish sound empty few time ?_
      rw [sound.next_engine_of_pending_eq_nil empty few]
      simp only [KeepsPace, engine, Engine.phase_finish, time]
      intro waiting
      obtain ⟨summary, single⟩ := List.length_eq_one_iff.mp
        (Nat.le_antisymm few (List.length_pos_iff.mpr waiting))
      exact ⟨⟨s.course.now.instant, true⟩, by simp [single, Phase.isEnded], rfl, h.begun⟩
    case flush flush expiry running going ready =>
      simp only [KeepsPace, running] at pace
      have due : s.course.now.instant = flush.due :=
        Instant.le_antisymm pace.early (of_decide_eq_true ready)
      have unasked : ¬ s.course.engine.IsEnding := by
        intro ending
        exact Int.ne_of_lt (pace.calm ending).right (congrArg Instant.nanoseconds due)
      have pos := pace.period ▸ flush.period_pos
      have empty : s.handoff.backlog.pending = [] := by
        by_contra waiting
        have later := congrArg Instant.nanoseconds (due.trans (pace.fresh waiting).left)
        simp only [Instant.after] at later
        omega
      have next : (flush.tick s.course.now.instant).due = s.course.now.instant.after interval := by
        have onTime : s.course.now.instant ≤ flush.due.after Ticker.tolerance := by
          simp only [due, Instant.le_def, Instant.after]
          omega
        rw [Ticker.due_tick_onTime onTime, ← due, pace.period]
      obtain ⟨summary, single⟩ : ∃ summary, s.news .turn = [summary] := ⟨_, news⟩
      have few : (s.news .turn).length ≤ 1 := by simp [single]
      refine h.publish sound empty few time ?_
      rw [sound.next_engine_of_pending_eq_nil empty few]
      simp only [KeepsPace, engine]
      refine ⟨pace.period, ?early, fun _ => ⟨?fresh, ?last⟩, fun t mem => ?spare,
        fun ending => ?calm⟩
      case early =>
        simp only [next, time, Instant.le_def, Instant.after]
        omega
      case fresh => rw [next, time]
      case last  => simp [single, time, Phase.isEnded]
      case spare =>
        have done : t.after interval ≤ s.course.now.instant := due ▸ (pace.spare t mem).left
        refine ⟨Instant.le_trans done ?_, fun _ => time ▸ done⟩
        simp only [next, Instant.le_def, Instant.after]
        omega
      case calm =>
        rw [engine] at ending
        exact absurd ending unasked
    case expire flush ticker running going early ready =>
      refine h.abide (sound.abides_engine news ?phase ?ending time)
      case phase  => rw [engine, running]; exact .running rfl rfl
      case ending => rw [engine]; exact id
    case handle flush expiry command inbox running going early idle popped =>
      have quiet : s.news .turn = [] := by
        rw [news]
        cases command <;> rfl
      refine h.abide (sound.abides_engine quiet ?phase ?ending time)
      case phase  => rw [engine, Engine.phase_handle]; exact Phase.like_refl _
      case ending => rw [engine]; exact (Engine.isEnding_handle_iff s.course.now popped).mp

-- What happens to the engine without any of that.
theorem engine (h : Punctual settings.flushInterval timeout s)
    (sound : Sound settings room sinks now s) (le : timeout ≤ settings.flushInterval)
    {i : MetricCollector.Input} (admitted : s.admits (.engine i) = true) :
    Punctual settings.flushInterval timeout (s.next (.engine i)) := by
  cases i
  case turn  => exact h.turn sound
  case start => exact h.start sound
  case pass later =>
    obtain ⟨rest, soon⟩ := of_decide_eq_true admitted
    exact h.pass sound le rest soon
  case stop => exact h.bid sound le (of_decide_eq_true admitted) rfl rfl rfl
  case leave =>
    have phase : (s.course.next .leave).engine.phase = s.course.engine.phase := by
      simp only [Course.next]
      split <;> rfl
    have same : (s.course.next .leave).now = s.course.now := by
      simp only [Course.next]
      split <;> rfl
    exact h.bid sound le (of_decide_eq_true admitted) rfl phase same
  case unreadable => exact h.abide (sound.abides_engine rfl (Phase.like_refl _) id rfl)
  case call command =>
    by_cases deserted : s.course.engine.inbox.deserted = true
    case pos =>
      have same : s.course.next (.call command) = s.course := if_pos deserted
      exact (sound.next_engine_of_same rfl same).symm ▸ h
    case neg =>
      have asked := Engine.asked_ask s.course.engine command
      have engine : (s.course.next (.call command)).engine = (s.course.engine.ask command).2 := by
        simp only [Course.next, if_neg deserted]
      have same : (s.course.next (.call command)).now = s.course.now := by
        simp only [Course.next, if_neg deserted]
      refine h.abide (sound.abides_engine rfl ?phase ?ending same)
      case phase  => rw [engine, asked.rests.phase]; exact Phase.like_refl _
      case ending => rw [engine]; exact asked.isEnding_iff.mp
  case await spell =>
    have same : (s.course.next (.await spell)).now = s.course.now := rfl
    refine h.abide (sound.abides_engine rfl ?phase ?ending same)
    case phase  => exact s.course.engine.like_await ..
    case ending => exact s.course.engine.isEnding_of_await _ _

-- The summary that waits is the last one that was flushed.
theorem exists_flushing (h : Punctual interval timeout s)
    (waiting : s.handoff.backlog.pending ≠ [])  :
    ∃ f, s.flushes.getLast? = some f ∧ (f.final = false → s.course.now.instant = f.time) := by
  have pace := h.pace
  unfold KeepsPace at pace
  cases phase : s.course.engine.phase <;> simp only [phase] at pace
  case created | failed => exact absurd pace.left waiting
  case running          => exact ⟨_, (pace.fresh waiting).right, fun _ => rfl⟩
  case ended            =>
    obtain ⟨f, last, final, _⟩ := pace waiting
    exact ⟨f, last, fun periodic => by cases final.symm.trans periodic⟩

-- A delivery begins with the summary that was flushed just now, unless that was the last one.
theorem offer (h : Punctual interval timeout s) (sound : Sound settings room sinks now s)
    {summary : Summary} {rest : List Summary} {d : Dispatcher} {o : Offering}
    {dispatched : List (Taking Summary)}
    (pending : s.handoff.backlog.pending = summary :: rest)
    (limit : d.limit = s.handoff.dispatcher.limit)
    (missed : d.missed = s.handoff.dispatcher.missed) (since : o.since = s.handoff.now) :
    Punctual interval timeout
      { s with
        handoff :=
          { s.handoff with
            dispatcher := { d with phase := .delivering o },
            backlog    := { s.handoff.backlog with pending := rest },
            dispatched },
        starts := s.starts ++ [s.handoff.now] } := by
  have waiting : s.handoff.backlog.pending ≠ [] := by simp [pending]
  obtain rfl : rest = [] := by
    have single := h.single
    rw [pending, List.length_cons] at single
    exact List.eq_nil_of_length_eq_zero (by omega)
  have begins : ∀ t ∈ (DispatcherPhase.delivering o).since?, t = s.course.now.instant :=
    fun t mem => (Option.mem_some.mp mem).symm.trans (since.trans sound.together)
  refine ⟨limit.trans h.limit, h.told, missed.trans h.missed, Nat.zero_le _,
    fun t mem => begins t mem ▸ Int.le_refl _, fun i t f begun flushed periodic => ?prompt, ?pace⟩
  case prompt =>
    by_cases old : i < s.starts.length
    case pos =>
      rw [List.getElem?_append_left old] at begun
      exact h.prompt i t f begun flushed periodic
    case neg =>
      -- The summary that waited is the last one, and so is its flush.
      obtain ⟨last, newest, time⟩ := h.exists_flushing waiting
      have next : i = s.starts.length := by
        have := (List.getElem?_eq_some_iff.mp begun).1
        simp only [List.length_append, List.length_singleton] at this
        omega
      have place : i = s.flushes.length - 1 := by
        have counted := sound.handoff.accounts.counted
        rw [h.told, h.missed, Backlog.front, pending, List.length_singleton] at counted
        rw [next, sound.started, sound.flushed]
        omega
      rw [List.getLast?_eq_getElem?, ← place, flushed] at newest
      rw [next, List.getElem?_concat_length] at begun
      cases newest
      cases begun
      exact sound.together.trans (time periodic)
  case pace =>
    have pace := h.pace
    unfold KeepsPace at pace ⊢
    cases phase : s.course.engine.phase <;> simp only [phase] at pace ⊢
    case created | failed => exact absurd pace.left waiting
    case ended            => exact fun none => absurd rfl none
    case running =>
      refine ⟨pace.period, pace.early, fun none => absurd rfl none,
        fun t mem => ⟨?spare, fun none => absurd rfl none⟩,
        fun ending => absurd (pace.calm ending).left waiting⟩
      rw [begins t mem, (pace.fresh waiting).left]
      exact Int.le_refl _

theorem step (h : Punctual interval timeout s) (sound : Sound settings room sinks now s)
    (spell : Nat) : Punctual interval timeout (s.next (.step spell)) := by
  cases step : s.handoff.dispatcher.step? s.handoff.backlog s.handoff.now spell
  case none => exact (next_step_of_rests step).symm ▸ h
  case some r =>
    obtain ⟨d, b⟩ := r
    have move := Dispatcher.move_of_step? step
    rw [next_step step]
    cases move
    case lose missed   => exact absurd h.told missed
    case offer pending => exact h.offer sound pending rfl rfl rfl
    case finish        => exact h.abide (abides_step rfl rfl rfl)
    case drain         => exact h.abide (abides_step rfl rfl rfl)
    case close         => exact h.abide (abides_step rfl rfl rfl)
    case leave         => exact h.abide (abides_step rfl rfl rfl)

theorem look (h : Punctual interval timeout s) : Punctual interval timeout (s.next .look) := by
  simp only [next, Handoff.next, Dispatcher.look]
  split
  case h_2              => exact h
  case h_1 o delivering =>
    refine h.abide ⟨Phase.like_refl _, id, rfl, rfl, rfl, fun t mem => ?_, rfl, rfl, rfl, rfl⟩
    rw [delivering]
    exact mem

theorem release (h : Punctual interval timeout s) :
    Punctual interval timeout (s.next .release) := by
  simp only [next]
  split
  case isFalse => exact h
  case isTrue  =>
    exact h.abide ⟨Phase.like_refl _, id, rfl, rfl, rfl, fun _ mem => mem, rfl, rfl, rfl, rfl⟩

theorem nextOnTime (h : Punctual settings.flushInterval timeout s)
    (sound : Sound settings room sinks now s) (le : timeout ≤ settings.flushInterval) (i : Input) :
    Punctual settings.flushInterval timeout (s.nextOnTime i) := by
  unfold Service.nextOnTime
  split
  case isFalse => exact h
  case isTrue admitted =>
    cases i
    case engine i   => exact h.engine sound le admitted
    case release    => exact h.release
    case look       => exact h.look
    case step spell => exact h.step sound spell

end Punctual
end Service
end MetricCollector
