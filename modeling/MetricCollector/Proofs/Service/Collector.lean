import MetricCollector.Collector
import MetricCollector.Proofs.Service.Pace

namespace MetricCollector

theorem Outlet.foldl_publish (o : Outlet) (summaries : List Summary) :
    summaries.foldl publish o =
      { o with backlog := summaries.foldl Backlog.publish o.backlog } := by
  induction summaries generalizing o
  case nil                 => rfl
  case cons s summaries ih => exact ih (o.publish s)

theorem Dispatcher.closed_settle (d : Dispatcher) (b : Backlog Summary) (now : Instant)
    (spell : Nat) : (d.settle b now spell).2.closed = b.closed := by
  fun_induction settle d b now spell
  case case1         => rfl
  case case2 step ih => exact ih.trans (by cases move_of_step? step <;> rfl)

namespace Collector

theorem outlet_runEngine (c : Collector) :
    c.runEngine.outlet = { c.outlet with
      backlog := ((c.engine.work c.now c.spell).1.filterMap Effect.summary?).foldl Backlog.publish
        c.outlet.backlog } :=
  Outlet.foldl_publish ..

theorem outlet_runOutlet {c : Collector} (running : c.outlet.running = true)
    (aside : c.outlet.aside = none) {settled : Dispatcher × Backlog Summary}
    (comes : settled = c.outlet.dispatcher.settle
      (if c.engine.phase.isOver then c.outlet.backlog.close else c.outlet.backlog)
      c.now.instant c.spell) :
    c.runOutlet.outlet = { c.outlet with
      now := c.now.instant, spell := c.spell, dispatcher := settled.1, backlog := settled.2 } := by
  simp only [runOutlet, Outlet.settle, Outlet.settleAside, aside, running, comes]
  rfl

end Collector

namespace Service

-- A collector that is as far as the service, with nothing delivered past the backlog.
structure Reflects (s : Service) (c : Collector) : Prop where
  engine     : s.course.engine = c.engine
  now        : s.course.now = c.now
  backlog    : s.handoff.backlog = c.outlet.backlog
  dispatcher : s.handoff.dispatcher = c.outlet.dispatcher
  running    : c.outlet.running = true
  aside      : c.outlet.aside = none

-- A collector that the service can get as far as without anything happening to it.
def Settles (s : Service) (c : Collector) : Prop :=
  ∃ tasks : List Input, (∀ i ∈ tasks, i.isTask = true) ∧ (tasks.foldl next s).Reflects c

variable {settings : EngineSettings} {room : Nat} {sinks : List Sink} {now : Moment}
variable {s : Service} {c c' : Collector}

theorem Sound.foldl (h : Sound settings room sinks now s) (inputs : List Input) :
    Sound settings room sinks now (inputs.foldl Service.next s) := by
  induction inputs generalizing s
  case nil              => exact h
  case cons i inputs ih => exact ih (h.next i)

theorem Settles.trans (h : s.Settles c) (sound : Sound settings room sinks now s)
    (onward : ∀ s' : Service, Sound settings room sinks now s' → s'.Reflects c → s'.Settles c') :
    s.Settles c' := by
  obtain ⟨tasks, own, reflects⟩ := h
  obtain ⟨more, own', reflects'⟩ := onward _ (sound.foldl tasks) reflects
  refine ⟨tasks ++ more, List.forall_mem_append.mpr ⟨own, own'⟩, ?_⟩
  rw [List.foldl_append]
  exact reflects'

-- What the service looks like when the engine has worked and the dispatcher has not.
structure Worked (s s' : Service) (effects : List Effect) (engine : Engine) : Prop where
  now        : s'.course.now = s.course.now
  engine     : s'.course.engine = engine
  backlog    : s'.handoff.backlog =
    (effects.filterMap Effect.summary?).foldl Backlog.publish s.handoff.backlog
  dispatcher : s'.handoff.dispatcher = s.handoff.dispatcher

theorem Sound.worked_await (h : Sound settings room sinks now s) (spell : Nat) :
    Worked s (s.next (.engine (.await spell))) []
      (s.course.engine.await s.course.now.instant spell) := by
  have quiet : s.news (.await spell) = [] := rfl
  rw [h.next_engine_of_news_eq_nil quiet]
  exact ⟨rfl, rfl, rfl, rfl⟩

theorem Sound.worked_turn (h : Sound settings room sinks now s) {r : List Effect × Engine}
    (taken : s.course.engine.turn? s.course.now = some r) :
    Worked s (s.next (.engine .turn)) r.1 r.2 := by
  have news : s.news .turn = r.1.filterMap Effect.summary? := by
    simp [news, Course.effects, taken]
  rw [h.next_engine, news]
  simp only [Course.next, taken]
  exact ⟨rfl, rfl, rfl, rfl⟩

theorem Worked.trans {s' s'' : Service} {effects more : List Effect}
    {e e' : Engine} (h : Worked s s' effects e) (h' : Worked s' s'' more e') :
    Worked s s'' (effects ++ more) e' where
  now        := h'.now.trans h.now
  engine     := h'.engine
  backlog    := by rw [h'.backlog, h.backlog, List.filterMap_append, List.foldl_append]
  dispatcher := h'.dispatcher.trans h.dispatcher

-- What an engine does in a spell of work, with everything that it publishes.
theorem Sound.exists_take (h : Sound settings room sinks now s) (spell limit : Nat) :
    ∃ tasks : List Input, (∀ i ∈ tasks, i.isTask = true) ∧
      let worked := s.course.engine.take s.course.now spell limit
      Worked s (tasks.foldl Service.next s) worked.1 worked.2 := by
  induction limit generalizing s
  case zero => exact ⟨[], by simp, rfl, rfl, rfl, rfl⟩
  case succ limit ih =>
    have awaited := h.worked_await spell
    have sound := h.next (.engine (.await spell))
    rw [Engine.take]
    cases taken : (s.course.engine.await s.course.now.instant spell).turn? s.course.now
    case none => exact ⟨[.engine (.await spell)], by simp [Input.isTask], awaited⟩
    case some r =>
      rw [← awaited.engine, ← awaited.now] at taken
      have turned := sound.worked_turn taken
      obtain ⟨tasks, own, rest⟩ := ih (sound.next (.engine .turn))
      rw [turned.engine, turned.now, awaited.now] at rest
      exact ⟨.engine (.await spell) :: .engine .turn :: tasks, by simpa [Input.isTask] using own,
        (awaited.trans turned).trans rest⟩

-- What a dispatcher does until it has nothing to do.
theorem exists_settle (s : Service) (spell : Nat) :
    ∃ tasks : List Input, (∀ i ∈ tasks, i.isTask = true) ∧
      (tasks.foldl next s).course = s.course ∧
      ((tasks.foldl next s).handoff.dispatcher, (tasks.foldl next s).handoff.backlog) =
        s.handoff.dispatcher.settle s.handoff.backlog s.handoff.now spell := by
  induction work : s.handoff.dispatcher.workload s.handoff.backlog using Nat.strong_induction_on
    generalizing s
  case h work ih =>
    subst work
    rw [Dispatcher.settle]
    split
    case h_1 => exact ⟨[.look], by simp [Input.isTask], rfl, rfl⟩
    case h_2 dispatcher backlog step =>
      have moved := next_step step
      obtain ⟨tasks, own, course, settled⟩ :=
        ih _ (Dispatcher.step?_workload_lt step) (s.next (.step spell)) (by rw [moved])
      refine ⟨.step spell :: tasks, by simpa [Input.isTask] using own,
        course.trans (by rw [moved]), settled.trans ?_⟩
      rw [moved]

theorem Reflects.runEngine (h : s.Reflects c) (sound : Sound settings room sinks now s) :
    s.Settles c.runEngine := by
  obtain ⟨tasks, own, worked⟩ := sound.exists_take c.spell Engine.spellLimit
  rw [h.engine, h.now] at worked
  refine ⟨tasks, own, worked.engine, worked.now.trans h.now, ?backlog, ?dispatcher, ?running,
    ?aside⟩ <;> rw [c.outlet_runEngine]
  case backlog    => exact worked.backlog.trans (h.backlog ▸ rfl)
  case dispatcher => exact worked.dispatcher.trans h.dispatcher
  case running    => exact h.running
  case aside      => exact h.aside

theorem Reflects.runOutlet (h : s.Reflects c) (sound : Sound settings room sinks now s) :
    s.Settles c.runOutlet := by
  let released := s.next .release
  have course : released.course = s.course := by
    simp only [released, next]
    split <;> rfl
  have time : released.handoff.now = c.now.instant := by
    rw [(sound.next .release).together, course, h.now]
  have dispatcher : released.handoff.dispatcher = c.outlet.dispatcher := by
    rw [← h.dispatcher]
    simp only [released, next]
    split <;> rfl
  have backlog : released.handoff.backlog =
      if c.engine.phase.isOver then c.outlet.backlog.close else c.outlet.backlog := by
    rw [← h.backlog, ← h.engine]
    simp only [released, next]
    split <;> rfl
  obtain ⟨tasks, own, same, settled⟩ := released.exists_settle c.spell
  rw [dispatcher, backlog, time] at settled
  refine ⟨.release :: tasks, by simpa [Input.isTask] using own, ?_⟩
  rw [List.foldl_cons]
  have outlet := Collector.outlet_runOutlet h.running h.aside settled
  refine ⟨?engine, ?now, ?backlog, ?dispatcher, ?running, ?aside⟩
  case engine     => rw [same, course]; exact h.engine
  case now        => rw [same, course]; exact h.now
  case backlog    => rw [outlet]
  case dispatcher => rw [outlet]
  case running    => rw [outlet]; exact h.running
  case aside      => rw [outlet]; exact h.aside

theorem Reflects.alternate (h : s.Reflects c) (sound : Sound settings room sinks now s) :
    s.Settles c.alternate := by
  have next {s : Service} {c : Collector} (h : s.Reflects c)
      (sound : Sound settings room sinks now s) : s.Settles c.runEngine.runOutlet :=
    (h.runEngine sound).trans sound fun _ sound h => h.runOutlet sound
  fun_induction Collector.alternate c generalizing s
  case case1 ih => exact (next h sound).trans sound fun _ sound h => ih h sound
  case case2    => exact next h sound

theorem Reflects.settle (h : s.Reflects c) (sound : Sound settings room sinks now s) :
    s.Settles c.settle := by
  unfold Collector.settle
  split
  case isTrue  => exact (h.runOutlet sound).trans sound fun _ sound h => h.alternate sound
  case isFalse => exact h.alternate sound

end Service

namespace Collector

-- A collector in which neither the engine nor the dispatcher has anything to do.
structure IsAtRest (c : Collector) : Prop where
  engine     : c.engine.turn? c.now = none
  dispatcher : c.outlet.dispatcher.Rests c.outlet.backlog c.now.instant
  closed     : c.engine.phase.isOver = true → c.outlet.backlog.closed = true

variable {c : Collector}

-- An engine that has had a spell of work without getting on has nothing to do.
theorem turn?_runEngine (h : ¬ c.runEngine.engine.workload c.now.instant <
    c.engine.workload c.now.instant) : c.runEngine.engine.turn? c.now = none := by
  cases taken : (c.engine.await c.now.instant c.spell).turn? c.now
  case some r => exact absurd (Engine.workload_work_lt taken) h
  case none   =>
    have worked : c.runEngine.engine = c.engine.await c.now.instant c.spell := by
      show (c.engine.work c.now c.spell).2 = _
      rw [Engine.work, Engine.spellLimit, Engine.take]
      simp only [taken]
    rw [worked, taken]

theorem isAtRest_runOutlet (running : c.outlet.running = true) (aside : c.outlet.aside = none)
    (idle : c.engine.turn? c.now = none) : c.runOutlet.IsAtRest := by
  have outlet := outlet_runOutlet running aside rfl
  refine ⟨idle, ?dispatcher, fun finished => ?closed⟩
  case dispatcher =>
    rw [outlet]
    exact Dispatcher.rests_settle ..
  case closed =>
    have finished : c.engine.phase.isOver = true := finished
    rw [outlet]
    simp only [Dispatcher.closed_settle, finished, if_true]
    rfl

theorem kept_runOutlet (running : c.outlet.running = true) (aside : c.outlet.aside = none) :
    c.runOutlet.outlet.running = true ∧ c.runOutlet.outlet.aside = none := by
  rw [outlet_runOutlet running aside rfl]
  exact ⟨running, aside⟩

theorem isAtRest_alternate (running : c.outlet.running = true) (aside : c.outlet.aside = none) :
    c.alternate.IsAtRest := by
  fun_induction alternate c
  case case1 c _ _ ih =>
    have outlet := c.outlet_runEngine
    have kept := c.runEngine.kept_runOutlet (by rw [outlet]; exact running)
      (by rw [outlet]; exact aside)
    exact ih kept.left kept.right
  case case2 c _ stuck =>
    have outlet := c.outlet_runEngine
    exact isAtRest_runOutlet (by rw [outlet]; exact running) (by rw [outlet]; exact aside)
      (turn?_runEngine stuck)

-- A collector gets on until there is nothing left to be done.
theorem isAtRest_settle (running : c.outlet.running = true) (aside : c.outlet.aside = none) :
    c.settle.IsAtRest := by
  unfold settle
  split
  case isFalse => exact isAtRest_alternate running aside
  case isTrue  =>
    have kept := kept_runOutlet running aside
    exact isAtRest_alternate kept.left kept.right

theorem hand_of_served {m : Metric} (served : (c.engine.submit m).1 ≠ .waiting) :
    (c.hand m).2 = { c with engine := (c.engine.submit m).2 } := by
  unfold hand
  split
  case h_1 waiting => exact absurd (congrArg Prod.fst waiting) served
  case h_2 answer  => rw [answer]

theorem endEngine_of_started (engine : Engine) (started : engine.phase ≠ .created) :
    c.endEngine engine = { c with engine } := by
  unfold endEngine
  split
  case h_1 created => exact absurd created started
  case h_2         => rfl

-- What can be asked of a collector, and what happens to its engine then. A sender that would have
-- to wait may give up, but all others are served like any caller.
inductive Operation (c : Collector) : Input → Collector → Prop
  | start (created : c.engine.phase = .created) : Operation c .start c.start
  | arrive {i : Instant} (le : c.now.instant ≤ i) :
      Operation c (.pass (c.now.movedTo i)) (timed.arrive i c)
  | submit {m : Metric} (heard : c.engine.inbox.deserted = false)
      (served : (c.engine.submit m).1 ≠ .waiting) :
      Operation c (.call (.submit m)) (c.submit m).2
  | stop (started : c.engine.phase ≠ .created) :
      Operation c .stop (c.endEngine { c.engine with stopping := true }).settle

-- The collectors that can come of a collector.
def LeadsTo (c c' : Collector) : Prop :=
  Relation.ReflTransGen (fun c c' => ∃ i, c.Operation i c') c c'

end Collector

namespace Service

variable {settings : EngineSettings} {room : Nat} {sinks : List Sink} {now : Moment}
variable {s : Service} {c c' : Collector}

theorem Reflects.isAtRest (h : s.Reflects c) (sound : Sound settings room sinks now s)
    (rests : c.IsAtRest) : s.IsAtRest := by
  refine ⟨?engine, ?dispatcher, ?closed⟩
  case engine =>
    rw [h.engine, h.now]
    exact rests.engine
  case dispatcher =>
    rw [Dispatcher.step?_eq_none_iff, sound.together, h.now, h.dispatcher, h.backlog]
    exact rests.dispatcher
  case closed =>
    rw [h.engine, h.backlog]
    exact rests.closed

-- The service comes to rest where the collector is.
def RestsAt (s : Service) (c : Collector) : Prop :=
  s.Settles c ∧ c.IsAtRest

-- Something happens to the engine, and the collector settles.
theorem Reflects.input (h : s.Reflects c) (sound : Sound settings room sinks now s)
    {i : MetricCollector.Input} (quiet : s.news i = []) {engine : Engine} {now : Moment}
    (becomes : (s.course.next i).engine = engine) (time : (s.course.next i).now = now) :
    (s.next (.engine i)).RestsAt { c with engine, now }.settle := by
  have reflects : (s.next (.engine i)).Reflects { c with engine, now } := by
    rw [sound.next_engine_of_news_eq_nil quiet]
    exact ⟨becomes, time, h.backlog, h.dispatcher, h.running, h.aside⟩
  exact ⟨reflects.settle (sound.next (.engine i)), Collector.isAtRest_settle h.running h.aside⟩

theorem Reflects.operation (h : s.Reflects c) (sound : Sound settings room sinks now s)
    {i : MetricCollector.Input} (operation : c.Operation i c') :
    (s.next (.engine i)).RestsAt c' := by
  cases operation
  case start created =>
    refine h.input sound rfl ?engine ?now
    case engine => simp only [Course.next, h.engine, created, h.now]
    case now    => simp only [Course.next, h.engine, created, h.now]
  case arrive i le =>
    have passes : s.course.next (.pass (c.now.movedTo i)) =
        { s.course with now := c.now.movedTo i } := by
      rw [← h.now] at le ⊢
      exact if_pos le
    refine h.input sound rfl ?engine ?now
    case engine => rw [passes, h.engine]
    case now    => rw [passes]
  case submit m heard served =>
    have asks : s.course.next (.call (.submit m)) =
        { s.course with
          engine := (s.course.engine.submit m).2,
          calls  := s.course.calls ++ [⟨.submit m, (s.course.engine.submit m).1⟩] } := by
      simp [Course.next, h.engine, heard, Engine.ask]
    show (s.next _).RestsAt (c.hand m).2.settle
    rw [Collector.hand_of_served served]
    refine h.input sound rfl ?engine ?now
    case engine => rw [asks, h.engine]
    case now    => rw [asks, h.now]
  case stop started =>
    rw [Collector.endEngine_of_started { c.engine with stopping := true } started]
    refine h.input sound rfl ?engine ?now
    case engine =>
      rw [← h.engine]
      rfl
    case now => exact h.now

theorem reflects_create (settings : Settings) (engine : EngineSettings) {sinks : List Sink}
    (unused : sinks.map Sink.unused = sinks) :
    (create engine settings.summaryBacklog settings.sinkTimeout sinks .origin).Reflects
      (.create settings engine sinks) := by
  refine ⟨rfl, rfl, rfl, ?dispatcher, rfl, rfl⟩
  case dispatcher =>
    simp only [create, Handoff.create, unused]
    rfl

-- Whatever is asked of a collector, a service can be where it is then, and is at rest there.
theorem exists_reflects (settings : Settings) (engine : EngineSettings) {sinks : List Sink}
    (unused : sinks.map Sink.unused = sinks) {c : Collector}
    (led : (Collector.create settings engine sinks).LeadsTo c) :
    ∃ inputs : List Input,
      let s := after engine settings.summaryBacklog settings.sinkTimeout sinks .origin inputs
      s.Reflects c ∧ s.IsAtRest := by
  induction led
  case refl =>
    have reflects := reflects_create settings engine unused
    have created := sound_after engine settings.summaryBacklog settings.sinkTimeout sinks .origin []
    have rests : (Collector.create settings engine sinks).IsAtRest :=
      ⟨rfl, .idle rfl rfl rfl rfl, fun ended => nomatch ended⟩
    exact ⟨[], reflects, reflects.isAtRest created rests⟩
  case tail c c' _ operation ih =>
    obtain ⟨inputs, reflects, -⟩ := ih
    obtain ⟨i, operation⟩ := operation
    have sound := sound_after engine settings.summaryBacklog settings.sinkTimeout sinks .origin
    obtain ⟨⟨tasks, -, settled⟩, rests⟩ := reflects.operation (sound inputs) operation
    have onward : after engine settings.summaryBacklog settings.sinkTimeout sinks .origin
        (inputs ++ .engine i :: tasks) = tasks.foldl next
          ((after engine settings.summaryBacklog settings.sinkTimeout sinks .origin inputs).next
            (.engine i)) := by
      simp only [after, List.foldl_append, List.foldl_cons]
    refine ⟨inputs ++ .engine i :: tasks, ?_⟩
    have there := onward ▸ settled
    exact ⟨there, there.isAtRest (sound _) rests⟩

end Service
end MetricCollector
