import MetricCollector.Engine.Basic

namespace MetricCollector.Engine

-- The ticks and commands that can be dealt with at this instant, and the end of the engine.
def workload (e : Engine) (now : Instant) : Nat :=
  match e.phase with
  | .running flush expiry =>
    flush.backlog now + (expiry.elim 0 (·.backlog now)) + e.inbox.size + 1
  | _ => 0

theorem phase_handleMetric (e : Engine) (now : Instant) (m : Metric) :
    (e.handleMetric now m).phase = e.phase := by
  unfold handleMetric countInvalid
  dsimp only
  split <;> rfl

theorem inbox_handleMetric (e : Engine) (now : Instant) (m : Metric) :
    (e.handleMetric now m).inbox = e.inbox := by
  unfold handleMetric countInvalid
  dsimp only
  split <;> rfl

@[simp]
theorem phase_handle (e : Engine) (now : Moment) (c : Command) :
    (e.handle now c).2.phase = e.phase := by
  cases c with
  | submit m => exact phase_handleMetric e now.instant m
  | snapshot => rfl

@[simp]
theorem inbox_handle (e : Engine) (now : Moment) (c : Command) :
    (e.handle now c).2.inbox = e.inbox := by
  cases c with
  | submit m => exact inbox_handleMetric e now.instant m
  | snapshot => rfl

theorem phase_finish (e : Engine) (now : Moment) : (e.finish now).2.phase = .ended := by
  unfold finish flush
  dsimp only
  split <;> rfl

-- While the clock stands still the engine runs out of work: every turn takes a tick or a command
-- away, or is the last one.
theorem turn?_workload_lt {e e' : Engine} {now : Moment} {effects : List Effect}
    (h : e.turn? now = some (effects, e')) : e'.workload now.instant < e.workload now.instant := by
  have ends (h : some (e.finish now) = some (effects, e')) : e'.workload now.instant = 0 := by
    obtain rfl : (e.finish now).2 = e' := congrArg Prod.snd (Option.some.inj h)
    simp only [workload, phase_finish]
  unfold turn? at h
  split at h
  case h_2 => cases h
  case h_1 flush expiry running =>
    have start : e.workload now.instant =
        flush.backlog now.instant + (expiry.elim 0 (·.backlog now.instant)) + e.inbox.size + 1 := by
      simp only [workload, running]
    split at h
    · have := ends h
      omega
    split at h
    · case _ ready =>
      cases h
      have := Ticker.backlog_tick_lt ready
      simp only [workload] at start ⊢
      omega
    split at h
    · case _ ticker due =>
      obtain ⟨hexpiry, ready⟩ := Option.filter_eq_some_iff.mp due
      cases h
      have := Ticker.backlog_tick_lt ready
      simp only [workload, Engine.expire, hexpiry, Option.elim_some] at start ⊢
      omega
    split at h
    · case _ c inbox popped =>
      obtain rfl := congrArg Prod.snd (Option.some.inj h)
      have := Inbox.size_pop?_lt popped
      simp only [workload, phase_handle, inbox_handle, running] at start ⊢
      omega
    split at h
    · have := ends h
      omega
    · cases h

@[simp]
theorem workload_await (e : Engine) (now : Instant) (spell : Nat) :
    (e.await now spell).workload now = e.workload now := by
  unfold await
  split
  case h_1 flush expiry running =>
    split
    · rfl
    · simp only [workload, running]
      cases expiry with
      | none => rfl
      | some ticker =>
        by_cases ready : ticker.isReady now <;> simp only [Option.map_some, ready] <;> rfl
  case h_2 => rfl

-- How many turns the engine takes in a spell, before it lets others go on.
def spellLimit : Nat := 128

-- Takes turns until there is nothing to do, or until there were `limit` of them.
def take (e : Engine) (now : Moment) (spell : Nat) : (limit : Nat) → List Effect × Engine
  | 0         => ([], e)
  | limit + 1 =>
    let e := e.await now.instant spell
    match e.turn? now with
    | none              => ([], e)
    | some (effects, e) =>
      let (more, e) := take e now spell limit
      (effects ++ more, e)

def work (e : Engine) (now : Moment) (spell : Nat) : List Effect × Engine :=
  e.take now spell spellLimit

theorem workload_take_le (e : Engine) (now : Moment) (spell limit : Nat) :
    (e.take now spell limit).2.workload now.instant ≤ e.workload now.instant := by
  induction limit generalizing e with
  | zero => exact Nat.le_refl _
  | succ limit ih =>
    rw [take]
    split
    · exact Nat.le_of_eq (workload_await e now.instant spell)
    · case _ effects e' turn =>
      have := turn?_workload_lt turn
      rw [workload_await] at this
      exact Nat.le_trans (ih e') (Nat.le_of_lt this)

-- The engine gets on as long as there is something to do.
theorem workload_work_lt {e e' : Engine} {now : Moment} {spell : Nat} {effects : List Effect}
    (h : (e.await now.instant spell).turn? now = some (effects, e')) :
    (e.work now spell).2.workload now.instant < e.workload now.instant := by
  have less := turn?_workload_lt h
  rw [workload_await] at less
  rw [work, spellLimit, take]
  simp only [h]
  exact Nat.lt_of_le_of_lt (workload_take_le e' now spell _) less

end MetricCollector.Engine
