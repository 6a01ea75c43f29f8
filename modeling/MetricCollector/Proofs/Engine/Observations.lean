import MetricCollector.Proofs.Engine.Ending

namespace MetricCollector

-- If nothing that is handled is turned away, what is applied is what is handled.
theorem Table.map_metric_sightings {log : List Event}
    (sound : ∀ m ∈ metrics log, m.isSound = true) :
    (sightings log).map (·.metric) = metrics log := by
  induction log
  case nil => rfl
  case cons event log ih =>
    cases event
    case observe m time =>
      have ⟨first, rest⟩ := List.forall_mem_cons.mp sound
      simpa [sightings, metrics, Event.sighting?, Event.metric?, first] using ih rest
    case flush | expire | snapshot => exact ih sound

namespace Call

variable {calls later : List Call}

-- The observations that were handed in, whatever became of them.
def observations (calls : List Call) : List Metric :=
  calls.filterMap fun call => call.command.metric?

@[simp]
theorem observations_append (calls more : List Call) :
    observations (calls ++ more) = observations calls ++ observations more :=
  List.filterMap_append

theorem observations_eq (h : List.Forall₂ Becomes calls later) :
    observations later = observations calls := by
  induction h
  case nil => rfl
  case cons becomes _ ih =>
    simp only [observations, List.filterMap_cons, becomes.command] at ih ⊢
    rw [ih]

def isObservation (call : Call) : Bool :=
  call.command.metric?.isSome

-- Only observations are dropped.
def DropsObservations (calls : List Call) : Prop :=
  ∀ call ∈ calls, call.isOverflow = true → call.isObservation = true

theorem dropsObservations_of_becomes (h : DropsObservations calls)
    (becomes : List.Forall₂ Becomes calls later) : DropsObservations later := by
  intro call mem overflow
  obtain ⟨n, bound, rfl⟩ := List.getElem_of_mem mem
  have bound' : n < calls.length := becomes.length_eq ▸ bound
  have was := becomes.get bound' bound
  simp only [List.get_eq_getElem] at was
  rw [isObservation, was.command]
  exact h _ (List.getElem_mem bound') (was.isOverflow_eq ▸ overflow)

-- Every observation got in or was dropped, unless somebody waits or came too late.
theorem length_observations
    (told : ∀ call ∈ calls, call.isQueued = true ∨ call.isOverflow = true)
    (dropped : DropsObservations calls) :
    (observations calls).length =
      ((accepted calls).filterMap Command.metric?).length + overflows calls := by
  induction calls
  case nil => rfl
  case cons call calls ih =>
    have rest := ih (fun c mem => told c (.tail _ mem)) (fun c mem => dropped c (.tail _ mem))
    have observed := dropped call (.head _)
    simp only [observations, List.filterMap_cons, accepted_cons, overflows, List.countP_cons]
      at rest ⊢
    cases told call (.head _)
    case inl queued =>
      have kept : call.isOverflow = false := by simp_all [isQueued, isOverflow]
      cases metric : call.command.metric?
      case none   => simpa [queued, kept, metric] using rest
      case some m => simpa [queued, kept, metric, Nat.add_right_comm] using rest
    case inr overflow =>
      have refused : call.isQueued = false := by simp_all [isQueued, isOverflow]
      obtain ⟨m, metric⟩ := Option.isSome_iff_exists.mp (observed overflow)
      simp [refused, overflow, metric, rest, Nat.add_assoc]

end Call

theorem Engine.Asked.dropsObservations {e : Engine} {c : Command} {r : Admission × Engine}
    (h : Asked e c r) : Call.DropsObservations [⟨c, r.1⟩] := by
  intro call mem overflow
  cases List.mem_singleton.mp mem
  cases h
  case overflow observation            => exact observation
  case stopped | queued | waiting      => cases overflow

namespace Course

variable {settings : EngineSettings} {c : Course}

theorem dropsObservations_next (h : Call.DropsObservations c.calls) (i : Input) :
    Call.DropsObservations (c.next i).calls := by
  cases i <;> simp only [next]
  case call command =>
    split
    case isTrue  => exact h
    case isFalse =>
      have asked := Engine.asked_ask c.engine command
      exact List.forall_mem_append.mpr ⟨h, asked.dropsObservations⟩
  case turn =>
    split
    case h_1 => exact h
    case h_2 => exact Call.dropsObservations_of_becomes h (Call.becomes_hear ..)
  case start =>
    split
    case h_1 => exact Call.dropsObservations_of_becomes h (Call.becomes_hear ..)
    case h_2 => exact h
  case unreadable | stop | await => exact h
  case pass | leave => split <;> exact h

theorem dropsObservations_after (settings : EngineSettings) (now : Moment) (inputs : List Input) :
    Call.DropsObservations (after settings now inputs).calls := by
  induction inputs using List.reverseRecOn
  case nil => exact fun _ mem => by cases mem
  case append_singleton inputs i ih =>
    exact (after_append_singleton ..).symm ▸ dropsObservations_next ih i

-- When the queue has been worked off, every observation was handled or dropped, except for those
-- that came too late.
theorem Balanced.length_observations (h : Balanced settings c)
    (drops : Call.DropsObservations c.calls)
    (inTime : ∀ call ∈ c.calls, call.admission ≠ .refused .stopped)
    (empty : c.engine.inbox.queued = []) :
    (Call.observations c.calls).length =
      (Table.metrics c.log).length + c.engine.counts.dropped := by
  have nobody := Call.pending_eq_nil_iff.mp (h.pending.trans (h.waiting_eq_nil empty))
  have told : ∀ call ∈ c.calls, call.isQueued = true ∨ call.isOverflow = true := by
    intro call mem
    have waits := nobody call mem
    have late := inTime call mem
    cases fate : call.admission
    case queued  => exact .inl (by simp [Call.isQueued, fate])
    case waiting => simp [Call.isWaiting, fate] at waits
    case refused cause =>
      cases cause
      case queueOverflow => exact .inr (by simp [Call.isOverflow, fate])
      case stopped       => exact absurd fate late
  have accepted := h.accepted
  rw [empty, List.filterMap_nil, List.append_nil] at accepted
  rw [Call.length_observations told drops, accepted, h.dropped]

end Course

-- Whether something reports records, which is for receivers to do, or leaves the engine without
-- anybody to do so.
def Input.isReport : Input → Bool
  | .call (.submit _) => true
  | .unreadable       => true
  | .leave            => true
  | _                 => false

namespace Course

-- What is true of a course after something that is no report.
structure Spared (c c' : Course) : Prop where
  observations : Call.observations c'.calls = Call.observations c.calls
  unreadable   : c'.unreadable = c.unreadable
  deserted     : c'.engine.inbox.deserted = c.engine.inbox.deserted

theorem spared_next (c : Course) {i : Input} (other : i.isReport = false) :
    c.Spared (c.next i) := by
  cases i <;> simp only [next]
  case call command =>
    cases command with
    | submit _     => cases other
    | snapshot v t =>
      split
      case isTrue  => exact ⟨rfl, rfl, rfl⟩
      case isFalse =>
        refine ⟨?_, rfl, (Engine.asked_ask ..).deserted⟩
        simp [Call.observations, Command.metric?]
  case turn =>
    split
    case h_1       => exact ⟨rfl, rfl, rfl⟩
    case h_2 taken =>
      have turn := Engine.turn_of_turn? taken
      exact ⟨Call.observations_eq (Call.becomes_hear ..), rfl, turn.deserted⟩
  case await spell =>
    unfold Engine.await
    split
    case h_2 => exact ⟨rfl, rfl, rfl⟩
    case h_1 => split <;> exact ⟨rfl, rfl, rfl⟩
  case unreadable | leave => cases other
  case start =>
    split
    case h_1 =>
      have started := Engine.started_start c.engine c.now.instant
      exact ⟨Call.observations_eq (Call.becomes_hear ..), rfl, started.deserted⟩
    case h_2 => exact ⟨rfl, rfl, rfl⟩
  case pass => split <;> exact ⟨rfl, rfl, rfl⟩
  case stop => exact ⟨rfl, rfl, rfl⟩

end Course
end MetricCollector
