import MetricCollector.Proofs.Wire.Reception

namespace MetricCollector.Reception

-- The records whose observations got into the queue. Those that could be read are handed in one
-- after the other.
def admitted (s : Reception) : List Item :=
  ((s.taken.filter (·.metric?.isSome)).zip (s.course.calls.filter Call.isObservation)).filter
    (·.2.isQueued) |>.map Prod.fst

theorem filterMap_zip_isQueued {items : List Item} {calls : List Call}
    (same : items.map Item.metric? = calls.map (·.command.metric?)) :
    ((items.zip calls).filter (·.2.isQueued) |>.map Prod.fst).filterMap Item.metric? =
      (Call.accepted calls).filterMap Command.metric? := by
  induction items generalizing calls
  case nil =>
    cases List.map_eq_nil_iff.mp same.symm
    rfl
  case cons item items ih =>
    cases calls
    case nil => cases same
    case cons call calls =>
      obtain ⟨head, tail⟩ := List.cons.inj same
      have rest := ih tail
      rw [List.zip_cons_cons, List.filter_cons, Call.accepted_cons]
      split
      case isTrue  => simp only [List.map_cons, List.filterMap_cons, head, rest]
      case isFalse => exact rest

-- Choosing what something is known of does not change what is known.
theorem map_filter_isSome {α β : Type} (f : α → Option β) (as : List α) :
    (as.filter (f · |>.isSome)).map f = (as.filterMap f).map some := by
  induction as
  case nil => rfl
  case cons a as ih => cases known : f a <;> simp [known, ih]

-- The records that could be read are the observations that were handed in.
theorem map_read {s : Reception}
    (handed : Call.observations s.course.calls = s.taken.filterMap Item.metric?) :
    (s.taken.filter (·.metric?.isSome)).map Item.metric? =
      (s.course.calls.filter Call.isObservation).map (·.command.metric?) := by
  have calls := map_filter_isSome (fun call : Call => call.command.metric?) s.course.calls
  rw [map_filter_isSome, ← handed]
  exact calls.symm

theorem filterMap_admitted {s : Reception}
    (handed : Call.observations s.course.calls = s.taken.filterMap Item.metric?) :
    s.admitted.filterMap Item.metric? =
      (Call.accepted s.course.calls).filterMap Command.metric? := by
  refine (filterMap_zip_isQueued (map_read handed)).trans ?_
  simp only [Call.accepted, List.filterMap_map, List.filterMap_filter]
  refine congrArg (List.filterMap · s.course.calls) (funext fun call => ?_)
  cases metric : call.command.metric? <;> simp [Call.isObservation, metric]

theorem admitted_sublist {s : Reception}
    (handed : Call.observations s.course.calls = s.taken.filterMap Item.metric?) :
    s.admitted.Sublist s.taken := by
  let read := s.taken.filter (·.metric?.isSome)
  let calls := s.course.calls.filter Call.isObservation
  have enough : read.length ≤ calls.length := by
    have := congrArg List.length (map_read handed)
    simp only [List.length_map] at this
    exact Nat.le_of_eq this
  have chosen : s.admitted.Sublist ((read.zip calls).map Prod.fst) :=
    (List.filter_sublist (l := read.zip calls)).map Prod.fst
  rw [List.map_fst_zip enough] at chosen
  exact chosen.trans List.filter_sublist

variable {settings : EngineSettings} {scope : Option String} {now : Moment}

-- What was handled came from a record that could be read.
theorem isSound_of_mem_metrics {s : Reception} (sorted : Sorted scope s)
    (tallied : Tallied settings now s) {m : Metric} (mem : m ∈ Table.metrics s.course.log) :
    m.isSound = true := by
  obtain ⟨inputs, led⟩ := tallied.led
  have balanced : Course.Balanced settings s.course := led ▸ Course.balanced_after ..
  have got : m ∈ (Call.accepted s.course.calls).filterMap Command.metric? :=
    balanced.accepted ▸ List.mem_append_left _ mem
  rw [← filterMap_admitted tallied.handed] at got
  obtain ⟨item, admitted, read⟩ := List.mem_filterMap.mp got
  have taken := (admitted_sublist tallied.handed).subset admitted
  exact isSound_of_mem_items (sorted.whole.subset (List.mem_append_left _ taken)) read

-- There are as many records as pieces between newlines that are more than a carriage return.
theorem length_records (scope : Option String) (arrivals : List Arrival) :
    (arrivals.flatMap fun a => Packet.parse scope a.packet).length =
      (arrivals.flatMap fun a => a.packet.splitOn Packet.newline).countP
        fun piece => piece ≠ [] ∧ piece ≠ [Packet.carriageReturn] := by
  induction arrivals
  case nil => rfl
  case cons a arrivals ih =>
    rw [List.flatMap_cons, List.flatMap_cons, List.length_append, List.countP_append, ih,
      Packet.length_parse]

-- Every record is counted once, and is an invalid one only if it could not be read. What the reader
-- lets through the table applies. Records that got in are applied to the table in the order in
-- which the calls were made, which for those of one packet is the order in which they stand in it.
theorem records_are_counted_once (settings : EngineSettings) (scope : Option String)
    (receivers : Nat) (now : Moment) (inputs : List Input) :
    let s := after settings scope receivers now inputs
    let counts := s.course.engine.counts
    let pieces := s.arrivals.flatMap fun a => a.packet.splitOn Packet.newline
    let records := s.arrivals.flatMap fun a => Packet.parse scope a.packet
    (∀ m, .ok m ∈ records → ∀ (t : Table) (time : Instant), (t.apply m time).1 = true) ∧
    counts.invalid = s.taken.countP Item.isRejected ∧
    ((∀ call ∈ s.course.calls, call.admission ≠ .refused .stopped) →
      (∀ r ∈ s.receivers, r.todo = []) → s.course.engine.inbox.queued = [] →
        counts.received + counts.invalid + counts.dropped =
          pieces.countP (fun piece => piece ≠ [] ∧ piece ≠ [Packet.carriageReturn]) ∧
        counts.invalid = records.countP fun r => r.toOption.isNone) ∧
    s.admitted.Pairwise Item.InOrder ∧ s.admitted ⊆ s.items ∧
    s.course.engine.table = Table.after s.course.log ∧
    s.admitted.filterMap Item.metric? =
      (Table.sightings s.course.log).map (·.metric) ++
        s.course.engine.inbox.queued.filterMap Command.metric? := by
  intro s counts pieces records
  have sorted : Sorted scope s := sorted_after ..
  have tallied : Tallied settings now s := tallied_after ..
  obtain ⟨inputs', led⟩ := tallied.led
  have recorded : Course.Recorded settings s.course := led ▸ Course.recorded_after ..
  have balanced : Course.Balanced settings s.course := led ▸ Course.balanced_after ..
  have applied : (Table.sightings s.course.log).map (·.metric) = Table.metrics s.course.log :=
    Table.map_metric_sightings fun m mem => isSound_of_mem_metrics sorted tallied mem
  have invalid : counts.invalid = s.taken.countP Item.isRejected := by
    have := recorded.handled
    rw [← applied, List.length_map, recorded.received, tallied.rejected] at this
    exact Nat.add_left_cancel this
  refine ⟨?reader, invalid, ?drained, ?inOrder, ?received, recorded.table, ?applied⟩
  case reader =>
    intro m mem t time
    obtain ⟨a, _, parsed⟩ := List.mem_flatMap.mp mem
    exact (t.apply_fst m time).trans (Packet.isSound_of_mem_parse parsed)
  case drained =>
    intro inTime done empty
    have drops : Call.DropsObservations s.course.calls :=
      led ▸ Course.dropsObservations_after settings now inputs'
    have handed := balanced.length_observations drops inTime empty
    rw [tallied.handed, ← applied, List.length_map, ← recorded.received] at handed
    have taken : s.taken.Perm s.items := by
      have none : s.receivers.flatMap Receiver.todo = [] := List.flatMap_eq_nil_iff.mpr done
      simpa [none] using sorted.whole
    have read : s.items.map Item.result = records := by
      simp only [items, Item.map_result_ofPackets, sorted.same, List.flatMap_map, records]
    refine ⟨?counted, ?rejected⟩
    case counted =>
      have parts := Item.length_eq s.taken
      rw [← invalid, handed] at parts
      have whole : s.taken.length = records.length := by
        rw [taken.length_eq, ← read, List.length_map]
      have lines : records.length = pieces.countP _ := length_records scope s.arrivals
      rw [← lines, ← whole, parts]
      exact Nat.add_right_comm ..
    case rejected =>
      rw [invalid, taken.countP_eq, ← read, List.countP_map]
      rfl
  case inOrder => exact sorted.trail.sublist (admitted_sublist tallied.handed)
  case received =>
    intro item mem
    have taken := (admitted_sublist tallied.handed).subset mem
    exact sorted.whole.subset (List.mem_append_left _ taken)
  case applied => rw [filterMap_admitted tallied.handed, balanced.accepted, applied]

-- One receiver with one packet: a counter, an empty line, and a line that is no record.
example :
    let packet : List UInt8 := [97, 58, 49, 124, 99, 10, 10, 98, 13, 10]
    let s := after {} none 1 .origin
      [.receive 0 packet, .proceed 0, .proceed 0, .proceed 0, .other .start, .other .turn]
    let counts := s.course.engine.counts
    (counts.received, counts.invalid, counts.dropped) = (1, 1, 0) := by
  decide +kernel

end MetricCollector.Reception
