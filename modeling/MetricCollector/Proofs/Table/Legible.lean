import MetricCollector.Proofs.Json.Unambiguous
import MetricCollector.Proofs.Table.Presence
import MetricCollector.Proofs.Wire.Names
import MetricCollector.Summary.Json
import MetricCollector.Table.SnapshotJson

namespace MetricCollector

-- The name overlaps with none of the others.
def Series.StandsOut (s : Series) (others : List Series) : Prop :=
  ∀ s' ∈ others, ¬s.Overlaps s'

instance (s : Series) (others : List Series) : Decidable (s.StandsOut others) :=
  inferInstanceAs (Decidable (∀ s' ∈ others, ¬s.Overlaps s'))

namespace Json

variable {α : Type} {value : α → Json} {m : OrderedMap Series α}

-- Under the name of a kind, whatever `m` has of a series that stands out is found under the text of
-- the series, and nothing else is.
def Shows (j : Json) (kind : String) (value : α → Json) (m : OrderedMap Series α) : Prop :=
  ∀ k v, m.find? k = some v → k.StandsOut m.keys → j.along [kind, k.text] = [value v]

theorem shows {j : Json} {kind : String} (entries : j.under kind = [.ofMap Series.text value m])
    (separated : ∀ k ∈ m.keys, k.IsSeparated) : j.Shows kind value m := by
  intro k v found out
  have mem : k ∈ m.keys := OrderedMap.mem_keys_iff.mpr (by simp [found])
  have one : (ofMap Series.text value m).under k.text = [value v] := by
    refine under_ofMap found fun k' mem' same => ?_
    have := Series.eq_or_overlaps_of_text_eq (separated k mem) (separated k' mem') same.symm
    exact (this.resolve_right (out k' mem')).symm
  simp [along, entries, one]

theorem unambiguous_ofMap_text (separated : ∀ k ∈ m.keys, k.IsSeparated)
    (apart : ∀ k ∈ m.keys, k.StandsOut m.keys) (all : ∀ v, (value v).Unambiguous) :
    (ofMap Series.text value m).Unambiguous := by
  refine unambiguous_ofMap (fun k mem k' mem' same => ?_) all
  have := Series.eq_or_overlaps_of_text_eq (separated k mem) (separated k' mem') same
  exact this.resolve_right (apart k mem k' mem')

end Json

section

open Json

theorem Span.unambiguous_toJson (s : Span) : s.toJson.Unambiguous :=
  unambiguous_record (by simp) (by simp [ofNat, Unambiguous.number])

theorem CounterSummary.unambiguous_toJson (c : CounterSummary) : c.toJson.Unambiguous :=
  unambiguous_record (by simp) (by simp [unambiguous_ofFloat])

theorem Percentile.unambiguous_toJson (p : Percentile) : p.toJson.Unambiguous :=
  unambiguous_record (by simp)
    (by simp [ofNat, ofString, unambiguous_ofFloat, Unambiguous.number, Unambiguous.text])

theorem TimerSummary.unambiguous_toJson (t : TimerSummary) : t.toJson.Unambiguous := by
  have percentiles : (Json.array (t.percentiles.map Percentile.toJson)).Unambiguous :=
    .array (List.forall_mem_map.mpr fun p _ => p.unambiguous_toJson)
  exact unambiguous_record (by simp)
    (by simp [ofNat, unambiguous_ofFloat, Unambiguous.number, percentiles])

theorem Counter.unambiguous_toJson (c : Counter) : c.toJson.Unambiguous :=
  unambiguous_record (by simp) (by simp [unambiguous_ofFloat])

theorem unambiguous_gaugeJson (x : Float) : (gaugeJson x).Unambiguous :=
  unambiguous_record (by simp) (by simp [unambiguous_ofFloat])

theorem Timer.unambiguous_toJson (t : Timer) : t.toJson.Unambiguous := by
  have values : (Json.array (t.samples.toList.map .ofFloat)).Unambiguous :=
    .array (List.forall_mem_map.mpr fun x _ => unambiguous_ofFloat x)
  exact unambiguous_record (by simp)
    (by simp [ofNat, unambiguous_ofFloat, Unambiguous.number, values])

theorem Members.unambiguous_toJson (s : Members) : s.toJson.Unambiguous := by
  have members : (Json.array (s.toList.map .ofString)).Unambiguous :=
    .array (List.forall_mem_map.mpr fun _ _ => .text _)
  exact unambiguous_record (by simp) (by simp [members])

end

-- The series that a report has of one kind.
def Summary.series (s : Summary) : Kind → List Series
  | .counter => s.counters.keys
  | .gauge   => s.gauges.keys
  | .timer   => s.timers.keys
  | .set     => s.sets.keys

def Snapshot.series (s : Snapshot) : Kind → List Series
  | .counter => s.counters.keys
  | .gauge   => s.gauges.keys
  | .timer   => s.timers.keys
  | .set     => s.sets.keys

-- Series that stand out among those of their kind cannot be mistaken for others.
structure Summary.Legible (s : Summary) : Prop where
  unambiguous :
    (∀ kind, ∀ k ∈ s.series kind, k.StandsOut (s.series kind)) → s.toJson.Unambiguous
  counters : s.toJson.Shows "counters" CounterSummary.toJson s.counters
  gauges   : s.toJson.Shows "gauges" .ofFloat s.gauges
  timers   : s.toJson.Shows "timers" TimerSummary.toJson s.timers
  sets     : s.toJson.Shows "sets" .ofNat s.sets

structure Snapshot.Legible (s : Snapshot) : Prop where
  unambiguous :
    (∀ kind, ∀ k ∈ s.series kind, k.StandsOut (s.series kind)) → s.toJson.Unambiguous
  counters : s.toJson.Shows "counters" Counter.toJson s.counters
  gauges   : s.toJson.Shows "gauges" gaugeJson s.gauges
  timers   : s.toJson.Shows "timers" Timer.toJson s.timers
  sets     : s.toJson.Shows "sets" Members.toJson s.sets

section

open Json

theorem Summary.legible {s : Summary} (h : ∀ kind, ∀ k ∈ s.series kind, k.IsSeparated) :
    s.Legible where
  unambiguous apart := by
    refine unambiguous_record (by simp) ?_
    have counters := unambiguous_ofMap_text (h .counter) (apart .counter)
      CounterSummary.unambiguous_toJson
    have gauges := unambiguous_ofMap_text (h .gauge) (apart .gauge) unambiguous_ofFloat
    have timers := unambiguous_ofMap_text (h .timer) (apart .timer)
      TimerSummary.unambiguous_toJson
    have sets : (ofMap Series.text ofNat s.sets).Unambiguous :=
      unambiguous_ofMap_text (h .set) (apart .set) fun _ => .number _
    simp [counters, gauges, timers, sets, ofString, Unambiguous.text, Span.unambiguous_toJson]
  counters := shows (under_record ..) (h .counter)
  gauges   := shows (under_record ..) (h .gauge)
  timers   := shows (under_record ..) (h .timer)
  sets     := shows (under_record ..) (h .set)

theorem Snapshot.legible {s : Snapshot} (h : ∀ kind, ∀ k ∈ s.series kind, k.IsSeparated) :
    s.Legible where
  unambiguous apart := by
    refine unambiguous_record (by simp) ?_
    have counters := unambiguous_ofMap_text (h .counter) (apart .counter)
      Counter.unambiguous_toJson
    have gauges := unambiguous_ofMap_text (h .gauge) (apart .gauge) unambiguous_gaugeJson
    have timers := unambiguous_ofMap_text (h .timer) (apart .timer) Timer.unambiguous_toJson
    have sets := unambiguous_ofMap_text (h .set) (apart .set) Members.unambiguous_toJson
    simp [counters, gauges, timers, sets, ofString, Unambiguous.text]
  counters := shows (under_record ..) (h .counter)
  gauges   := shows (under_record ..) (h .gauge)
  timers   := shows (under_record ..) (h .timer)
  sets     := shows (under_record ..) (h .set)

end

namespace Table

variable {t : Table} {log : List Event} {k : Series} {kind : Kind}

-- Everything that is observed comes from packets, of whatever scope.
def IsFedByPackets (log : List Event) : Prop :=
  ∀ m ∈ metrics log, ∃ scope packet, .ok m ∈ Packet.parse scope packet

theorem mem_metrics_of_mem_sightings {o : Sighting} (h : o ∈ sightings log) :
    o.metric ∈ metrics log := by
  obtain ⟨e, mem, sighting⟩ := List.mem_filterMap.mp h
  refine List.mem_filterMap.mpr ⟨e, mem, ?_⟩
  cases e <;> simp only [Event.sighting?, Option.ite_none_right_eq_some] at sighting
  case observe m now =>
    cases sighting.2
    rfl
  all_goals cases sighting

theorem exists_metric_of_mem_held (h : k ∈ (after log).held) : ∃ m ∈ metrics log, m.series = k := by
  rw [← keySet_lastSeen_after, OrderedMap.mem_keySet_iff, find?_lastSeen_after, ne_eq,
    Life.latest?_eq_none_iff] at h
  obtain ⟨o, mem⟩ := List.exists_mem_of_ne_nil _ h
  have applied := Life.mem_sightings mem
  exact ⟨o.metric, mem_metrics_of_mem_sightings applied, (Life.sound_of_mem mem).right⟩

theorem isSeparated_of_mem_held (fed : IsFedByPackets log) (h : k ∈ (after log).held) :
    k.IsSeparated := by
  obtain ⟨m, mem, rfl⟩ := exists_metric_of_mem_held h
  obtain ⟨scope, packet, parsed⟩ := fed m mem
  obtain ⟨line, read⟩ := Packet.exists_parse_eq_ok parsed
  exact Record.isSeparated_of_parse read

theorem mem_held_iff :
    k ∈ t.held ↔ t.counters.find? k ≠ none ∨ t.gauges.find? k ≠ none ∨
      t.timers.find? k ≠ none ∨ t.sets.find? k ≠ none := by
  simp only [held, Finset.mem_union, OrderedMap.mem_keySet_iff, or_assoc]

theorem mem_held_of_mem_summary {thresholds : List Threshold} {timestamp : Timestamp}
    {interval : Span} (h : k ∈ (t.summary thresholds timestamp interval).series kind) :
    k ∈ t.held := by
  rw [mem_held_iff]
  cases kind <;> simp only [Summary.series, summary, OrderedMap.mem_keys_iff, OrderedMap.find?_map,
    OrderedMap.find?_filterMap] at h
  case counter => exact .inl fun none => h (by rw [none]; rfl)
  case gauge   => exact .inr (.inl h)
  case timer   => exact .inr (.inr (.inl fun none => h (by rw [none]; rfl)))
  case set     => exact .inr (.inr (.inr fun none => h (by rw [none]; rfl)))

theorem mem_held_of_mem_snapshot {v : View} {takenAt : Timestamp}
    (h : k ∈ (t.snapshot v takenAt).series kind) : k ∈ t.held := by
  rw [mem_held_iff]
  cases kind <;> simp only [Snapshot.series, snapshot, OrderedMap.mem_keys_iff, find?_select,
    ite_ne_right_iff] at h
  case counter => exact .inl h.2
  case gauge   => exact .inr (.inl h.2)
  case timer   => exact .inr (.inr (.inl h.2))
  case set     => exact .inr (.inr (.inr h.2))

-- What is observed when all records of a packet are.
theorem mem_of_mem_metrics_observe {m : Metric} {results : List (Except RecordError Metric)}
    {now : Instant}
    (mem : m ∈ metrics ((results.filterMap Except.toOption).map (.observe · now))) :
    .ok m ∈ results := by
  simp only [metrics, List.mem_filterMap, List.mem_map] at mem
  obtain ⟨_, ⟨m', ⟨result, parsed, ok⟩, rfl⟩, same⟩ := mem
  cases same
  cases result <;> cases ok
  exact parsed

theorem isFedByPackets_observe (scope : Option String) (packet : List UInt8) (now : Instant) :
    IsFedByPackets (((Packet.parse scope packet).filterMap Except.toOption).map
      (.observe · now)) :=
  fun _ mem => ⟨scope, packet, mem_of_mem_metrics_observe mem⟩

-- The first part is about any two series of records. The second says what that means for reports:
-- only series whose names overlap can get in the way of each other.
theorem texts_identify_series :
    (∀ scope line m scope' line' m', Record.parse scope line = .ok m →
      Record.parse scope' line' = .ok m' → m.series.text = m'.series.text →
        m.series = m'.series ∨ m.series.Overlaps m'.series) ∧
      ∀ log, IsFedByPackets log →
        (∀ thresholds timestamp interval,
          ((after log).flush thresholds timestamp interval).1.Legible) ∧
        ∀ v takenAt, ((after log).snapshot v takenAt).Legible := by
  refine ⟨fun _ _ _ _ _ _ read read' same => ?texts, fun log fed => ⟨?summaries, ?snapshots⟩⟩
  case texts =>
    have separated := Record.isSeparated_of_parse read
    exact Series.eq_or_overlaps_of_text_eq separated (Record.isSeparated_of_parse read') same
  case summaries =>
    intro thresholds timestamp interval
    exact Summary.legible fun _ _ mem => isSeparated_of_mem_held fed (mem_held_of_mem_summary mem)
  case snapshots =>
    intro v takenAt
    exact Snapshot.legible fun _ _ mem => isSeparated_of_mem_held fed (mem_held_of_mem_snapshot mem)

-- A packet with two names of which one begins with the other.
theorem texts_identify_series_in_packet :
    let records := Packet.parse none "a:1|c|#x,y\nab:2|c".toUTF8.toList
    let log : List Event := (records.filterMap Except.toOption).map (.observe · ⟨0⟩)
    let s := ((after log).flush [] ⟨0, 0⟩ ⟨0⟩).1
    IsFedByPackets log ∧ s.size = 2 ∧ s.toJson.Unambiguous := by
  intro records log s
  have fed : IsFedByPackets log := isFedByPackets_observe none _ ⟨0⟩
  have apart : ∀ kind, ∀ k ∈ s.series kind, k.StandsOut (s.series kind) := by
    intro kind
    cases kind <;> decide +kernel
  refine ⟨fed, by decide +kernel, ?_⟩
  exact ((texts_identify_series.2 log fed).1 [] _ _).unambiguous apart

-- A name with a hash can pass for a name with a tag.
theorem texts_collide :
    ∃ m m', Record.parse none "a#b:1|c" = .ok m ∧ Record.parse none "a:2|c|#b" = .ok m' ∧
      m.series.text = m'.series.text ∧ m.series ≠ m'.series := by
  have series : (Record.parse none "a#b:1|c").toOption.map Metric.series =
      some ⟨"a#b", .empty⟩ := by
    decide +kernel
  have series' : (Record.parse none "a:2|c|#b").toOption.map Metric.series =
      some ⟨"a", .ofList ["b"]⟩ := by
    decide +kernel
  cases read : Record.parse none "a#b:1|c"
  case error e => simp [read, Except.toOption] at series
  case ok m =>
    cases read' : Record.parse none "a:2|c|#b"
    case error e => simp [read', Except.toOption] at series'
    case ok m' =>
      simp only [read, read', Except.toOption, Option.map_some, Option.some.injEq] at series series'
      refine ⟨m, m', rfl, rfl, ?_⟩
      rw [series, series']
      decide +kernel

end Table
end MetricCollector
