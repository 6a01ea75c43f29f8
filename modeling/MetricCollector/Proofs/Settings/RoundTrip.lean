import MetricCollector.Proofs.Address.RoundTrip
import MetricCollector.Proofs.Json.Numbers
import MetricCollector.Proofs.Json.Records
import MetricCollector.Proofs.Json.RoundTrip
import MetricCollector.Proofs.Time.Seconds
import MetricCollector.Settings.Json

namespace MetricCollector

open Json (IsWritable IsScalar Entries field record toText toFloat toCount toParsed toSpan
  toOption toList toNamed toRecord ofString)
open Json.Numeral (nearest?)

namespace Backend

variable {b : Backend}

theorem isWritable_toJson (b : Backend) : b.toJson.IsWritable := by
  cases b <;> exact Json.isWritable_record (by simp [Json.isWritable_ofString])

theorem ofJson_toJson (b : Backend) : ofJson nearest? Settings.backendDepth b.toJson = .ok b := by
  cases b
  case stdout     => rfl
  case graphite g => rfl

end Backend

namespace Settings

variable {s t : Settings}

-- What is known of all settings that were read.
structure IsRead (s : Settings) : Prop where
  workers    : s.receiverWorkers < twoTo 64
  capacity   : s.queueCapacity < twoTo 64
  backlog    : s.summaryBacklog < twoTo 64
  thresholds : ∀ x ∈ s.thresholds, x.isFinite = true

theorem isRead_default : IsRead {} where
  workers    := by decide
  capacity   := by decide
  backlog    := by decide
  thresholds := by decide +kernel

theorem isFinite_of_toFloat {j : Json} {x : Float} (h : toFloat nearest? j = .ok x) :
    x.isFinite = true := by
  cases j
  case number n => exact Json.Numeral.isFinite_of_nearest? (Json.require_eq_ok_iff.mp h)
  all_goals cases h

theorem IsRead.put {f : Json.Field Settings} (mem : f ∈ fields nearest?) {j : Json} (h : s.IsRead)
    (put : f.put s j = .ok t) : t.IsRead := by
  obtain ⟨workers, capacity, backlog, thresholds⟩ := h
  simp only [fields, List.mem_cons, List.not_mem_nil, or_false] at mem
  rcases mem with
    rfl | rfl | rfl | rfl | rfl | rfl | rfl | rfl | rfl | rfl | rfl | rfl | rfl | rfl <;>
    obtain ⟨a, decoded, rfl⟩ := Json.put_field_eq_ok_iff.mp put
  -- A field leaves alone what it is not about.
  all_goals first
    | exact ⟨workers, capacity, backlog, thresholds⟩
    | exact ⟨Json.lt_of_toCount decoded, capacity, backlog, thresholds⟩
    | exact ⟨workers, Json.lt_of_toCount decoded, backlog, thresholds⟩
    | exact ⟨workers, capacity, Json.lt_of_toCount decoded, thresholds⟩
    | exact ⟨workers, capacity, backlog, fun x mem =>
        (Json.exists_of_toList decoded x mem).elim fun _ => isFinite_of_toFloat⟩

theorem isRead_of_readWith {text : String} (accepted : readWith nearest? text = .ok s) :
    s.IsRead := by
  obtain ⟨j, _, decoded⟩ := Json.decodeText_eq_ok_iff.mp accepted
  exact Json.toRecord_preserves (fun f mem _ _ _ h put => h.put mem put) isRead_default decoded

section writing

theorem isWritable_optionJson {α : Type} {toJson : α → Json} (h : ∀ a, (toJson a).IsWritable)
    (o : Option α) : (optionJson toJson o).IsWritable := by
  cases o
  case none   => exact .scalar .null
  case some a => exact h a

theorem isWritable_toJson (s : Settings) : s.toJson.IsWritable := by
  have address (a : Address) : (addressJson a).IsWritable := Json.isWritable_ofString _
  have thresholds : (Json.array (s.thresholds.map .ofFloat)).IsWritable :=
    .array (List.forall_mem_map.mpr fun x _ => Json.isWritable_ofFloat x)
  have backends : (Json.array (s.backends.map Backend.toJson)).IsWritable :=
    .array (List.forall_mem_map.mpr fun b _ => b.isWritable_toJson)
  refine Json.isWritable_record ?_
  cases s.sinkTimeout? <;>
    simp [spanJson, Json.isWritable_ofString, Json.isWritable_ofNat, address, thresholds, backends,
      isWritable_optionJson Json.isWritable_ofString, isWritable_optionJson address,
      IsWritable.scalar (IsScalar.bool s.flushOnShutdown)]

end writing

section decoding

theorem toList_toFloat (h : s.IsRead) :
    toList (toFloat nearest?) (.array (s.thresholds.map .ofFloat)) = .ok s.thresholds := by
  refine Json.toList_map fun x mem => ?_
  obtain ⟨n, written, _, nearest⟩ := Json.exists_ofFloat_eq (h.thresholds x mem)
  rw [written, toFloat, nearest, Json.require]

theorem toParsed_addressJson (a : Address) :
    toParsed Address.read? (addressJson a) = .ok a :=
  Json.toParsed_ofString a.read?_text

theorem toOption_addressJson (a? : Option Address) :
    toOption (toParsed Address.read?) (optionJson addressJson a?) = .ok a? := by
  cases a?
  case none   => rfl
  case some a =>
    change some <$> toParsed Address.read? (addressJson a) = _
    rw [toParsed_addressJson]
    rfl

theorem toOption_toText (scope : Option String) :
    toOption toText (optionJson ofString scope) = .ok scope := by
  cases scope <;> rfl

theorem toNamed_name (policy : OverflowPolicy) :
    toNamed OverflowPolicy.ofName? (ofString policy.name) = .ok policy := by
  cases policy <;> rfl

theorem toBool_bool (b : Bool) : Json.toBool (.bool b) = .ok b := rfl

-- The fields of settings with what is written for them.
def entries (s : Settings) : Entries Settings :=
  ((fields nearest?).take 11).zip
    [addressJson s.metricsAddress, .ofNat s.receiverWorkers, optionJson ofString s.scope,
     optionJson addressJson s.consoleAddress, optionJson addressJson s.webAddress,
     spanJson s.flushInterval, spanJson s.expiryInterval, .array (s.thresholds.map .ofFloat),
     .ofNat s.queueCapacity, ofString s.overflowPolicy.name, .bool s.flushOnShutdown]
  ++ s.sinkTimeout?.toList.flatMap (fun timeout =>
    (((fields nearest?).drop 11).take 1).zip [spanJson timeout])
  ++ ((fields nearest?).drop 12).zip
    [.ofNat s.summaryBacklog, .array (s.backends.map Backend.toJson)]

theorem toJson_eq (s : Settings) : s.toJson = record s.entries.members := by
  rw [toJson, entries]
  cases s.sinkTimeout? <;> rfl

theorem nodup_names : ((fields nearest?).map (·.name)).Nodup := by
  change List.Nodup ["metricsAddr", "receiverWorkers", "namespace", "consoleAddr", "webConsoleAddr",
    "flushInterval", "expiryInterval", "percentThresholds", "queueCapacity", "overflowPolicy",
    "flushOnShutdown", "sinkTimeout", "summaryBacklog", "backends"]
  decide

theorem sublist_entries (s : Settings) : (s.entries.map (·.1)).Sublist (fields nearest?) := by
  rw [entries]
  cases s.sinkTimeout?
  case some => exact .refl _
  case none =>
    change ((fields nearest?).eraseIdx 11).Sublist _
    exact List.eraseIdx_sublist _ _

theorem ofJson_toJson (h : s.IsRead) :
    ofJson nearest? s.toJson = (do
      let flushInterval ← toSpan (spanJson s.flushInterval)
      let expiryInterval ← toSpan (spanJson s.expiryInterval)
      let sinkTimeout? ← s.sinkTimeout?.mapM fun d => toSpan (spanJson d)
      return { s with flushInterval, expiryInterval, sinkTimeout? }) := by
  have own : ∀ e ∈ s.entries, e.1 ∈ fields nearest? := fun e mem =>
    s.sublist_entries.subset (List.mem_map_of_mem mem)
  have once : (s.entries.map (·.1.name)).Nodup := by
    have := (s.sublist_entries.map (·.name)).nodup nodup_names
    rwa [List.map_map] at this
  rw [toJson_eq, ofJson, Json.toRecord_record nodup_names own once, entries]
  have backends : toList (Backend.ofJson nearest? backendDepth)
      (.array (s.backends.map Backend.toJson)) = .ok s.backends :=
    Json.toList_map fun b _ => b.ofJson_toJson
  cases s.sinkTimeout? <;>
    simp only [fields, List.take, List.drop, List.zip_cons_cons, List.zip_nil_left, Option.toList,
      List.flatMap_cons, List.flatMap_nil, List.nil_append, List.append_nil, List.cons_append,
      Entries.put_cons, Entries.put_nil, toParsed_addressJson, Json.toCount_ofNat h.workers,
      Json.toCount_ofNat h.capacity, Json.toCount_ofNat h.backlog, toOption_addressJson,
      toOption_toText, toList_toFloat h, toNamed_name, toBool_bool, backends, ok_bind]
  case none   => rfl
  case some d => rfl

theorem toSpan_ofString_eq_ok_iff {text : String} {d : Span} :
    toSpan (ofString text) = .ok d ↔ Span.read text = .ok d :=
  mapError_eq_ok_iff

theorem toSpan_spanJson_eq_ok_iff {d d' : Span} :
    toSpan (spanJson d) = .ok d' ↔ Span.ofSeconds? d.toSeconds = some d' :=
  toSpan_ofString_eq_ok_iff.trans Span.read_secondsText_eq_ok_iff

theorem mapM_toSpan_eq_ok_iff {d? d'? : Option Span} :
    (d?.mapM fun d => toSpan (spanJson d)) = .ok d'? ↔
      Option.Rel (fun d d' => Span.ofSeconds? d.toSeconds = some d') d? d'? := by
  cases d?
  case none => cases d'? <;> simp [pure, Except.pure]
  case some d =>
    have decoded := @toSpan_spanJson_eq_ok_iff d
    cases read : toSpan (spanJson d) <;> rw [read] at decoded <;> cases d'? <;>
      simp [read, Functor.map, Except.map, ← decoded]

end decoding

section results

-- The spans of time in settings.
def spans (s : Settings) : List Span :=
  s.flushInterval :: s.expiryInterval :: s.sinkTimeout?.toList

-- What is read back: the settings with every span replaced by what its seconds are read as.
structure ReadsBack (s t : Settings) : Prop where
  flush   : Span.ofSeconds? s.flushInterval.toSeconds = some t.flushInterval
  expiry  : Span.ofSeconds? s.expiryInterval.toSeconds = some t.expiryInterval
  timeout : Option.Rel (fun d d' => Span.ofSeconds? d.toSeconds = some d') s.sinkTimeout?
    t.sinkTimeout?
  others  : t = { s with
    flushInterval  := t.flushInterval
    expiryInterval := t.expiryInterval
    sinkTimeout?   := t.sinkTimeout? }

theorem readWith_write_eq_ok_iff (h : s.IsRead) :
    readWith nearest? s.write = .ok t ↔ s.ReadsBack t := by
  rw [readWith, write, Json.decodeText_write (isWritable_toJson s), ofJson_toJson h]
  constructor
  case mp =>
    intro back
    obtain ⟨flush, h₁, back⟩ := exists_of_bind_eq_ok back
    obtain ⟨expiry, h₂, back⟩ := exists_of_bind_eq_ok back
    obtain ⟨timeout?, h₃, back⟩ := exists_of_bind_eq_ok back
    cases back
    exact ⟨toSpan_spanJson_eq_ok_iff.mp h₁, toSpan_spanJson_eq_ok_iff.mp h₂,
      mapM_toSpan_eq_ok_iff.mp h₃, rfl⟩
  case mpr =>
    rintro ⟨flush, expiry, timeout, others⟩
    rw [toSpan_spanJson_eq_ok_iff.mpr flush, toSpan_spanJson_eq_ok_iff.mpr expiry,
      mapM_toSpan_eq_ok_iff.mpr timeout, others]
    rfl

theorem readsBack_self_iff : s.ReadsBack s ↔ ∀ d ∈ s.spans, d.IsKept := by
  simp only [spans, List.forall_mem_cons]
  constructor
  case mp =>
    rintro ⟨flush, expiry, timeout, _⟩
    refine ⟨flush, expiry, fun d mem => ?_⟩
    rw [Option.mem_toList] at mem
    rw [mem] at timeout
    cases timeout
    assumption
  case mpr =>
    rintro ⟨flush, expiry, timeout⟩
    refine ⟨flush, expiry, ?_, rfl⟩
    cases set : s.sinkTimeout?
    case none   => exact .none
    case some d => exact .some (timeout d (by simp [set]))

-- Settings that were read are read back as they are iff each of their spans is what its number of
-- seconds is read as, which goes for all spans of less than 2 ^ 23 seconds. Nothing else changes.
theorem readWith_write {text : String} (accepted : readWith nearest? text = .ok s) :
    (readWith nearest? s.write = .ok s ↔ ∀ d ∈ s.spans, d.IsKept) ∧
      ((∀ d ∈ s.spans, d.seconds < 2 ^ 23) → readWith nearest? s.write = .ok s) ∧
      ∀ t, readWith nearest? s.write = .ok t →
        t = { s with
          flushInterval  := t.flushInterval
          expiryInterval := t.expiryInterval
          sinkTimeout?   := t.sinkTimeout? } := by
  have known := isRead_of_readWith accepted
  have same := (readWith_write_eq_ok_iff known).trans readsBack_self_iff
  refine ⟨same, fun short => ?_, fun t back => ?_⟩
  · exact same.mpr fun d mem => Span.isKept_of_lt (short d mem)
  · exact ((readWith_write_eq_ok_iff known).mp back).others

section single

-- An object with nothing but one span.
theorem readWith_expiryInterval {text : String} (span : String) {d : Span}
    (written : text = (record [("expiryInterval", ofString span)]).write)
    (read : Span.read span = .ok d) : readWith nearest? text = .ok { expiryInterval := d } := by
  have writable : (record [("expiryInterval", ofString span)]).IsWritable :=
    Json.isWritable_record (by simp [Json.isWritable_ofString])
  have decoded := @Json.toRecord_record Settings (fields nearest?)
    [(field "expiryInterval" toSpan fun s x => { s with expiryInterval := x }, ofString span)]
    nodup_names (by simp [fields]) (by simp) {}
  rw [Entries.put_cons, toSpan_ofString_eq_ok_iff.mpr read, ok_bind] at decoded
  rw [readWith, written, Json.decodeText_write writable]
  exact decoded

theorem readWith_write_of_ninety_seconds :
    ∃ s, readWith nearest? "\x7b\"expiryInterval\":\"1m 30s\"\x7d" = .ok s ∧
      readWith nearest? s.write = .ok s := by
  have accepted : readWith nearest? "\x7b\"expiryInterval\":\"1m 30s\"\x7d" =
      .ok { expiryInterval := .ofSeconds 90 } :=
    readWith_expiryInterval "1m 30s" (by decide +kernel)
      (Span.read_eq_ok_iff.mpr (by decide +kernel))
  exact ⟨_, accepted, (readWith_write accepted).2.1 (by decide)⟩

-- From 2 ^ 23 seconds on, the numbers of seconds are too far apart for single nanoseconds.
theorem readWith_write_loses_nanosecond :
    ∃ s t, readWith nearest? "\x7b\"expiryInterval\":\"8388608s 1ns\"\x7d" = .ok s ∧
      readWith nearest? s.write = .ok t ∧ s.expiryInterval = ⟨8388608000000001⟩ ∧
        t.expiryInterval = ⟨8388608000000002⟩ := by
  have accepted : readWith nearest? "\x7b\"expiryInterval\":\"8388608s 1ns\"\x7d" =
      .ok { expiryInterval := ⟨8388608000000001⟩ } :=
    readWith_expiryInterval "8388608s 1ns" (by decide +kernel)
      (Span.read_eq_ok_iff.mpr (by decide +kernel))
  have back : ReadsBack { expiryInterval := ⟨8388608000000001⟩ }
      { expiryInterval := ⟨8388608000000002⟩ } :=
    ⟨Span.isKept_of_lt (by decide), by decide +kernel, .none, rfl⟩
  have known := isRead_of_readWith accepted
  exact ⟨_, _, accepted, (readWith_write_eq_ok_iff known).mpr back, rfl, rfl⟩

end single

end results

end Settings
end MetricCollector
