import MetricCollector.Console.Request
import MetricCollector.Proofs.Console.Queries
import MetricCollector.Proofs.Service.Idle
import MetricCollector.Proofs.Table.Views
import MetricCollector.Proofs.Wire.Newlines

namespace MetricCollector

theorem newline_not_mem_plainText (x : Float) : '\n' ∉ (plainText x).toList := by
  rw [plainText, String.toList_ofList]
  exact (Text.isSolid_plainChars x).not_mem (by decide)

theorem newline_not_mem_countText (n : Nat) : '\n' ∉ (countText n).toList := by
  rw [countText, String.toList_ofList]
  exact (Text.isSolid_of_areDigits (Decimal.areDigits_toDigits n)).not_mem (by decide)

-- Whether all members are texts of numbers.
def Members.AreNumbers (s : Members) : Prop :=
  ∀ text ∈ s.toList, ∃ x, plainText x = text

namespace Console

def stateText : State → String
  | .counter c => counterText c
  | .gauge x   => plainText x
  | .timer t   => timerText t
  | .set s     => membersText s

-- The line of a series without its end.
def lineChars (e : Series × State) : List Char :=
  (e.1.text ++ ": " ++ stateText e.2).toList

-- Whether there is no line break in a line.
def IsLine (e : Series × State) : Prop :=
  '\n' ∉ lineChars e

-- A reply that has one line for each of these series, each line with its end, and nothing else.
def Lists (reply : Option String) (entries : List (Series × State)) : Prop :=
  ∃ text, reply = some text ∧ Text.Pieces '\n' text.toList (entries.map lineChars ++ [[]])

theorem newline_not_mem_counterText (c : Counter) : '\n' ∉ (counterText c).toList := by
  simp [counterText, newline_not_mem_plainText]

theorem newline_not_mem_timerText (t : Timer) : '\n' ∉ (timerText t).toList := by
  unfold timerText
  split <;> simp [newline_not_mem_plainText, newline_not_mem_countText]

theorem newline_not_mem_membersText {s : Members} (numbers : s.AreNumbers) :
    '\n' ∉ (membersText s).toList := by
  have members : '\n' ∉ (String.intercalate ", " s.toList).toList := by
    rw [String.toList_intercalate]
    intro mem
    rcases Text.mem_of_mem_intercalate mem with comma | ⟨_, member, mem⟩
    · exact absurd comma (by decide)
    · obtain ⟨text, inside, rfl⟩ := List.mem_map.mp member
      obtain ⟨x, rfl⟩ := numbers text inside
      exact newline_not_mem_plainText x mem
  rw [membersText]
  simp only [String.toList_append, List.mem_append, newline_not_mem_countText, members, or_false,
    false_or]
  decide

theorem listing_eq (s : Snapshot) (kind : Kind) : listing s kind =
    (s.states kind).entries.map fun e => e.1.text ++ ": " ++ stateText e.2 ++ "\n" := by
  cases kind <;> simp only [listing, lines, Snapshot.states, OrderedMap.map, List.map_map] <;> rfl

theorem pieces_listingText {s : Snapshot} {kind : Kind}
    (unbroken : ∀ e ∈ (s.states kind).entries, IsLine e) :
    Text.Pieces '\n' (listingText s kind).toList
      ((s.states kind).entries.map lineChars ++ [[]]) := by
  have whole : (listingText s kind).toList =
      ((s.states kind).entries.map lineChars).flatMap (· ++ ['\n']) := by
    rw [listingText, String.toList_join, listing_eq, List.flatMap_map, List.flatMap_map]
    simp [lineChars]
  rw [whole]
  exact Text.pieces_flatMap (List.forall_mem_map.mpr unbroken)

-- The name of a group of series, and behind it perhaps the beginning of a name.
theorem Request.read_eq_list {line : String} {kind : Kind} {rest : List String}
    (h : Text.words line = kind.plural :: rest) : read line = .list kind rest.head? := by
  simp only [read, h]
  cases kind <;> rfl

theorem Request.read_plural (kind : Kind) : read kind.plural = .list kind none :=
  read_eq_list (Text.words_of_isSolid (Text.isSolid_plural kind) (by cases kind <;> decide))

theorem Request.read_plural_append {start : String} (solid : Text.IsSolid start.toList)
    (some : start ≠ "") (kind : Kind) :
    read (kind.plural ++ " " ++ start) = .list kind start := by
  have words : Text.words (kind.plural ++ " " ++ start) = [kind.plural, start] := by
    rw [Text.words_append (Text.isSolid_plural kind) (by cases kind <;> decide),
      Text.words_of_isSolid solid some]
  exact read_eq_list words

end Console

namespace Table

variable {log : List Event} {kind : Kind} {e : Series × State}

theorem areNumbers_of_mem_sets {k : Series} {s : Members}
    (found : (after log).sets.find? k = some s) : s.AreNumbers := by
  intro text mem
  rw [find?_sets_after, Life.gathered?, Option.ite_none_left_eq_some] at found
  rw [← Option.some.inj found.2, Members.mem_foldl_add] at mem
  obtain ⟨x, _, same⟩ := mem.resolve_left (List.not_mem_nil)
  exact ⟨x, same⟩

-- Nothing in a table that packets feed has a line break in it.
theorem isLine_of_mem_states (fed : IsFedByLines log) {v : View} {takenAt : Timestamp}
    (mem : e ∈ (((after log).snapshot v takenAt).states kind).entries) : Console.IsLine e := by
  have series : e.1 ∈ ((after log).snapshot v takenAt).series kind := by
    rw [← Snapshot.keys_states]
    exact List.mem_map_of_mem mem
  have name := isUnbroken_of_mem_held fed (mem_held_of_mem_snapshot series)
  have state : '\n' ∉ (Console.stateText e.2).toList := by
    cases kind <;> simp only [Snapshot.states, OrderedMap.map, List.mem_map] at mem <;>
      obtain ⟨⟨k, a⟩, member, rfl⟩ := mem
    case counter => exact Console.newline_not_mem_counterText a
    case gauge   => exact newline_not_mem_plainText a
    case timer   => exact Console.newline_not_mem_timerText a
    case set     =>
      rw [snapshot, View.entries_select, List.mem_filter, OrderedMap.mem_entries_iff] at member
      exact Console.newline_not_mem_membersText (areNumbers_of_mem_sets member.1)
  rw [Series.IsUnbroken] at name
  simp [Console.IsLine, Console.lineChars, name, state]

end Table

namespace Collector

variable {c : Collector}

theorem IsOpen.answer (h : c.IsOpen) {line : String} {kind : Kind} {start? : Option String}
    (read : Console.Request.read line = .list kind start?) :
    (c.answer line).1 = some (Console.listingText
      (c.engine.table.snapshot { kind? := kind, start? } c.now.timestamp) kind) := by
  simp only [Collector.answer, read, h.snapshot]
  rfl

theorem IsOpen.serve (h : c.IsOpen) {query : List Char} {start? : Option String}
    (asked : Web.start? query = .ok start?) (kind : Kind) :
    (c.serve ⟨"GET", ⟨'/' :: kind.plural.toList, query⟩⟩).1 =
      ⟨200, .snapshot (c.engine.table.snapshot { kind? := kind, start? } c.now.timestamp)⟩ := by
  have path : Web.Route.ofPath? ('/' :: kind.plural.toList) = some (.kind kind) := by
    cases kind <;> decide
  simp only [Collector.serve, path, serveRoute, asked, h.snapshot]
  rfl

-- A collector with this table, which has just started.
theorem isOpen_start (settings : Settings) (engine : EngineSettings) (sinks : List Sink)
    (table : Table) (can : (Engine.create engine).canRun Moment.origin.instant = true) :
    let started := (Engine.create engine).start Moment.origin.instant
    IsOpen { create settings engine sinks with engine := { started with table } } := by
  intro started
  have runs : started = (Engine.create engine).run Moment.origin.instant :=
    Engine.start_of_canRun can
  have attends : ({ started with table } : Engine).Attends .origin := by
    obtain ⟨tickers, going, heard⟩ := @Engine.attends_run (.create engine) .origin rfl rfl
    exact runs ▸ ⟨tickers, going, heard⟩
  obtain ⟨flush, expiry, running, _⟩ := attends.tickers
  rw [runs] at attends ⊢
  refine ⟨⟨flush, expiry, runs ▸ running⟩, ?_, rfl, rfl, engine.queueCapacity_pos⟩
  exact attends.turn?_eq

variable {log : List Table.Event}

-- The replies to requests for series of one kind, with the beginning of a name or without it, and
-- what views have to do with the whole snapshot, which has everything that the table has.
theorem views_agree (h : c.IsOpen) (fed : Table.IsFedByLines log)
    (same : c.engine.table = .after log) (kind : Kind) {start : String} (some : start ≠ "")
    (solid : Text.IsSolid start.toList) :
    let entries := ((c.engine.table.snapshot .whole c.now.timestamp).states kind).entries
    let shown := entries.filter fun e => start.toList.isPrefixOf e.1.name.toList
    (entries.map Prod.fst).Pairwise Series.Precedes ∧
    Console.Lists (c.answer kind.plural).1 entries ∧
    Console.Lists (c.answer (kind.plural ++ " " ++ start)).1 shown ∧
    (∃ query, Web.start? query = .ok start) ∧
    (∀ query, Web.start? query = .ok start → ∃ s,
      (c.serve ⟨"GET", ⟨'/' :: kind.plural.toList, query⟩⟩).1 = ⟨200, .snapshot s⟩ ∧
      (s.states kind).entries = shown ∧ ∀ other, other ≠ kind → (s.states other).entries = []) ∧
    ∀ (t : Table) takenAt,
      t.snapshot .whole takenAt = ⟨takenAt, t.counters, t.gauges, t.timers, t.sets⟩ ∧
      ∀ v kind, ((t.snapshot v takenAt).states kind).entries =
        ((t.snapshot .whole takenAt).states kind).entries.filter fun e => v.Shows kind e.1 := by
  intro entries shown
  have listed (start? : Option String) : Console.Lists (Option.some (Console.listingText
      (c.engine.table.snapshot { kind? := kind, start? } c.now.timestamp) kind))
      ((c.engine.table.snapshot { kind? := kind, start? } c.now.timestamp).states kind).entries :=
    ⟨_, rfl, Console.pieces_listingText fun e mem =>
      Table.isLine_of_mem_states fed (same ▸ mem)⟩
  have without : ((c.engine.table.snapshot { kind? := kind, start? := none }
      c.now.timestamp).states kind).entries = entries := by
    rw [Table.states_snapshot]
    exact List.filter_eq_self.mpr fun e _ => by simp [View.Shows]
  have within : ((c.engine.table.snapshot { kind? := kind, start? := start }
      c.now.timestamp).states kind).entries = shown := by
    rw [Table.states_snapshot]
    exact List.filter_congr fun e _ => by simp [View.Shows, ← List.isPrefixOf_iff_prefix]
  refine ⟨Series.precedes_keys _, ?plain, ?started, Web.exists_start?_eq start, ?web,
    fun t takenAt => ⟨t.snapshot_whole takenAt, fun v kind => t.states_snapshot v takenAt kind⟩⟩
  case plain =>
    rw [h.answer (Console.Request.read_plural kind), ← without]
    exact listed none
  case started =>
    rw [h.answer (Console.Request.read_plural_append solid some kind), ← within]
    exact listed start
  case web =>
    intro query asked
    refine ⟨_, h.serve asked kind, within, fun other apart => ?_⟩
    rw [Table.states_snapshot]
    exact List.filter_eq_nil_iff.mpr fun e _ => by simp [View.Shows, apart.symm]

-- Two counters, of which one is asked for.
theorem views_agree_in_packet :
    let records := Packet.parse (some "app") "web:1|c\ndb:2|c|#x".toUTF8.toList
    let table := Table.after ((records.filterMap Except.toOption).map (.observe · ⟨0⟩))
    let started := (Engine.create {}).start Moment.origin.instant
    let c := { create {} {} [] with engine := { started with table } }
    ∃ text, (c.answer "counters app.w").1 = some text ∧
      Text.Pieces '\n' text.toList ["app.web: 1 (total 1)".toList, []] := by
  intro records table started c
  have free : ∀ s ∈ some "app", '\n' ∉ s.toList := by simp
  have fed := Table.isFedByLines_observe free "web:1|c\ndb:2|c|#x".toUTF8.toList ⟨0⟩
  have some : "app.w" ≠ "" := by decide
  have solid : Text.IsSolid "app.w".toList := Text.isSolid_of_areGraphic (by decide)
  obtain ⟨_, _, ⟨text, answer, pieces⟩, _⟩ :=
    views_agree (isOpen_start {} {} [] table (by decide)) fed rfl .counter some solid
  have lines : ((((table.snapshot .whole Moment.origin.timestamp).states .counter).entries.filter
      fun e => "app.w".toList.isPrefixOf e.1.name.toList).map Console.lineChars) =
      ["app.web: 1 (total 1)".toList] := by
    decide +kernel
  refine ⟨text, answer, ?_⟩
  show Text.Pieces '\n' text.toList (["app.web: 1 (total 1)".toList] ++ [[]])
  rw [← lines]
  exact pieces

end Collector
end MetricCollector
