import MetricCollector.Collection.OrderedMap.Lemmas
import MetricCollector.Proofs.Graphite.Paths
import MetricCollector.Proofs.Text.Solid

namespace MetricCollector

-- Where a map is listed, a key shows what belongs to it, if there is something.
theorem OrderedMap.flatMap_entries_eq {κ α β : Type} [Ord κ] [Std.TransOrd κ] [Std.LawfulEqOrd κ]
    (m : OrderedMap κ α) (k : κ) {f : κ × α → List β}
    (other : ∀ e ∈ m.entries, e.1 ≠ k → f e = []) :
    m.entries.flatMap f = (m.find? k).elim [] fun a => f (k, a) := by
  cases found : m.find? k
  case none =>
    refine List.flatMap_eq_nil_iff.mpr fun e mem => other e mem ?_
    rintro rfl
    have known : m.find? e.1 = some e.2 := mem_entries_iff.mp mem
    rw [found] at known
    cases known
  case some a =>
    obtain ⟨front, back, parts⟩ := List.append_of_mem (mem_entries_iff.mpr found)
    have ascending := m.ascending
    have irreflexive : compare k k ≠ .lt := by simp [Std.ReflCmp.compare_self]
    rw [parts] at other
    rw [Ascending, parts, List.pairwise_append, List.pairwise_cons] at ascending
    obtain ⟨_, ⟨behind, _⟩, before⟩ := ascending
    have none_front : front.flatMap f = [] := by
      refine List.flatMap_eq_nil_iff.mpr fun e mem => other e (List.mem_append_left _ mem) ?_
      rintro rfl
      exact irreflexive (before e mem (e.1, a) (.head _))
    have none_back : back.flatMap f = [] := by
      refine List.flatMap_eq_nil_iff.mpr fun e mem =>
        other e (List.mem_append_right _ (.tail _ mem)) ?_
      rintro rfl
      exact irreflexive (behind e mem)
    rw [parts, List.flatMap_append, List.flatMap_cons, none_front, none_back, List.append_nil]
    rfl

-- Whether the labels of percentiles are nothing but labels: no blank and no semicolon is in them.
def TimerSummary.HasPlainLabels (t : TimerSummary) : Prop :=
  ∀ p ∈ t.percentiles, Text.IsSolid p.label.toList ∧ ';' ∉ p.label.toList

def Summary.HasPlainLabels (s : Summary) : Prop :=
  ∀ k t, (k, t) ∈ s.timers.entries → t.HasPlainLabels

open Text

theorem Threshold.isSolid_label (t : Threshold) :
    IsSolid t.label.toList ∧ ';' ∉ t.label.toList := by
  have word : IsSolid bottomWord := isSolid_of_areGraphic (by decide)
  constructor
  case left =>
    intro c mem
    rcases mem_label mem with digit | mem
    · exact isBlank_of_isDigit digit
    · exact word c mem
  case right =>
    intro mem
    rcases mem_label mem with digit | mem
    · exact Decimal.ne_of_isDigit digit rfl rfl
    · revert mem
      decide

namespace Graphite

section fields

theorem isBlank_safeChar (c : Char) : isBlank (safeChar c) = false := by
  have underscore : isBlank '_' = false := isBlank_of_graphic (by decide)
  have hyphen : isBlank '-' = false := isBlank_of_graphic (by decide)
  rw [safeChar]
  split_ifs with blank <;> simp_all

theorem isSolid_safe (name : List Char) : IsSolid (safe name) := by
  intro c mem
  obtain ⟨c, _, rfl⟩ := List.mem_map.mp mem
  exact isBlank_safeChar c

theorem isSolid_tagPair (tag : String) : IsSolid (tagPair tag).1 ∧ IsSolid (tagPair tag).2 := by
  rw [tagPair]
  split
  case h_1 => exact ⟨isSolid_safe _, isSolid_safe _⟩
  case h_2 =>
    have implied : IsSolid "true".toList := isSolid_of_areGraphic (by decide)
    exact ⟨isSolid_safe _, implied⟩

theorem not_mem_tagPair_value (tag : String) : '=' ∉ (tagPair tag).2 := by
  rw [tagPair]
  split
  case h_1 => exact (not_mem_safe _).2
  case h_2 => exact of_decide_eq_true rfl

theorem isSolid_tagChars (tag : String) : IsSolid (tagChars tag) := by
  obtain ⟨name, value⟩ := isSolid_tagPair tag
  have separator : isBlank '=' = false := isBlank_of_graphic (by decide)
  rw [tagChars_eq]
  exact name.append (value.cons separator)

end fields

namespace Statistic

-- Whether the label, if there is one, is nothing but a label.
def IsPlain : Statistic → Prop
  | selected _ _ label => IsSolid label.toList ∧ ';' ∉ label.toList
  | _ => True

theorem isPlain_of_mem_plains {s : Statistic} (plain : s ∈ plains) : s.IsPlain := by
  cases s
  case selected => simp [plains] at plain
  all_goals trivial

theorem isSolid_word (measure : Measure) (bottom : Bool) : IsSolid (measure.word bottom) :=
  isSolid_of_areGraphic (by cases measure <;> cases bottom <;> decide)

theorem plains_graphic : ∀ s ∈ plains, ∀ name ∈ s.name?, areGraphic name.toList = true := by
  decide

theorem isSolid_name {s : Statistic} (h : s.IsPlain) {name : String} (named : s.name? = some name) :
    IsSolid name.toList ∧ ';' ∉ name.toList := by
  rcases s.mem_plains_or_selected with plain | ⟨measure, bottom, label, rfl⟩
  · exact ⟨isSolid_of_areGraphic (plains_graphic s plain name named),
      (plains_free s plain name named).2.2⟩
  · have chars := name?_selected measure bottom label
    rw [named] at chars
    have chars : name.toList = _ := Option.some.inj chars
    have separator : isBlank '_' = false := isBlank_of_graphic (by decide)
    rw [chars]
    refine ⟨(isSolid_word measure bottom).append (h.1.cons separator), ?_⟩
    simp [(word_free measure bottom).2.2, h.2]

end Statistic

namespace Point

variable {root : String} {p q : Point}

theorem isSolid_stem (h : p.statistic.IsPlain) : IsSolid p.stem ∧ ';' ∉ p.stem := by
  have name : IsSolid (safe p.series.name.toList) := isSolid_safe _
  have free := (not_mem_safe p.series.name.toList).1
  rw [stem]
  cases named : p.statistic.name?
  case none =>
    rw [Option.elim_none, List.append_nil]
    exact ⟨name, free⟩
  case some statistic =>
    obtain ⟨solid, free'⟩ := Statistic.isSolid_name h named
    have point : isBlank '.' = false := isBlank_of_graphic (by decide)
    refine ⟨name.append (solid.cons point), ?_⟩
    simp [free, free']

-- What comes before the first tag.
def head (root : String) (p : Point) : List Char :=
  root.toList ++ '.' :: (p.kind.plural.toList ++ '.' :: p.stem)

theorem path_eq_intercalate (root : String) (p : Point) :
    p.path root = [';'].intercalate (p.head root :: p.series.tags.toList.map tagChars) := by
  rw [path_eq, intercalate_cons_map, intercalate_cons_map, head]
  simp only [List.append_assoc, List.cons_append]

theorem isSolid_head (solid : IsSolid root.toList) (h : p.statistic.IsPlain) :
    IsSolid (p.head root) := by
  have point : isBlank '.' = false := isBlank_of_graphic (by decide)
  have rest := (isSolid_plural p.kind).append ((isSolid_stem h).1.cons point)
  exact solid.append (rest.cons point)

theorem isSolid_path (solid : IsSolid root.toList) (h : p.statistic.IsPlain) :
    IsSolid (p.path root) := by
  have separator : isBlank ';' = false := isBlank_of_graphic (by decide)
  rw [path_eq_intercalate, intercalate_cons_map]
  refine (isSolid_head solid h).append fun c mem => ?_
  obtain ⟨tag, _, mem⟩ := List.mem_flatMap.mp mem
  exact (isSolid_tagChars tag).cons separator c mem

theorem pieces_path (free : ';' ∉ root.toList) (h : p.statistic.IsPlain) :
    Pieces ';' (p.path root) (p.head root :: p.series.tags.toList.map tagChars) where
  nonempty := List.cons_ne_nil _ _
  joined   := (path_eq_intercalate root p).symm
  free     := by
    have plural : ';' ∉ p.kind.plural.toList := by cases p.kind <;> decide
    refine List.forall_mem_cons.mpr ⟨?_, fun piece mem => ?_⟩
    · simp [head, free, plural, (isSolid_stem h).2]
    · obtain ⟨tag, _, rfl⟩ := List.mem_map.mp mem
      exact not_mem_tagChars tag

theorem path_ne_nil (root : String) (p : Point) : p.path root ≠ [] := by
  simp [path_eq]

-- The line of a point without its end.
def text (root : String) (timestamp : Timestamp) (p : Point) : List Char :=
  p.path root ++ ' ' :: plainChars p.value ++ ' ' :: (toString timestamp.seconds).toList

-- A line tells a point by three fields with a blank between two of them and nowhere else. The path
-- has one segment behind a semicolon for each tag and no others.
structure IsToldBy (root : String) (timestamp : Timestamp) (p : Point) (line : List Char) :
    Prop where
  fields : Pieces ' ' line
    [p.path root, plainChars p.value, (toString timestamp.seconds).toList]
  solid  : ∀ field ∈ [p.path root, plainChars p.value, (toString timestamp.seconds).toList],
    field ≠ [] ∧ IsSolid field
  tags   : ';' ∉ root.toList → ∃ segments, Pieces ';' (p.path root) (p.head root :: segments) ∧
    List.Forall₂ (fun tag segment => segment = (tagPair tag).1 ++ '=' :: (tagPair tag).2 ∧
      '=' ∉ (tagPair tag).1 ∧ '=' ∉ (tagPair tag).2) p.series.tags.toList segments

theorem isToldBy_text (solid : IsSolid root.toList) (h : p.statistic.IsPlain)
    (timestamp : Timestamp) : p.IsToldBy root timestamp (p.text root timestamp) := by
  have fields : ∀ field ∈ [p.path root, plainChars p.value, (toString timestamp.seconds).toList],
      field ≠ [] ∧ IsSolid field := by
    simp only [List.forall_mem_cons, List.not_mem_nil, false_implies, implies_true, and_true]
    exact ⟨⟨path_ne_nil root p, isSolid_path solid h⟩,
      ⟨plainChars_ne_nil _, isSolid_plainChars _⟩, toString_int_ne_nil _, isSolid_toString_int _⟩
  constructor
  case fields =>
    have blank : isBlank ' ' = true := by simp [isBlank, blankRanges]
    refine ⟨List.cons_ne_nil _ _, ?_, fun field mem => (fields field mem).2.not_mem blank⟩
    simp [text, List.intercalate]
  case solid => exact fields
  case tags =>
    intro free
    refine ⟨_, pieces_path free h, ?_⟩
    rw [List.forall₂_map_right_iff, List.forall₂_same]
    exact fun tag _ => ⟨tagChars_eq tag, (not_mem_tagPair tag).1, not_mem_tagPair_value tag⟩

-- No field can end a line.
theorem IsToldBy.not_mem {timestamp : Timestamp} {line : List Char}
    (h : p.IsToldBy root timestamp line) : '\n' ∉ line := by
  have newline : isBlank '\n' = true := by simp [isBlank, blankRanges]
  rw [← h.fields.joined]
  intro mem
  simp only [List.intercalate, List.intersperse_cons_cons, List.intersperse_singleton,
    List.flatten_cons, List.flatten_nil, List.append_nil, List.mem_append] at mem
  have free {field : List Char} := fun mem => (h.solid field mem).2.not_mem newline
  simp_all

end Point

section order

-- Whether one point may come before another: kinds in order, and within a kind the series in order.
def Point.InOrder (p q : Point) : Prop :=
  Kind.all.idxOf p.kind < Kind.all.idxOf q.kind ∨
    p.kind = q.kind ∧ (compare p.series q.series).isLE

-- Whether each entry is told by points of its own.
def Own {α : Type} (kind : Kind) (f : Series × α → List Point) : Prop :=
  ∀ e, ∀ p ∈ f e, p.kind = kind ∧ p.series = e.1

namespace Own

variable {α : Type} {kind : Kind} {f : Series × α → List Point}

theorem pairwise_inOrder (own : Own kind f) (m : OrderedMap Series α) :
    (m.entries.flatMap f).Pairwise Point.InOrder := by
  rw [List.pairwise_flatMap]
  constructor
  case left =>
    intro e _
    refine List.pairwise_of_forall_mem_list fun p hp q hq => .inr ?_
    obtain ⟨kind, series⟩ := own e p hp
    obtain ⟨kind', series'⟩ := own e q hq
    exact ⟨kind.trans kind'.symm, by simp [series, series', Std.ReflCmp.compare_self]⟩
  case right =>
    refine m.ascending.imp fun {e e'} lt p hp q hq => .inr ?_
    obtain ⟨kind, series⟩ := own e p hp
    obtain ⟨kind', series'⟩ := own e' q hq
    exact ⟨kind.trans kind'.symm, by simp [series, series', lt]⟩

theorem filter_series_eq (own : Own kind f) (m : OrderedMap Series α) (k : Series) :
    (m.entries.flatMap f).filter (·.series = k) = (m.find? k).elim [] fun a => f (k, a) := by
  rw [List.filter_flatMap]
  refine (m.flatMap_entries_eq k fun e _ other => ?_).trans ?_
  case refine_1 =>
    refine List.filter_eq_nil_iff.mpr fun p mem => ?_
    simp [(own e p mem).2, other]
  case refine_2 =>
    cases m.find? k
    case none   => rfl
    case some a => exact List.filter_eq_self.mpr fun p mem => by simp [(own _ p mem).2]

end Own

theorem own_counterPoints (interval : Span) :
    Own .counter fun e => counterPoints interval e.1 e.2 := by
  intro e p mem
  simp only [counterPoints, List.mem_cons, List.not_mem_nil, or_false] at mem
  rcases mem with rfl | rfl | rfl <;> exact ⟨rfl, rfl⟩

theorem own_gaugePoints : Own .gauge fun e => gaugePoints e.1 e.2 := by
  intro e p mem
  obtain rfl := List.mem_singleton.mp mem
  exact ⟨rfl, rfl⟩

theorem own_timerPoints : Own .timer fun e => timerPoints e.1 e.2 := by
  intro e p mem
  simp only [timerPoints, List.mem_append, List.mem_flatMap] at mem
  rcases mem with mem | ⟨percentile, _, mem⟩
  · simp only [List.mem_cons, List.not_mem_nil, or_false] at mem
    rcases mem with rfl | rfl | rfl | rfl | rfl <;> exact ⟨rfl, rfl⟩
  · simp only [percentilePoints, List.mem_cons, List.not_mem_nil, or_false] at mem
    rcases mem with rfl | rfl | rfl | rfl <;> exact ⟨rfl, rfl⟩

theorem own_setPoints : Own .set fun e => setPoints e.1 e.2 := by
  intro e p mem
  obtain rfl := List.mem_singleton.mp mem
  exact ⟨rfl, rfl⟩

variable (s : Summary)

-- The points of one kind.
def pointsOf : Kind → List Point
  | .counter => s.counters.entries.flatMap fun e => counterPoints s.interval e.1 e.2
  | .gauge   => s.gauges.entries.flatMap fun e => gaugePoints e.1 e.2
  | .timer   => s.timers.entries.flatMap fun e => timerPoints e.1 e.2
  | .set     => s.sets.entries.flatMap fun e => setPoints e.1 e.2

theorem points_eq : points s = Kind.all.flatMap (pointsOf s) := by
  simp [points, pointsOf, Kind.all]

variable {s}

theorem kind_of_mem_pointsOf {kind : Kind} {p : Point} (mem : p ∈ pointsOf s kind) :
    p.kind = kind := by
  cases kind <;> obtain ⟨e, _, mem⟩ := List.mem_flatMap.mp mem
  case counter => exact (own_counterPoints s.interval e p mem).1
  case gauge   => exact (own_gaugePoints e p mem).1
  case timer   => exact (own_timerPoints e p mem).1
  case set     => exact (own_setPoints e p mem).1

variable (s)

theorem pairwise_pointsOf (kind : Kind) : (pointsOf s kind).Pairwise Point.InOrder := by
  cases kind
  case counter => exact (own_counterPoints s.interval).pairwise_inOrder s.counters
  case gauge   => exact own_gaugePoints.pairwise_inOrder s.gauges
  case timer   => exact own_timerPoints.pairwise_inOrder s.timers
  case set     => exact own_setPoints.pairwise_inOrder s.sets

theorem pairwise_points : (points s).Pairwise Point.InOrder := by
  have kinds : Kind.all.Pairwise fun k k' => Kind.all.idxOf k < Kind.all.idxOf k' := by decide
  rw [points_eq, List.pairwise_flatMap]
  refine ⟨fun kind _ => pairwise_pointsOf s kind, kinds.imp fun lt p hp q hq => .inl ?_⟩
  rw [kind_of_mem_pointsOf hp, kind_of_mem_pointsOf hq]
  exact lt

-- What a report tells of one series of a kind, in order.
def told (kind : Kind) (k : Series) : List (Statistic × Float) :=
  ((points s).filter fun p => p.kind = kind ∧ p.series = k).map fun p => (p.statistic, p.value)

theorem told_eq (kind : Kind) (k : Series) : told s kind k =
    ((pointsOf s kind).filter (·.series = k)).map fun p => (p.statistic, p.value) := by
  have own (kind' : Kind) : (pointsOf s kind').filter (fun p => p.kind = kind ∧ p.series = k) =
      if kind' = kind then (pointsOf s kind).filter (·.series = k) else [] := by
    split
    case isTrue same =>
      subst same
      exact List.filter_congr fun p mem => by simp [kind_of_mem_pointsOf mem]
    case isFalse other =>
      exact List.filter_eq_nil_iff.mpr fun p mem => by simp [kind_of_mem_pointsOf mem, other]
  rw [told, points_eq, List.filter_flatMap]
  simp only [own]
  cases kind <;> simp [Kind.all]

theorem told_counter (k : Series) : told s .counter k = (s.counters.find? k).elim [] fun c =>
    [(.count, c.value), (.rate, c.rate s.interval), (.total, c.total)] := by
  rw [told_eq, pointsOf, (own_counterPoints s.interval).filter_series_eq]
  cases s.counters.find? k <;> rfl

theorem told_gauge (k : Series) :
    told s .gauge k = (s.gauges.find? k).elim [] fun x => [(.level, x)] := by
  rw [told_eq, pointsOf, own_gaugePoints.filter_series_eq]
  cases s.gauges.find? k <;> rfl

theorem told_timer (k : Series) : told s .timer k = (s.timers.find? k).elim [] fun t =>
    [(.count, .ofNat t.count), (.sum, t.sum), (.min, t.min), (.max, t.max), (.mean, t.mean)] ++
      t.percentiles.flatMap fun p =>
        (selections p).zip [p.value, .ofNat p.count, p.sum, p.mean] := by
  rw [told_eq, pointsOf, own_timerPoints.filter_series_eq]
  cases s.timers.find? k
  case none   => rfl
  case some t =>
    simp only [Option.elim_some, timerPoints, List.map_append, List.map_flatMap]
    rfl

theorem told_set (k : Series) :
    told s .set k = (s.sets.find? k).elim [] fun n => [(.count, .ofNat n)] := by
  rw [told_eq, pointsOf, own_setPoints.filter_series_eq]
  cases s.sets.find? k <;> rfl

theorem length_points : (points s).length = 3 * s.counters.size + s.gauges.size +
    (s.timers.entries.map fun e => 5 + 4 * e.2.percentiles.length).sum + s.sets.size := by
  have timer (k : Series) (t : TimerSummary) :
      (timerPoints k t).length = 5 + 4 * t.percentiles.length := by
    simp [timerPoints, percentilePoints, List.length_flatMap]
    omega
  simp only [points, List.length_append, List.length_flatMap, timer, OrderedMap.size]
  simp [counterPoints, gaugePoints, setPoints, Nat.mul_comm]

end order

section labels

variable {s : Summary} {p : Point}

theorem isPlain_of_mem_timerPoints {t : TimerSummary} (h : t.HasPlainLabels) {k : Series}
    (mem : p ∈ timerPoints k t) : p.statistic.IsPlain := by
  have statistic := List.mem_map_of_mem (f := (·.statistic)) mem
  rw [map_statistic_timerPoints, List.mem_append, List.mem_flatMap] at statistic
  rcases statistic with plain | ⟨percentile, mine, selected⟩
  · have known : [.count, .sum, .min, .max, .mean] ⊆ Statistic.plains := by decide
    exact Statistic.isPlain_of_mem_plains (known plain)
  · obtain ⟨_, _, same⟩ := label_of_mem_selections selected
    rw [same]
    exact h percentile mine

theorem isPlain_of_mem_points (h : s.HasPlainLabels) (mem : p ∈ points s) :
    p.statistic.IsPlain := by
  simp only [points, List.mem_append, List.mem_flatMap] at mem
  rcases mem with ((⟨e, _, mem⟩ | ⟨e, _, mem⟩) | ⟨e, known, mem⟩) | ⟨e, _, mem⟩
  · simp only [counterPoints, List.mem_cons, List.not_mem_nil, or_false] at mem
    rcases mem with rfl | rfl | rfl <;> trivial
  · obtain rfl := List.mem_singleton.mp mem
    trivial
  · exact isPlain_of_mem_timerPoints (h e.1 e.2 known) mem
  · obtain rfl := List.mem_singleton.mp mem
    trivial

end labels

-- The lines of a report, without their ends.
structure IsFramedAs (root : String) (s : Summary) (lines : List (List Char)) : Prop where
  ended    : Pieces '\n' (render root s).toList (lines ++ [[]])
  each     : List.Forall₂ (fun p line => p.IsToldBy root s.timestamp line) (points s) lines
  ordered  : (points s).Pairwise Point.InOrder
  number   : lines.length = 3 * s.counters.size + s.gauges.size +
    (s.timers.entries.map fun e => 5 + 4 * e.2.percentiles.length).sum + s.sets.size
  counters : ∀ k, told s .counter k = (s.counters.find? k).elim [] fun c =>
    [(.count, c.value), (.rate, c.rate s.interval), (.total, c.total)]
  gauges   : ∀ k, told s .gauge k = (s.gauges.find? k).elim [] fun x => [(.level, x)]
  timers   : ∀ k, told s .timer k = (s.timers.find? k).elim [] fun t =>
    [(.count, .ofNat t.count), (.sum, t.sum), (.min, t.min), (.max, t.max), (.mean, t.mean)] ++
      t.percentiles.flatMap fun p => (selections p).zip [p.value, .ofNat p.count, p.sum, p.mean]
  sets     : ∀ k, told s .set k = (s.sets.find? k).elim [] fun n => [(.count, .ofNat n)]

theorem isFramedAs_map_text {root : String} {s : Summary} (solid : IsSolid root.toList)
    (plain : s.HasPlainLabels) :
    IsFramedAs root s ((points s).map (·.text root s.timestamp)) := by
  have told : ∀ p ∈ points s, p.IsToldBy root s.timestamp (p.text root s.timestamp) :=
    fun p mem => Point.isToldBy_text solid (isPlain_of_mem_points plain mem) s.timestamp
  refine ⟨?ended, ?each, pairwise_points s, ?number, told_counter s, told_gauge s, told_timer s,
    told_set s⟩
  case ended =>
    have rendered : (render root s).toList =
        ((points s).map (·.text root s.timestamp)).flatMap (· ++ ['\n']) := by
      rw [render, String.toList_ofList, List.flatMap_map]
      rfl
    rw [rendered]
    refine pieces_flatMap fun line mem => ?_
    obtain ⟨p, known, rfl⟩ := List.mem_map.mp mem
    exact (told p known).not_mem
  case each   => exact List.forall₂_map_right_iff.mpr (List.forall₂_same.mpr told)
  case number => rw [List.length_map, length_points]

-- Whatever the names and tags are, the lines of a report are those of its series, as long as there
-- are no blanks in the root and in the labels. The labels of thresholds have none.
theorem render_is_framed {root : String} (solid : IsSolid root.toList) :
    (∀ s : Summary, s.HasPlainLabels → ∃ lines, IsFramedAs root s lines) ∧
    ∀ s : Summary, s.IsLabelled → s.HasPlainLabels := by
  refine ⟨fun s plain => ⟨_, isFramedAs_map_text solid plain⟩, fun s labelled k t known p mem => ?_⟩
  obtain ⟨q, _, label⟩ := labelled k t known p mem
  exact label ▸ q.isSolid_label

-- A name and a tag that try to break out of their line.
theorem render_is_framed_hostile :
    let k : Series := ⟨"a 1 2\nb;c=d", .ofList ["e;f=g:h i\n"]⟩
    let t : TimerSummary :=
      { count := 1, sum := 5.0, min := 5.0, max := 5.0, mean := 5.0
        percentiles := [⟨Threshold.ninety.value, Threshold.ninety.label, 5.0, 1, 5.0, 5.0⟩] }
    let s : Summary :=
      { timestamp := ⟨0, 0⟩, interval := ⟨Span.nanosPerSecond⟩
        gauges := OrderedMap.empty.insert k 5.0, timers := OrderedMap.empty.insert k t }
    IsSolid "stats".toList ∧ s.IsLabelled ∧
      ∃ lines, IsFramedAs "stats" s lines ∧ lines.length = 10 := by
  intro k t s
  have solid : IsSolid "stats".toList := isSolid_of_areGraphic (by decide)
  have labelled : s.IsLabelled := by
    intro k' t' known
    obtain ⟨_, rfl⟩ := Prod.mk.inj (List.mem_singleton.mp known)
    intro p mem
    obtain rfl := List.mem_singleton.mp mem
    exact ⟨Threshold.ninety, rfl, rfl⟩
  have framed := render_is_framed solid
  obtain ⟨lines, lines_framed⟩ := framed.1 s (framed.2 s labelled)
  exact ⟨solid, labelled, lines, lines_framed, lines_framed.number⟩

end Graphite
end MetricCollector
