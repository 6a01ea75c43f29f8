import MetricCollector.Proofs.Graphite.Lines

namespace MetricCollector.Graphite

open Text

-- A line of a report: what it tells, and the path by which it does.
structure Line where
  point : Point
  path  : List Char

namespace Line

-- The line as it is written, without its end.
def text (timestamp : Timestamp) (l : Line) : List Char :=
  l.path ++ ' ' :: plainChars l.point.value ++ ' ' :: (toString timestamp.seconds).toList

-- What some lines tell of one series of a kind, in order.
def told (lines : List Line) (kind : Kind) (k : Series) : List (Statistic × Float) :=
  (lines.filter fun l => l.point.kind = kind ∧ l.point.series = k).map fun l =>
    (l.point.statistic, l.point.value)

end Line

-- The lines that a report is written as. They tell the statistics of every series and nothing else,
-- and as long as there is no blank in the root, the path of a line is what comes before its first
-- blank.
structure IsWrittenAs (root : String) (s : Summary) (lines : List Line) : Prop where
  written  : (render root s).toList = lines.flatMap (·.text s.timestamp ++ ['\n'])
  ended    : IsSolid root.toList →
    Pieces '\n' (render root s).toList (lines.map (·.text s.timestamp) ++ [[]])
  fields   : IsSolid root.toList → ∀ l ∈ lines, Pieces ' ' (l.text s.timestamp)
    [l.path, plainChars l.point.value, (toString s.timestamp.seconds).toList]
  number   : lines.length = 3 * s.counters.size + s.gauges.size +
    (s.timers.entries.map fun e => 5 + 4 * e.2.percentiles.length).sum + s.sets.size
  counters : ∀ k, Line.told lines .counter k = (s.counters.find? k).elim [] fun c =>
    [(.count, c.value), (.rate, c.rate s.interval), (.total, c.total)]
  gauges   : ∀ k, Line.told lines .gauge k = (s.gauges.find? k).elim [] fun x => [(.level, x)]
  timers   : ∀ k, Line.told lines .timer k = (s.timers.find? k).elim [] fun t =>
    [(.count, .ofNat t.count), (.sum, t.sum), (.min, t.min), (.max, t.max), (.mean, t.mean)] ++
      t.percentiles.flatMap fun p => (selections p).zip [p.value, .ofNat p.count, p.sum, p.mean]
  sets     : ∀ k, Line.told lines .set k = (s.sets.find? k).elim [] fun n => [(.count, .ofNat n)]

-- The lines of a report, each with the path that is written in it.
def lines (root : String) (s : Summary) : List Line :=
  (points s).map fun p => ⟨p, p.path root⟩

variable {root : String} {s s' : Summary}

theorem map_text_lines (root : String) (s : Summary) (timestamp : Timestamp) :
    (lines root s).map (·.text timestamp) = (points s).map (·.text root timestamp) := by
  rw [lines, List.map_map]
  rfl

theorem told_lines (root : String) (s : Summary) (kind : Kind) (k : Series) :
    Line.told (lines root s) kind k = told s kind k := by
  rw [Line.told, lines, List.filter_map, List.map_map]
  rfl

theorem isWrittenAs_lines (labelled : s.IsLabelled) : IsWrittenAs root s (lines root s) := by
  have plain (solid : IsSolid root.toList) : s.HasPlainLabels :=
    (render_is_framed solid).2 s labelled
  constructor
  case written =>
    rw [render, String.toList_ofList, lines, List.flatMap_map]
    rfl
  case ended =>
    intro solid
    rw [map_text_lines]
    exact (isFramedAs_map_text solid (plain solid)).ended
  case fields =>
    intro solid l mem
    obtain ⟨p, known, rfl⟩ := List.mem_map.mp mem
    have told := isPlain_of_mem_points (plain solid) known
    exact (Point.isToldBy_text solid told s.timestamp).fields
  case number   => rw [lines, List.length_map, length_points]
  case counters => exact fun k => (told_lines root s .counter k).trans (told_counter s k)
  case gauges   => exact fun k => (told_lines root s .gauge k).trans (told_gauge s k)
  case timers   => exact fun k => (told_lines root s .timer k).trans (told_timer s k)
  case sets     => exact fun k => (told_lines root s .set k).trans (told_set s k)

theorem path_eq_iff_of_mem_lines (labelled : s.IsLabelled) (labelled' : s'.IsLabelled) {l l' : Line}
    (mem : l ∈ lines root s) (mem' : l' ∈ lines root s') : l.path = l'.path ↔
      l.point.kind = l'.point.kind ∧ l.point.statistic = l'.point.statistic ∧
        safe l.point.series.name.toList = safe l'.point.series.name.toList ∧
        l.point.series.tags.toList.map tagPair = l'.point.series.tags.toList.map tagPair := by
  obtain ⟨p, known, rfl⟩ := List.mem_map.mp mem
  obtain ⟨p', known', rfl⟩ := List.mem_map.mp mem'
  exact (fits_of_mem_points labelled known).path_eq_iff (fits_of_mem_points labelled' known') root

-- The statistics that are told of a timer with different thresholds are different, and so are the
-- paths.
theorem nodup_paths (labelled : s.IsLabelled) {k : Series} {t : TimerSummary}
    (known : (k, t) ∈ s.timers.entries) (different : (t.percentiles.map (·.threshold)).Nodup) :
    (((lines root s).filter fun l => l.point.kind = .timer ∧ l.point.series = k).map
      (·.path)).Nodup := by
  have statistics : ((Line.told (lines root s) .timer k).map Prod.fst).Nodup := by
    rw [(isWrittenAs_lines labelled).timers k, OrderedMap.mem_entries_iff.mp known,
      Option.elim_some, List.map_append, List.map_flatMap]
    exact map_statistic_timerPoints k t ▸ nodup_statistics (labelled k t known) different k
  rw [Line.told, List.map_map, List.Nodup, List.pairwise_map] at statistics
  rw [List.Nodup, List.pairwise_map]
  refine statistics.imp_of_mem fun {l l'} mem mem' other same => other ?_
  have mem := List.mem_of_mem_filter mem
  have mem' := List.mem_of_mem_filter mem'
  exact ((path_eq_iff_of_mem_lines labelled labelled mem mem').mp same).2.1

-- Paths of one root tell apart everything but the names and tags that look the same once they are
-- made safe, whichever lines of whichever reports they are written in. In particular a timer with
-- different thresholds has no path twice.
theorem path_identifies (root : String) {s s' : Summary} (labelled : s.IsLabelled)
    (labelled' : s'.IsLabelled) :
    (IsWrittenAs root s (lines root s) ∧ IsWrittenAs root s' (lines root s')) ∧
    (∀ l ∈ lines root s, ∀ l' ∈ lines root s', l.path = l'.path ↔
      l.point.kind = l'.point.kind ∧ l.point.statistic = l'.point.statistic ∧
        safe l.point.series.name.toList = safe l'.point.series.name.toList ∧
        l.point.series.tags.toList.map tagPair = l'.point.series.tags.toList.map tagPair) ∧
    ∀ k t, (k, t) ∈ s.timers.entries → (t.percentiles.map (·.threshold)).Nodup →
      (((lines root s).filter fun l => l.point.kind = .timer ∧ l.point.series = k).map
        (·.path)).Nodup :=
  ⟨⟨isWrittenAs_lines labelled, isWrittenAs_lines labelled'⟩,
   fun _ mem _ mem' => path_eq_iff_of_mem_lines labelled labelled' mem mem',
   fun _ _ known different => nodup_paths labelled known different⟩

-- A timer with a threshold for each end.
theorem path_identifies_both_ends :
    let lowest : Threshold := ⟨-90.0, by decide +kernel⟩
    let k : Series := ⟨"a;b=c", .ofList ["d"]⟩
    let t : TimerSummary :=
      { count := 1, sum := 5.0, min := 5.0, max := 5.0, mean := 5.0
        percentiles :=
          [⟨Threshold.ninety.value, Threshold.ninety.label, 5.0, 1, 5.0, 5.0⟩,
           ⟨lowest.value, lowest.label, 5.0, 1, 5.0, 5.0⟩] }
    let s : Summary :=
      { timestamp := ⟨0, 0⟩, interval := ⟨Span.nanosPerSecond⟩
        timers := OrderedMap.empty.insert k t }
    IsSolid "stats".toList ∧ s.IsLabelled ∧ IsWrittenAs "stats" s (lines "stats" s) ∧
      (lines "stats" s).length = 13 ∧ ((lines "stats" s).map (·.path)).Nodup := by
  intro lowest k t s
  have labelled : s.IsLabelled := by
    intro k' t' known
    obtain ⟨_, rfl⟩ := Prod.mk.inj (List.mem_singleton.mp known)
    intro p mem
    rcases List.mem_pair.mp mem with rfl | rfl
    · exact ⟨Threshold.ninety, rfl, rfl⟩
    · exact ⟨lowest, rfl, rfl⟩
  have different : (t.percentiles.map (·.threshold)).Nodup := by decide +kernel
  obtain ⟨⟨written, _⟩, _, paths⟩ := path_identifies "stats" labelled labelled
  have own : (lines "stats" s).filter (fun l => l.point.kind = .timer ∧ l.point.series = k) =
      lines "stats" s := rfl
  have solid : IsSolid "stats".toList := isSolid_of_areGraphic (by decide)
  exact ⟨solid, labelled, written, written.number, own ▸ paths k t (.head _) different⟩

end MetricCollector.Graphite
