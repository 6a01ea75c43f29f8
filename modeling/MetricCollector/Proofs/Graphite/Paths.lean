import MetricCollector.Graphite
import MetricCollector.Proofs.Percentile.Labels

namespace MetricCollector

-- Whether the labels are those of the thresholds.
def TimerSummary.IsLabelled (t : TimerSummary) : Prop :=
  ∀ p ∈ t.percentiles, ∃ q : Threshold, p.threshold = q.value ∧ p.label = q.label

def Summary.IsLabelled (s : Summary) : Prop :=
  ∀ k t, (k, t) ∈ s.timers.entries → t.IsLabelled

namespace Graphite

section Tags

-- The name and the value of a tag as a path shows them. A tag without a value counts as true.
def tagPair (tag : String) : List Char × List Char :=
  match Text.cutAt? ':' tag.toList with
  | some (name, value) => (safe name, safe value)
  | none               => (safe tag.toList, "true".toList)

theorem tagChars_eq (tag : String) :
    tagChars tag = (tagPair tag).1 ++ '=' :: (tagPair tag).2 := by
  simp only [tagChars, tagPair]
  cases Text.cutAt? ':' tag.toList <;> rfl

theorem safeChar_ne (c : Char) : safeChar c ≠ ';' ∧ safeChar c ≠ '=' := by
  rw [safeChar]
  split_ifs <;> simp_all

theorem not_mem_safe (name : List Char) : ';' ∉ safe name ∧ '=' ∉ safe name := by
  simp only [safe, List.mem_map, not_exists, not_and]
  exact ⟨fun c _ => (safeChar_ne c).1, fun c _ => (safeChar_ne c).2⟩

theorem not_mem_tagPair (tag : String) :
    '=' ∉ (tagPair tag).1 ∧ ';' ∉ (tagPair tag).1 ∧ ';' ∉ (tagPair tag).2 := by
  rw [tagPair]
  split
  case h_1 name value _ =>
    exact ⟨(not_mem_safe name).2, (not_mem_safe name).1, (not_mem_safe value).1⟩
  case h_2 =>
    have value : ';' ∉ "true".toList := by decide
    exact ⟨(not_mem_safe _).2, (not_mem_safe _).1, value⟩

theorem not_mem_tagChars (tag : String) : ';' ∉ tagChars tag := by
  obtain ⟨_, name, value⟩ := not_mem_tagPair tag
  simp [tagChars_eq, name, value]

theorem tagChars_eq_iff {tag tag' : String} :
    tagChars tag = tagChars tag' ↔ tagPair tag = tagPair tag' := by
  rw [tagChars_eq, tagChars_eq]
  constructor
  case mp =>
    intro same
    have := Text.append_cons_inj (not_mem_tagPair tag).1 (not_mem_tagPair tag').1 same
    exact Prod.ext this.1 this.2
  case mpr =>
    intro same
    rw [same]

theorem map_tagChars_eq_iff {tags tags' : List String} :
    tags.map tagChars = tags'.map tagChars ↔ tags.map tagPair = tags'.map tagPair := by
  induction tags generalizing tags'
  case nil => cases tags' <;> simp
  case cons tag tags ih =>
    cases tags'
    case nil            => simp
    case cons tag' tags' => simp only [List.map_cons, List.cons.injEq, tagChars_eq_iff, ih]

end Tags

section Statistics

-- The word in front of the label.
def Measure.word (bottom : Bool) : Measure → List Char
  | boundary => if bottom then "lower".toList else "upper".toList
  | count    => "count".toList
  | sum      => "sum".toList
  | mean     => "mean".toList

theorem name?_selected (measure : Measure) (bottom : Bool) (label : String) :
    (Statistic.selected measure bottom label).name?.map (·.toList) =
      some (measure.word bottom ++ '_' :: label.toList) := by
  cases measure <;> cases bottom <;>
    simp [Statistic.name?, Measure.word, String.toList_append]

theorem word_free (measure : Measure) (bottom : Bool) :
    '_' ∉ measure.word bottom ∧ '.' ∉ measure.word bottom ∧ ';' ∉ measure.word bottom := by
  cases measure <;> cases bottom <;> decide

theorem eq_of_word {a b : Measure} {x : Bool} (same : a.word x = b.word x) : a = b := by
  revert same
  cases a <;> cases b <;> cases x <;> decide

namespace Statistic

-- Whether the label, if there is one, is that of a threshold, and the samples are those at its end.
def IsLabelled : Statistic → Prop
  | selected _ bottom label => ∃ q : Threshold, bottom = q.isBottom ∧ label = q.label
  | _ => True

-- What is told about all of the samples, or about no samples.
def plains : List Statistic :=
  [.level, .count, .rate, .total, .sum, .min, .max, .mean]

theorem mem_plains_or_selected (s : Statistic) :
    s ∈ plains ∨ ∃ measure bottom label, s = selected measure bottom label := by
  cases s
  case selected => exact .inr ⟨_, _, _, rfl⟩
  all_goals exact .inl (by decide)

theorem plains_free : ∀ s ∈ plains, ∀ name ∈ s.name?,
    '_' ∉ name.toList ∧ '.' ∉ name.toList ∧ ';' ∉ name.toList := by
  decide

theorem name?_eq_none_iff {s : Statistic} : s.name? = none ↔ s = .level := by
  cases s
  case selected measure bottom label =>
    have named := name?_selected measure bottom label
    have some : (selected measure bottom label).name? ≠ none := fun none => by
      rw [none] at named
      cases named
    exact iff_of_false some nofun
  all_goals simp [name?]

-- The names of the others have no underscore.
theorem name?_selected_ne {s : Statistic} (plain : s ∈ plains) (measure : Measure) (bottom : Bool)
    (label : String) : (selected measure bottom label).name? ≠ s.name? := by
  intro same
  have named := name?_selected measure bottom label
  rw [same] at named
  obtain ⟨name, named, chars⟩ := Option.map_eq_some_iff.mp named
  have free := (plains_free s plain name named).1
  simp [chars] at free

theorem eq_of_plain {a b : Statistic} (ha : a ∈ plains) (hb : b ∈ plains)
    (same : a.name? = b.name?) : a = b := by
  have distinct : (plains.map name?).Nodup := by decide
  exact List.inj_on_of_nodup_map distinct ha hb same

theorem eq_of_name {a b : Statistic} (ha : a.IsLabelled) (hb : b.IsLabelled)
    (same : a.name? = b.name?) : a = b := by
  rcases a.mem_plains_or_selected with plain | ⟨measure, bottom, label, rfl⟩ <;>
    rcases b.mem_plains_or_selected with plain' | ⟨measure', bottom', label', rfl⟩
  · exact eq_of_plain plain plain' same
  · exact (name?_selected_ne plain _ _ _ same.symm).elim
  · exact (name?_selected_ne plain' _ _ _ same).elim
  · have chars := congrArg (Option.map (·.toList)) same
    rw [name?_selected, name?_selected] at chars
    obtain ⟨words, labels⟩ := Text.append_cons_inj (word_free ..).1 (word_free ..).1
      (Option.some.inj chars)
    obtain rfl := String.toList_inj.mp labels
    obtain ⟨q, rfl, label⟩ := ha
    obtain ⟨q', rfl, label'⟩ := hb
    have bottoms := Threshold.isBottom_eq_of_label (label.symm.trans label')
    rw [bottoms] at words ⊢
    rw [eq_of_word words]

-- Neither a dot nor a semicolon is in a name.
theorem name_free {s : Statistic} (h : s.IsLabelled) {name : String} (named : s.name? = some name) :
    '.' ∉ name.toList ∧ ';' ∉ name.toList := by
  rcases s.mem_plains_or_selected with plain | ⟨measure, bottom, label, rfl⟩
  · exact (plains_free s plain name named).2
  · obtain ⟨q, rfl, rfl⟩ := h
    have chars := name?_selected measure q.isBottom q.label
    rw [named] at chars
    have chars : name.toList = _ := Option.some.inj chars
    have free {c : Char} (digit : c.isDigit = false) (letter : c ∉ Threshold.bottomWord) :
        c ∉ q.label.toList := by
      intro mem
      rcases Threshold.mem_label mem with isDigit | mem
      · exact Decimal.ne_of_isDigit isDigit digit rfl
      · exact letter mem
    obtain ⟨_, dot, semicolon⟩ := word_free measure q.isBottom
    have dot' := free (c := '.') rfl (by decide)
    have semicolon' := free (c := ';') rfl (by decide)
    rw [chars]
    simp [dot, semicolon, dot', semicolon']

end Statistic
end Statistics

namespace Point

-- What comes before the tags: the name, and behind the last dot the statistic.
def stem (p : Point) : List Char :=
  safe p.series.name.toList ++ p.statistic.name?.elim [] fun name => '.' :: name.toList

theorem intercalate_cons_map {α β : Type} (separator : β) (xs : List β) (f : α → List β)
    (as : List α) : [separator].intercalate (xs :: as.map f) =
      xs ++ as.flatMap fun a => separator :: f a := by
  induction as generalizing xs
  case nil => simp
  case cons a as ih => rw [List.map_cons, List.intercalate_cons_cons, ih]; simp

theorem path_eq (root : String) (p : Point) : p.path root =
    root.toList ++ '.' :: (p.kind.plural.toList ++ '.' ::
      [';'].intercalate (p.stem :: p.series.tags.toList.map tagChars)) := by
  rw [path, intercalate_cons_map, stem]
  simp only [List.append_assoc, List.cons_append]

-- Only the level of a gauge has no name.
structure Fits (p : Point) : Prop where
  level    : p.statistic = .level ↔ p.kind = .gauge
  labelled : p.statistic.IsLabelled

variable {p q : Point}

theorem Fits.stem_free (h : p.Fits) : ';' ∉ p.stem := by
  rw [stem, List.mem_append, not_or]
  refine ⟨(not_mem_safe _).1, ?_⟩
  cases named : p.statistic.name?
  case none => simp
  case some name =>
    have := (Statistic.name_free h.labelled named).2
    simp [this]

theorem Fits.exists_name (h : p.Fits) (other : p.kind ≠ .gauge) :
    ∃ name, p.statistic.name? = some name ∧ '.' ∉ name.toList := by
  cases named : p.statistic.name?
  case none => exact absurd (h.level.mp (Statistic.name?_eq_none_iff.mp named)) other
  case some name => exact ⟨name, rfl, (Statistic.name_free h.labelled named).1⟩

theorem Fits.stem_eq_iff (hp : p.Fits) (hq : q.Fits) (kind : p.kind = q.kind) :
    p.stem = q.stem ↔ p.statistic = q.statistic ∧
      safe p.series.name.toList = safe q.series.name.toList := by
  constructor
  case mpr =>
    rintro ⟨statistic, name⟩
    rw [stem, stem, statistic, name]
  case mp =>
    intro same
    by_cases gauge : p.kind = .gauge
    case pos =>
      have level := hp.level.mpr gauge
      have level' := hq.level.mpr (kind ▸ gauge)
      simp only [stem, level, level', Statistic.name?, Option.elim_none, List.append_nil] at same
      exact ⟨level.trans level'.symm, same⟩
    case neg =>
      obtain ⟨name, named, free⟩ := hp.exists_name gauge
      obtain ⟨name', named', free'⟩ := hq.exists_name (kind ▸ gauge)
      simp only [stem, named, named', Option.elim_some] at same
      obtain ⟨names, statistics⟩ := Text.append_cons_inj_last free free' same
      refine ⟨Statistic.eq_of_name hp.labelled hq.labelled ?_, names⟩
      rw [named, named', String.toList_inj.mp statistics]

theorem plural_free (k : Kind) : '.' ∉ k.plural.toList := by
  cases k <;> decide

theorem eq_of_plural {k k' : Kind} (same : k.plural = k'.plural) : k = k' := by
  revert same
  cases k <;> cases k' <;> decide

theorem Fits.path_eq_iff (hp : p.Fits) (hq : q.Fits) (root : String) :
    p.path root = q.path root ↔ p.kind = q.kind ∧ p.statistic = q.statistic ∧
      safe p.series.name.toList = safe q.series.name.toList ∧
      p.series.tags.toList.map tagPair = q.series.tags.toList.map tagPair := by
  rw [path_eq, path_eq]
  constructor
  case mpr =>
    rintro ⟨kind, statistic, name, pairs⟩
    rw [kind, (hp.stem_eq_iff hq kind).mpr ⟨statistic, name⟩, map_tagChars_eq_iff.mpr pairs]
  case mp =>
    intro same
    have same := (List.cons.inj (List.append_cancel_left same)).2
    obtain ⟨kinds, rest⟩ := Text.append_cons_inj (plural_free _) (plural_free _) same
    have kind := eq_of_plural (String.toList_inj.mp kinds)
    have pieces {r : Point} (h : r.Fits) :
        ([';'].intercalate (r.stem :: r.series.tags.toList.map tagChars)).splitOn ';' =
          r.stem :: r.series.tags.toList.map tagChars := by
      refine List.splitOn_intercalate ';' ?_ (List.cons_ne_nil _ _)
      rw [List.forall_mem_cons]
      refine ⟨h.stem_free, fun piece mem => ?_⟩
      obtain ⟨tag, _, rfl⟩ := List.mem_map.mp mem
      exact not_mem_tagChars tag
    have same := congrArg (List.splitOn ';') rest
    rw [pieces hp, pieces hq] at same
    obtain ⟨stems, lists⟩ := List.cons.inj same
    obtain ⟨statistic, name⟩ := (hp.stem_eq_iff hq kind).mp stems
    exact ⟨kind, statistic, name, map_tagChars_eq_iff.mp lists⟩

end Point

section Points

variable {s : Summary} {p : Point}

theorem fits_of_mem_counterPoints {interval : Span} {k : Series} {c : CounterSummary}
    (mem : p ∈ counterPoints interval k c) : p.Fits := by
  simp only [counterPoints, List.mem_cons, List.not_mem_nil, or_false] at mem
  rcases mem with rfl | rfl | rfl <;> exact ⟨by simp, trivial⟩

theorem fits_of_mem_gaugePoints {k : Series} {x : Float} (mem : p ∈ gaugePoints k x) : p.Fits := by
  simp only [gaugePoints, List.mem_cons, List.not_mem_nil, or_false] at mem
  subst mem
  exact ⟨by simp, trivial⟩

theorem fits_of_mem_timerPoints {k : Series} {t : TimerSummary} (h : t.IsLabelled)
    (mem : p ∈ timerPoints k t) : p.Fits := by
  rw [timerPoints, List.mem_append, List.mem_flatMap] at mem
  rcases mem with mem | ⟨percentile, known, mem⟩
  · simp only [List.mem_cons, List.not_mem_nil, or_false] at mem
    rcases mem with rfl | rfl | rfl | rfl | rfl <;> exact ⟨by simp, trivial⟩
  · obtain ⟨q, threshold, label⟩ := h percentile known
    have labelled : ∃ q : Threshold,
        decide (percentile.threshold < 0.0) = q.isBottom ∧ percentile.label = q.label :=
      ⟨q, threshold ▸ rfl, label⟩
    simp only [percentilePoints, List.mem_cons, List.not_mem_nil, or_false] at mem
    rcases mem with rfl | rfl | rfl | rfl <;> exact ⟨by simp, labelled⟩

theorem fits_of_mem_setPoints {k : Series} {n : Nat} (mem : p ∈ setPoints k n) : p.Fits := by
  simp only [setPoints, List.mem_cons, List.not_mem_nil, or_false] at mem
  subst mem
  exact ⟨by simp, trivial⟩

theorem fits_of_mem_points (h : s.IsLabelled) (mem : p ∈ points s) : p.Fits := by
  simp only [points, List.mem_append, List.mem_flatMap] at mem
  rcases mem with ((⟨e, _, mem⟩ | ⟨e, _, mem⟩) | ⟨e, known, mem⟩) | ⟨e, _, mem⟩
  · exact fits_of_mem_counterPoints mem
  · exact fits_of_mem_gaugePoints mem
  · exact fits_of_mem_timerPoints (h e.1 e.2 known) mem
  · exact fits_of_mem_setPoints mem

-- What is told of one percentile.
def selections (p : Percentile) : List Statistic :=
  [.boundary, .count, .sum, .mean].map fun measure =>
    .selected measure (p.threshold < 0.0) p.label

theorem map_statistic_timerPoints (k : Series) (t : TimerSummary) :
    (timerPoints k t).map (·.statistic) =
      [.count, .sum, .min, .max, .mean] ++ t.percentiles.flatMap selections := by
  rw [timerPoints, List.map_append, List.map_flatMap]
  rfl

theorem label_of_mem_selections {percentile : Percentile} {statistic : Statistic}
    (mem : statistic ∈ selections percentile) :
    ∃ measure bottom, statistic = .selected measure bottom percentile.label := by
  obtain ⟨measure, _, rfl⟩ := List.mem_map.mp mem
  exact ⟨measure, _, rfl⟩

-- What is selected is told apart by its label, and by the side that it is taken from.
theorem nodup_statistics_iff {α : Type} {as : List α} (bottom : α → Bool) (label : α → String) :
    ([Statistic.count, .sum, .min, .max, .mean] ++ as.flatMap fun a =>
      [.boundary, .count, .sum, .mean].map (Statistic.selected · (bottom a) (label a))).Nodup ↔
    as.Pairwise fun a b => bottom a = bottom b → label a ≠ label b := by
  have within (a : α) :
      ([.boundary, .count, .sum, .mean].map (Statistic.selected · (bottom a) (label a))).Nodup := by
    refine List.Nodup.map (fun _ _ same => ?_) (by decide)
    cases same
    rfl
  rw [List.nodup_append', List.nodup_flatMap]
  constructor
  case mp =>
    rintro ⟨_, ⟨_, apart⟩, _⟩
    refine apart.imp fun disjoint sides labels => ?_
    refine disjoint (List.mem_map_of_mem (.head _)) ?_
    rw [sides, labels]
    exact List.mem_map_of_mem (.head _)
  case mpr =>
    intro different
    refine ⟨by decide, ⟨fun a _ => within a, different.imp fun apart s mem mem' => ?_⟩,
      fun s plain mem => ?_⟩
    · obtain ⟨_, _, rfl⟩ := List.mem_map.mp mem
      obtain ⟨_, _, same⟩ := List.mem_map.mp mem'
      injection same with _ sides labels
      exact apart sides.symm labels.symm
    · obtain ⟨a, _, mem⟩ := List.mem_flatMap.mp mem
      obtain ⟨_, _, rfl⟩ := List.mem_map.mp mem
      simp at plain

-- Different thresholds have different labels, and then no two statistics of a timer are the same.
theorem nodup_statistics {t : TimerSummary} (h : t.IsLabelled)
    (different : (t.percentiles.map (·.threshold)).Nodup) (k : Series) :
    ((timerPoints k t).map (·.statistic)).Nodup := by
  rw [map_statistic_timerPoints]
  refine (nodup_statistics_iff (fun p : Percentile => p.threshold < 0.0) Percentile.label).mpr ?_
  rw [List.Nodup, List.pairwise_map] at different
  refine different.imp_of_mem fun {a b} ha hb other _ labels => ?_
  obtain ⟨q, threshold, label⟩ := h a ha
  obtain ⟨q', threshold', label'⟩ := h b hb
  rw [threshold, threshold'] at other
  exact other (Threshold.value_eq_of_label (label.symm.trans (labels.trans label')))

end Points

end Graphite
end MetricCollector
