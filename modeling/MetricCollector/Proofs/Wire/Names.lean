import MetricCollector.Proofs.Wire.Grammar
import MetricCollector.Wire.Packet

namespace MetricCollector

namespace Series

-- One of the names goes on with a hash where the other ends.
def Overlaps (s s' : Series) : Prop :=
  s.name.toList ++ ['#'] <+: s'.name.toList ∨ s'.name.toList ++ ['#'] <+: s.name.toList

instance (s s' : Series) : Decidable (s.Overlaps s') :=
  inferInstanceAs (Decidable (_ ∨ _))

-- No tag has a comma, so that the commas of the text are those in between.
def IsSeparated (s : Series) : Prop :=
  ∀ tag ∈ s.tags.toList, ',' ∉ tag.toList

-- What the text of a series has behind the name.
def tagText : List String → List Char
  | []   => []
  | tags => '#' :: [','].intercalate (tags.map String.toList)

variable {s s' : Series} {tags tags' : List String}

theorem toList_text (s : Series) : s.text.toList = s.name.toList ++ tagText s.tags.toList := by
  unfold text tagText
  cases s.tags.toList
  case nil  => simp
  case cons => simp [String.toList_intercalate]

theorem tagText_inj (free : ∀ tag ∈ tags, ',' ∉ tag.toList)
    (free' : ∀ tag ∈ tags', ',' ∉ tag.toList) (same : tagText tags = tagText tags') :
    tags = tags' := by
  cases tags <;> cases tags' <;> simp only [tagText] at same
  case nil.nil  => rfl
  case nil.cons => cases same
  case cons.nil => cases same
  case cons.cons =>
    have joined := congrArg (List.splitOn ',') (List.cons.inj same).2
    rw [List.splitOn_intercalate ',' (List.forall_mem_map.mpr free) (by simp),
      List.splitOn_intercalate ',' (List.forall_mem_map.mpr free') (by simp)] at joined
    exact List.map_injective_iff.mpr (fun _ _ => String.toList_injective) joined

-- Where the name of `s` ends, its text goes on with a hash or not at all.
theorem eq_or_hash_of_name_eq_append (separated : s.IsSeparated) (separated' : s'.IsSeparated)
    {more : List Char} (longer : s'.name.toList = s.name.toList ++ more)
    (rest : tagText s.tags.toList = more ++ tagText s'.tags.toList) :
    s = s' ∨ s.name.toList ++ ['#'] <+: s'.name.toList := by
  cases more
  case nil =>
    have name : s.name = s'.name := String.toList_injective (by simpa using longer.symm)
    have tags : s.tags = s'.tags := OrderedSet.ext (tagText_inj separated separated' rest)
    exact .inl (by cases s; cases s'; cases name; cases tags; rfl)
  case cons c more =>
    have hash : c = '#' := by
      cases tags : s.tags.toList <;> rw [tags] at rest
      case nil  => cases rest
      case cons => exact (List.cons.inj rest).1.symm
    exact .inr ⟨more, by rw [longer, hash, List.append_assoc, List.singleton_append]⟩

theorem eq_or_overlaps_of_text_eq (separated : s.IsSeparated) (separated' : s'.IsSeparated)
    (same : s.text = s'.text) : s = s' ∨ s.Overlaps s' := by
  have same := congrArg String.toList same
  rw [toList_text, toList_text, List.append_eq_append_iff] at same
  rcases same with ⟨more, longer, rest⟩ | ⟨more, longer, rest⟩
  case inl => exact (eq_or_hash_of_name_eq_append separated separated' longer rest).imp_right .inl
  case inr =>
    have := eq_or_hash_of_name_eq_append separated' separated longer rest
    exact this.imp Eq.symm .inr

end Series

variable {scope : Option String} {m : Metric}

theorem Record.isSeparated_of_parse {line : String} (read : parse scope line = .ok m) :
    m.series.IsSeparated := by
  intro tag mem comma
  cases (parse_eq_ok_iff scope line m).mp read
  case intro ofTags =>
    cases (ofTags tag).mp mem
    case intro split mem trimmed _ =>
      cases trimmed
      case intro whole _ _ _ _ =>
        refine split.free _ mem ?_
        rw [whole]
        simp [comma]

theorem Packet.exists_parse_eq_ok {packet : List UInt8} (mem : .ok m ∈ parse scope packet) :
    ∃ line, Record.parse scope line = .ok m := by
  obtain ⟨line, _, read⟩ := List.mem_map.mp mem
  unfold parseLine at read
  split at read
  case h_1 text _ => exact ⟨text, read⟩
  case h_2        => cases read

end MetricCollector
