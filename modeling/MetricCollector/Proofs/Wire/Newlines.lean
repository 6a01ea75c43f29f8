import MetricCollector.Proofs.Table.Legible
import MetricCollector.Proofs.Text.Solid
import MetricCollector.Proofs.Wire.Packets

namespace MetricCollector

variable {scope : Option String} {m : Metric}

namespace Record

variable {line : String}

-- The characters of a name are those of the line, of the namespace and the point in between.
theorem mem_of_mem_name (read : parse scope line = .ok m) {c : Char} (mem : c ∈ m.name.toList) :
    c ∈ line.toList ∨ c = '.' ∨ ∃ s ∈ scope, c ∈ s.toList := by
  cases (parse_eq_ok_iff scope line m).mp read
  case intro name text tag others layout ofName _ _ _ _ _ =>
    have inside : c ∈ name → c ∈ line.toList := fun mem =>
      layout.pieces.mem_of_mem (.head _) (List.mem_append_left _ mem)
    generalize named : m.name = qualified at ofName mem
    cases ofName
    case bare => exact .inl (inside (by simpa using mem))
    case within s _ =>
      simp only [String.toList_append, String.toList_ofList, List.mem_append] at mem
      rcases mem with (mem | mem) | mem
      · exact .inr (.inr ⟨s, rfl, mem⟩)
      · exact .inr (.inl (by simpa using mem))
      · exact .inl (inside mem)

theorem mem_of_mem_tag (read : parse scope line = .ok m) {tag : String} (tagged : tag ∈ m.tags.toList)
    {c : Char} (mem : c ∈ tag.toList) : c ∈ line.toList := by
  cases (parse_eq_ok_iff scope line m).mp read
  case intro layout _ _ _ _ _ ofTags =>
    cases (ofTags tag).mp tagged
    case intro list part parts last split member trimmed _ =>
      obtain ⟨component, other, after⟩ := List.mem_filterMap.mp (List.mem_of_getLast? last)
      have within : ∀ c ∈ list, c ∈ component := by
        cases component
        case nil => cases after
        case cons first component =>
          simp only [Text.after?, Option.ite_none_right_eq_some, Option.some.injEq] at after
          exact fun c mem => .tail _ (after.2 ▸ mem)
      cases trimmed
      case intro front back whole _ _ _ _ =>
        have inside : c ∈ part := by
          rw [whole]
          simp [mem]
        exact layout.pieces.mem_of_mem (.tail _ (.tail _ other))
          (within c (split.mem_of_mem member inside))

end Record

namespace Packet

variable {packet line : List UInt8}

theorem newline_not_mem_of_mem_lines (mem : line ∈ lines packet) : newline ∉ line := by
  obtain ⟨piece, split, stripped⟩ := List.mem_map.mp (List.mem_filter.mp mem).1
  have free := Text.not_mem_of_mem_splitOn piece split
  cases strips_iff.mpr stripped
  case returned => exact fun mem => free (List.mem_append_left _ mem)
  case bare     => exact free

-- The records of a packet are read from lines without line breaks.
theorem exists_line_of_mem_parse (mem : .ok m ∈ parse scope packet) :
    ∃ line : String, '\n' ∉ line.toList ∧ Record.parse scope line = .ok m := by
  obtain ⟨line, member, read⟩ := List.mem_map.mp mem
  unfold parseLine at read
  split at read
  case h_2 => cases read
  case h_1 text decoded =>
    refine ⟨text, fun broken => newline_not_mem_of_mem_lines member ?_, read⟩
    rw [← Text.Utf8.flatMap_of_decode? decoded]
    exact List.mem_flatMap.mpr ⟨_, broken, .head _⟩

end Packet

namespace Series

variable {s : Series}

-- Whether the text of the series stays in one line.
def IsUnbroken (s : Series) : Prop :=
  '\n' ∉ s.text.toList

theorem isUnbroken_of_not_mem (name : '\n' ∉ s.name.toList)
    (tags : ∀ tag ∈ s.tags.toList, '\n' ∉ tag.toList) : s.IsUnbroken := by
  rw [IsUnbroken, toList_text, List.mem_append, not_or]
  refine ⟨name, fun mem => ?_⟩
  unfold tagText at mem
  split at mem
  case h_1 => cases mem
  case h_2 =>
    have mem := (List.mem_cons.mp mem).resolve_left (by decide)
    rcases Text.mem_of_mem_intercalate mem with comma | ⟨_, member, mem⟩
    · exact absurd comma (by decide)
    · obtain ⟨tag, tagged, rfl⟩ := List.mem_map.mp member
      exact tags tag tagged mem

end Series

namespace Table

variable {log : List Event} {k : Series}

-- Everything that is observed comes from packets, and no namespace has a line break.
def IsFedByLines (log : List Event) : Prop :=
  ∀ m ∈ metrics log, ∃ scope packet,
    (∀ s ∈ scope, '\n' ∉ s.toList) ∧ .ok m ∈ Packet.parse scope packet

theorem isFedByLines_observe {scope : Option String} (ofScope : ∀ s ∈ scope, '\n' ∉ s.toList)
    (packet : List UInt8) (now : Instant) :
    IsFedByLines (((Packet.parse scope packet).filterMap Except.toOption).map (.observe · now)) :=
  fun _ mem => ⟨scope, packet, ofScope, mem_of_mem_metrics_observe mem⟩

theorem isUnbroken_of_mem_held (fed : IsFedByLines log) (h : k ∈ (after log).held) :
    k.IsUnbroken := by
  obtain ⟨m, mem, rfl⟩ := exists_metric_of_mem_held h
  obtain ⟨scope, packet, ofScope, parsed⟩ := fed m mem
  obtain ⟨line, free, read⟩ := Packet.exists_line_of_mem_parse parsed
  refine Series.isUnbroken_of_not_mem ?name fun tag mem broken => ?tags
  case name =>
    intro broken
    rcases Record.mem_of_mem_name read broken with mem | same | ⟨s, some, mem⟩
    · exact free mem
    · cases same
    · exact ofScope s some mem
  case tags => exact free (Record.mem_of_mem_tag read mem broken)

end Table
end MetricCollector
