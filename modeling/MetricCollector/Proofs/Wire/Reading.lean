import MetricCollector.Proofs.Outcome
import MetricCollector.Proofs.Table.Log
import MetricCollector.Wire.Packet

namespace MetricCollector

-- What the reader checks, which is more than the table asks for.
structure Metric.IsChecked (m : Metric) : Prop where
  value : m.value.isFinite = true
  rate  : isSampleRate m.sampleRate = true

theorem Metric.IsChecked.isSound {m : Metric} (h : m.IsChecked) : m.isSound = true := by
  simp [Metric.isSound, h.value, h.rate]

namespace Record

theorem isFinite_of_value {component : List Char} {x : Float} (h : value component = .ok x) :
    x.isFinite = true := by
  unfold value at h
  split at h
  case h_2 => cases h
  case h_1 =>
    split at h
    case isTrue finite => exact Except.ok.inj h ▸ finite
    case isFalse       => cases h

theorem isSampleRate_of_sampleRate {component : List Char} {x : Float}
    (h : sampleRate component = .ok x) : Metric.isSampleRate x = true := by
  unfold sampleRate at h
  split at h
  case h_2 => cases h
  case h_1 =>
    split at h
    case isTrue rate => exact Except.ok.inj h ▸ rate
    case isFalse     => cases h

theorem isChecked_addComponent {m m' : Metric} (h : m.IsChecked) {component : List Char}
    (added : addComponent m component = .ok m') : m'.IsChecked := by
  unfold addComponent at added
  split at added
  case h_1 text =>
    obtain ⟨x, read, result⟩ := exists_of_bind_eq_ok added
    exact Except.ok.inj result ▸ ⟨h.value, isSampleRate_of_sampleRate read⟩
  case h_2 => exact Except.ok.inj added ▸ ⟨h.value, h.rate⟩
  case h_3 => exact Except.ok.inj added ▸ h

theorem isChecked_addComponents {components : List (List Char)} {m m' : Metric} (h : m.IsChecked)
    (added : components.foldlM addComponent m = .ok m') : m'.IsChecked := by
  induction components generalizing m
  case nil => exact Except.ok.inj added ▸ h
  case cons component components ih =>
    rw [List.foldlM_cons] at added
    obtain ⟨_, first, rest⟩ := exists_of_bind_eq_ok added
    exact ih (isChecked_addComponent h first) rest

-- What a line consists of that is a record, and how its metric comes about.
inductive Holds (scope : Option String) (line : String) (m : Metric) : Prop
  | intro {head name text tag : List Char} {others : List (List Char)} {k : Kind} {x : Float}
    (components : line.toList.splitOn '|' = head :: tag :: others)
    (cut : Text.cutAt? ':' head = some (name, text)) (named : name ≠ []) (valued : text ≠ [])
    (ofKind : kind tag = .ok k) (ofValue : value text = .ok x)
    (result : others.foldlM addComponent
      { name := qualified scope (String.ofList name), kind := k, value := x } = .ok m)

theorem holds_of_parse {scope : Option String} {line : String} {m : Metric}
    (h : parse scope line = .ok m) : Holds scope line m := by
  unfold parse at h
  split at h
  case h_1 => cases h
  case h_2 head components split =>
    split at h
    case h_2 => cases h
    case h_1 name text cut =>
      by_cases named : name = []
      case pos => simp [named, bind, Except.bind] at h
      case neg =>
        by_cases valued : text = []
        case pos => simp [named, valued, bind, Except.bind] at h
        case neg =>
          simp only [named, valued, if_false] at h
          cases components
          case nil => cases h
          case cons tag others =>
            obtain ⟨k, ofKind, h⟩ := exists_of_bind_eq_ok h
            obtain ⟨x, ofValue, result⟩ := exists_of_bind_eq_ok h
            exact .intro split cut named valued ofKind ofValue result

theorem isChecked_parse {scope : Option String} {line : String} {m : Metric}
    (h : parse scope line = .ok m) : m.IsChecked := by
  cases holds_of_parse h
  case intro ofKind ofValue result =>
    have whole : Metric.isSampleRate 1.0 = true := by decide
    refine isChecked_addComponents ?_ result
    exact ⟨isFinite_of_value ofValue, whole⟩

end Record

namespace Packet

theorem isSound_parseLine {scope : Option String} {line : List UInt8} {m : Metric}
    (h : parseLine scope line = .ok m) : m.isSound = true := by
  unfold parseLine at h
  split at h
  case h_1 => exact (Record.isChecked_parse h).isSound
  case h_2 => cases h

theorem isSound_of_mem_parse {scope : Option String} {packet : List UInt8} {m : Metric}
    (mem : .ok m ∈ parse scope packet) : m.isSound = true := by
  obtain ⟨line, _, read⟩ := List.mem_map.mp mem
  exact isSound_parseLine read

theorem withoutReturn_eq_nil_iff {line : List UInt8} :
    withoutReturn line = [] ↔ line = [] ∨ line = [carriageReturn] := by
  unfold withoutReturn Text.before?
  split
  case isTrue ends =>
    obtain ⟨start, rfl⟩ := List.getLast?_eq_some_iff.mp (eq_of_beq ends)
    simp
  case isFalse other =>
    have : line ≠ [carriageReturn] := fun h => other (h ▸ rfl)
    simp [this]

-- There is a record for each piece between newlines, except for those with nothing or nothing but a
-- carriage return in them.
theorem length_parse (scope : Option String) (packet : List UInt8) :
    (parse scope packet).length =
      (packet.splitOn newline).countP fun piece => piece ≠ [] ∧ piece ≠ [carriageReturn] := by
  rw [parse, List.length_map, lines, ← List.countP_eq_length_filter, List.countP_map]
  refine List.countP_congr fun piece _ => ?_
  simp [withoutReturn_eq_nil_iff]

end Packet
end MetricCollector
