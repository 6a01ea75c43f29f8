import Mathlib.Data.List.Forall2
import MetricCollector.Proofs.Text.Pieces
import MetricCollector.Proofs.Text.Utf8
import MetricCollector.Proofs.Wire.Reading

namespace MetricCollector.Packet

variable {scope : Option String} {packet p line piece : List UInt8}

-- What stands between two newlines, and the line in it.
inductive Strips : List UInt8 → List UInt8 → Prop
  | returned (line : List UInt8) : Strips (line ++ [carriageReturn]) line
  | bare {line : List UInt8} (other : line.getLast? ≠ some carriageReturn) : Strips line line

-- What is read from a line: the record of its text, if it is one.
structure Yields (scope : Option String) (line : List UInt8) (result : Except RecordError Metric) :
    Prop where
  text  : ∀ text : String, text.toUTF8 = line.toByteArray → result = Record.parse scope text
  other : ¬line.toByteArray.IsValidUTF8 →
    result = .error (.malformed (Text.Utf8.decodeLossy line))

section lines

theorem strips_iff : Strips piece line ↔ withoutReturn piece = line := by
  constructor
  case mp =>
    intro strips
    cases strips
    case returned => simp [withoutReturn, Text.before?]
    case bare other => simp [withoutReturn, Text.before?, other]
  case mpr =>
    rintro rfl
    unfold withoutReturn Text.before?
    split
    case isTrue ends =>
      obtain ⟨line, rfl⟩ := List.getLast?_eq_some_iff.mp (eq_of_beq ends)
      rw [Option.getD_some, List.dropLast_concat]
      exact .returned line
    case isFalse other => exact .bare fun ends => other (beq_iff_eq.mpr ends)

theorem withoutReturn_append (line : List UInt8) :
    withoutReturn (line ++ [carriageReturn]) = line :=
  strips_iff.mp (.returned line)

theorem withoutReturn_eq_self (free : carriageReturn ∉ line) : withoutReturn line = line :=
  strips_iff.mp (.bare fun ends => free (List.mem_of_getLast? ends))

theorem yields_parseLine (scope : Option String) (line : List UInt8) :
    Yields scope line (parseLine scope line) where
  text text bytes := by
    rw [parseLine, Text.Utf8.decode?_eq_some_iff.mpr bytes]
  other invalid := by
    rw [parseLine, Text.Utf8.decode?_eq_none_iff.mpr invalid]

theorem lines_of_not_mem (free : newline ∉ packet) :
    lines packet = [withoutReturn packet].filter (· ≠ []) := by
  have whole : Text.Pieces newline packet [packet] := ⟨by simp, by simp, by simpa using free⟩
  rw [lines, whole.splitOn_eq, List.map_singleton]

end lines

section joining

variable (scope)

theorem parse_append (p q : List UInt8) :
    parse scope (p ++ newline :: q) = parse scope p ++ parse scope q := by
  simp only [parse, lines, List.splitOn_append_cons_self, List.map_append, List.filter_append]

-- Any number of packets, one behind the other.
theorem parse_intercalate (packets : List (List UInt8)) :
    parse scope ([newline].intercalate packets) = packets.flatMap (parse scope) := by
  induction packets
  case nil => rfl
  case cons p packets ih =>
    cases packets
    case nil => simp
    case cons q packets =>
      rw [List.intercalate_cons_cons, List.append_assoc, List.singleton_append, parse_append, ih]
      rfl

-- The packet with its lines ended in the other way.
def withReturns (packet : List UInt8) : List UInt8 :=
  packet.flatMap fun b => if b = newline then [carriageReturn, newline] else [b]

theorem withReturns_append (p q : List UInt8) :
    withReturns (p ++ newline :: q) =
      withReturns p ++ carriageReturn :: newline :: withReturns q := by
  simp [withReturns]

theorem withReturns_eq_self (free : newline ∉ packet) : withReturns packet = packet := by
  have other : ∀ b ∈ packet, (if b = newline then [carriageReturn, newline] else [b]) = [b] :=
    fun b mem => if_neg (ne_of_mem_of_not_mem mem free)
  rw [withReturns, List.flatMap_congr other, List.flatMap_singleton']

theorem parse_returned (ended : newline ∉ p) (free : carriageReturn ∉ p) :
    parse scope (p ++ [carriageReturn]) = parse scope p := by
  have different : newline ≠ carriageReturn := by decide
  have ended' : newline ∉ p ++ [carriageReturn] := by simp [ended, different]
  rw [parse, parse, lines_of_not_mem ended, lines_of_not_mem ended', withoutReturn_append,
    withoutReturn_eq_self free]

theorem parse_withReturns (free : carriageReturn ∉ packet) :
    parse scope (withReturns packet) = parse scope packet := by
  induction size : packet.length using Nat.strongRecOn generalizing packet
  case ind n ih =>
    by_cases mem : newline ∈ packet
    case neg => rw [withReturns_eq_self mem]
    case pos =>
      obtain ⟨p, q, rfl, ended⟩ := List.eq_append_cons_of_mem mem
      simp only [List.mem_append, List.mem_cons, not_or] at free
      have shorter : q.length < n := by
        rw [← size, List.length_append, List.length_cons]
        omega
      rw [withReturns_append, withReturns_eq_self ended, List.append_cons, parse_append,
        parse_append, parse_returned scope ended free.1, ih q.length shorter free.2.2 rfl]

end joining

-- Every line is read on its own, whatever bytes it or the others have, and there is a result for
-- each that is not empty. How lines are ended makes no difference.
theorem lines_are_read_alone (scope : Option String) :
    (∀ p q, parse scope (p ++ newline :: q) = parse scope p ++ parse scope q) ∧
    (∀ packet, ∃ pieces lines, Text.Pieces newline packet pieces ∧
      List.Forall₂ Strips pieces lines ∧
      (parse scope packet).length = lines.countP (· ≠ []) ∧
      List.Forall₂ (Yields scope) (lines.filter (· ≠ [])) (parse scope packet)) ∧
    ∀ packet, carriageReturn ∉ packet →
      parse scope (withReturns packet) = parse scope packet := by
  refine ⟨parse_append scope, fun packet => ?_, fun _ => parse_withReturns scope⟩
  refine ⟨_, (packet.splitOn newline).map withoutReturn, Text.pieces_splitOn newline packet,
    ?strips, ?number, ?yields⟩
  case strips =>
    rw [List.forall₂_map_right_iff, List.forall₂_same]
    exact fun piece _ => strips_iff.mpr rfl
  case number => rw [parse, List.length_map, lines, List.countP_eq_length_filter]
  case yields =>
    rw [parse, List.forall₂_map_right_iff]
    exact List.forall₂_same.mpr fun line _ => yields_parseLine scope line

-- Two records with bytes between them that are no text.
theorem lines_are_read_alone_with_returns :
    let packet : List UInt8 := [97, 58, 49, 124, 99, 10, 255, 10, 98, 58, 50, 124, 103]
    carriageReturn ∉ packet ∧ parse none (withReturns packet) = parse none packet := by
  intro packet
  have free : carriageReturn ∉ packet := by decide
  exact ⟨free, (lines_are_read_alone none).2.2 packet free⟩

end MetricCollector.Packet
