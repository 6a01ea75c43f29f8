import MetricCollector.Percentile.Threshold
import MetricCollector.Proofs.Decimal.Plain

namespace MetricCollector

namespace Threshold

theorem isFinite_value (t : Threshold) : t.value.isFinite = true := by
  have valid := t.valid
  simp only [isThreshold, Bool.and_eq_true] at valid
  exact valid.1.1

theorem place_ne_zero (t : Threshold) : Binary.place t.value ≠ 0 := by
  have number := Binary.isNaN_eq_false t.isFinite_value
  have valid := t.valid
  simp only [isThreshold, Bool.and_eq_true] at valid
  intro zero
  have same := (Binary.beq_iff number (by decide : (0.0 : Float).isNaN = false)).mpr zero
  have different := valid.1.2
  rw [bne, same] at different
  cases different

-- The parts of a threshold. It is never zero, so that its sign tells which way it counts.
theorem exists_parts (t : Threshold) :
    ∃ m q, Binary.parts t.value = .finite t.isBottom m q := by
  obtain ⟨negative, m, q, parts⟩ := Binary.exists_parts t.isFinite_value
  have number := Binary.isNaN_eq_false t.isFinite_value
  have zero_number : (0.0 : Float).isNaN = false := by decide
  have zero_place : Binary.place 0.0 = 0 := by decide
  have nonzero := t.place_ne_zero
  have bottom : t.isBottom = true ↔ Binary.place t.value < 0 := by
    rw [isBottom, decide_eq_true_iff, Binary.lt_iff number zero_number, zero_place]
  rw [Binary.place_of_parts parts] at nonzero bottom
  have sign : t.isBottom = negative := by
    cases negative <;> simp at nonzero bottom <;> grind
  exact ⟨m, q, sign ▸ parts⟩

-- A character of a label in place of one of a number.
def underscored (c : Char) : Char :=
  if c = '.' then '_' else c

def bottomWord : List Char :=
  ['b', 'o', 't', 't', 'o', 'm', '_']

theorem toList_label (t : Threshold) : t.label.toList =
    (if t.isBottom then bottomWord else []) ++ (plainChars t.value.abs).map underscored := by
  rw [label, String.toList_append, String.toList_ofList]
  cases t.isBottom <;> rfl

theorem exists_written (t : Threshold) : ∃ v, Decimal.Written v (plainChars t.value.abs) := by
  obtain ⟨m, q, parts⟩ := t.exists_parts
  obtain ⟨v, written, _⟩ := Decimal.written_magnitudeChars m q
  exact ⟨v, Decimal.plainChars_eq (Binary.parts_abs parts) ▸ written⟩

theorem underscored_of_isDigit {c : Char} (digit : c.isDigit = true) : underscored c = c :=
  if_neg (Decimal.ne_of_isDigit digit rfl)

-- Digits, with an underscore between two of them at most.
inductive IsUnderscored : List Char → Prop
  | whole {digits : List Char} (all : Decimal.AreDigits digits) (nonempty : digits ≠ []) :
    IsUnderscored digits
  | parted {whole fraction : List Char} (hw : Decimal.AreDigits whole)
    (hf : Decimal.AreDigits fraction) (whole_nonempty : whole ≠ [])
    (fraction_nonempty : fraction ≠ []) : IsUnderscored (whole ++ '_' :: fraction)

theorem map_underscored_eq {digits : List Char} (h : Decimal.AreDigits digits) :
    digits.map underscored = digits :=
  (List.map_congr_left fun c mem => underscored_of_isDigit (h c mem)).trans (List.map_id _)

theorem isUnderscored_of_written {v : ℚ} {text : List Char} (h : Decimal.Written v text) :
    IsUnderscored (text.map underscored) := by
  cases h
  case whole digits nonempty _ =>
    rw [map_underscored_eq digits]
    exact .whole digits nonempty
  case point whole fraction hw hf nonempty nonempty' _ =>
    rw [List.map_append, List.map_cons, map_underscored_eq hw, map_underscored_eq hf]
    exact .parted hw hf nonempty nonempty'

theorem exists_isUnderscored (t : Threshold) : ∃ digits, IsUnderscored digits ∧
    t.label.toList = (if t.isBottom then bottomWord else []) ++ digits := by
  obtain ⟨_, written⟩ := t.exists_written
  exact ⟨_, isUnderscored_of_written written, t.toList_label⟩

theorem IsUnderscored.eq_cons {digits : List Char} (h : IsUnderscored digits) :
    ∃ c rest, digits = c :: rest ∧ c.isDigit = true := by
  cases h
  case whole all nonempty =>
    obtain ⟨c, rest, rfl⟩ := List.exists_cons_of_ne_nil nonempty
    exact ⟨c, rest, rfl, all c (.head _)⟩
  case parted fraction hw _ nonempty _ =>
    obtain ⟨c, rest, rfl⟩ := List.exists_cons_of_ne_nil nonempty
    exact ⟨c, rest ++ '_' :: fraction, rfl, hw c (.head _)⟩

-- No digit is a letter, so that the word is at the front only if it was put there.
theorem bottomWord_prefix_iff (t : Threshold) :
    bottomWord <+: t.label.toList ↔ t.isBottom = true := by
  obtain ⟨digits, shape, label⟩ := t.exists_isUnderscored
  obtain ⟨c, rest, rfl, digit⟩ := shape.eq_cons
  rw [label]
  cases t.isBottom
  case true => simp
  case false =>
    have other : c ≠ 'b' := Decimal.ne_of_isDigit digit rfl
    simp [bottomWord, other.symm]

-- Apart from the word, a label has nothing but digits and underscores in it.
theorem mem_label {t : Threshold} {c : Char} (mem : c ∈ t.label.toList) :
    c.isDigit = true ∨ c ∈ bottomWord := by
  rw [toList_label, List.mem_append] at mem
  rcases mem with mem | mem
  · split at mem
    · exact .inr mem
    · cases mem
  · obtain ⟨_, written⟩ := t.exists_written
    obtain ⟨d, source, rfl⟩ := List.mem_map.mp mem
    rcases written.isDigit_or_point d source with digit | rfl
    · exact .inl ((underscored_of_isDigit digit).symm ▸ digit)
    · exact .inr (by decide)

-- Underscores can be turned back into points, since there was none before.
theorem map_underscored_injective {v w : ℚ} {xs ys : List Char} (hx : Decimal.Written v xs)
    (hy : Decimal.Written w ys) (same : xs.map underscored = ys.map underscored) : xs = ys := by
  let pointed (c : Char) : Char := if c = '_' then '.' else c
  have back {u : ℚ} {text : List Char} (written : Decimal.Written u text) :
      (text.map underscored).map pointed = text := by
    rw [List.map_map]
    refine (List.map_congr_left fun c mem => ?_).trans (List.map_id text)
    rcases written.isDigit_or_point c mem with digit | rfl
    · rw [Function.comp_apply, underscored_of_isDigit digit]
      exact if_neg (Decimal.ne_of_isDigit digit rfl)
    · rfl
  rw [← back hx, same, back hy]

-- Both labels have the word for the highest samples, or neither has.
theorem isBottom_eq_of_label {t t' : Threshold} (same : t.label = t'.label) :
    t.isBottom = t'.isBottom := by
  rw [Bool.eq_iff_iff, ← t.bottomWord_prefix_iff, ← t'.bottomWord_prefix_iff, same]

-- Thresholds with the same label are the same.
theorem value_eq_of_label {t t' : Threshold} (same : t.label = t'.label) : t.value = t'.value := by
  have bottom := isBottom_eq_of_label same
  have chars : t.label.toList = t'.label.toList := congrArg String.toList same
  rw [toList_label, toList_label, bottom] at chars
  obtain ⟨_, written⟩ := t.exists_written
  obtain ⟨_, written'⟩ := t'.exists_written
  obtain ⟨m, q, parts⟩ := t.exists_parts
  obtain ⟨m', q', parts'⟩ := t'.exists_parts
  have magnitude := Binary.parts_abs parts
  have magnitude' := Binary.parts_abs parts'
  have abs : t.value.abs = t'.value.abs :=
    Decimal.plainChars_injective (Binary.isFinite_of_parts magnitude)
      (Binary.isFinite_of_parts magnitude')
      (map_underscored_injective written written' (List.append_cancel_left chars))
  rw [abs, magnitude'] at magnitude
  cases magnitude
  exact Binary.eq_of_parts (bottom ▸ parts) parts'

theorem label_eq_iff {s t : Threshold} : s.label = t.label ↔ (s.value == t.value) = true := by
  have number (q : Threshold) : q.value.isNaN = false := Binary.isNaN_eq_false q.isFinite_value
  rw [Binary.beq_iff (number s) (number t)]
  constructor
  case mp =>
    intro same
    rw [value_eq_of_label same]
  case mpr =>
    intro same
    have value := Binary.eq_of_place_eq s.place_ne_zero same
    cases s
    cases t
    cases value
    rfl

end Threshold
end MetricCollector
