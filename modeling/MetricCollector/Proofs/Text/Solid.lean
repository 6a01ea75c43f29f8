import MetricCollector.Metric.Kind
import MetricCollector.Proofs.Decimal.Plain
import MetricCollector.Text.Blank

namespace MetricCollector

namespace Text

def IsSolid (cs : List Char) : Prop :=
  ∀ c ∈ cs, isBlank c = false

-- Whether all characters are printed ones of the ASCII range.
def areGraphic (cs : List Char) : Bool :=
  cs.all fun c => 0x21 ≤ c.toNat && c.toNat ≤ 0x7E

theorem isBlank_of_graphic {c : Char} (range : 0x21 ≤ c.toNat ∧ c.toNat ≤ 0x7E) :
    isBlank c = false := by
  simp only [isBlank, blankRanges, List.any_cons, List.any_nil, Bool.or_false, Bool.or_eq_false_iff,
    Bool.and_eq_false_iff, decide_eq_false_iff_not]
  omega

theorem isBlank_of_isDigit {c : Char} (digit : c.isDigit = true) : isBlank c = false := by
  simp only [Char.isDigit, Bool.and_eq_true, decide_eq_true_eq, ge_iff_le,
    UInt32.le_iff_toNat_le] at digit
  have low : 48 ≤ c.toNat := digit.1
  have high : c.toNat ≤ 57 := digit.2
  exact isBlank_of_graphic (by omega)

theorem isSolid_of_areGraphic {cs : List Char} (h : areGraphic cs = true) : IsSolid cs :=
  fun c mem => isBlank_of_graphic (by simpa using List.all_eq_true.mp h c mem)

namespace IsSolid

variable {xs ys cs : List Char} {c : Char}

theorem nil : IsSolid [] := List.forall_mem_nil _

theorem cons (first : isBlank c = false) (rest : IsSolid cs) : IsSolid (c :: cs) :=
  List.forall_mem_cons.mpr ⟨first, rest⟩

theorem append (hx : IsSolid xs) (hy : IsSolid ys) : IsSolid (xs ++ ys) := fun c mem =>
  (List.mem_append.mp mem).elim (hx c) (hy c)

theorem not_mem (h : IsSolid cs) (blank : isBlank c = true) : c ∉ cs := by
  intro mem
  rw [h c mem] at blank
  cases blank

end IsSolid

theorem isSolid_plural (kind : Kind) : IsSolid kind.plural.toList :=
  isSolid_of_areGraphic (by cases kind <;> decide)

section words

variable {word rest : String}

theorem words_of_isSolid (solid : IsSolid word.toList) (some : word ≠ "") : words word = [word] := by
  have chars : word.toList ≠ [] := by simpa using some
  rw [words, List.splitOnP_eq_singleton solid]
  simp [chars]

theorem words_append (solid : IsSolid word.toList) (some : word ≠ "") :
    words (word ++ " " ++ rest) = word :: words rest := by
  have chars : word.toList ≠ [] := by simpa using some
  have whole : (word ++ " " ++ rest).toList = word.toList ++ ' ' :: rest.toList := by simp
  rw [words, whole, List.splitOnP_append_cons_of_forall_mem solid ' ' (by decide)]
  simp [words, chars]

end words

section numbers

theorem isSolid_of_areDigits {cs : List Char} (digits : Decimal.AreDigits cs) : IsSolid cs :=
  fun c mem => isBlank_of_isDigit (digits c mem)

theorem isSolid_signChars (negative : Bool) : IsSolid (signChars negative) :=
  isSolid_of_areGraphic (by cases negative <;> decide)

theorem isSolid_of_written {v : ℚ} {cs : List Char} (h : Decimal.Written v cs) : IsSolid cs := by
  cases h
  case whole digits _ _ => exact isSolid_of_areDigits digits
  case point hw hf _ _ _ =>
    have point : IsSolid ['.'] := isSolid_of_areGraphic (by decide)
    exact (isSolid_of_areDigits hw).append (point.append (isSolid_of_areDigits hf))

theorem isSolid_plainChars (x : Float) : IsSolid (plainChars x) := by
  cases parts : Binary.parts x
  case nan =>
    rw [plainChars, parts]
    exact isSolid_of_areGraphic (by decide)
  case infinite negative =>
    rw [plainChars, parts]
    exact (isSolid_signChars negative).append (isSolid_of_areGraphic (by decide))
  case finite negative m q =>
    obtain ⟨_, written, _⟩ := Decimal.written_magnitudeChars m q
    rw [Decimal.plainChars_eq parts]
    exact (isSolid_signChars negative).append (isSolid_of_written written)

theorem plainChars_ne_nil (x : Float) : plainChars x ≠ [] := by
  cases parts : Binary.parts x
  case nan      => simp [plainChars, parts]
  case infinite => simp [plainChars, parts]
  case finite negative m q =>
    obtain ⟨_, written, _⟩ := Decimal.written_magnitudeChars m q
    obtain ⟨_, _, text, _⟩ := written.eq_cons
    simp [Decimal.plainChars_eq parts, text]

theorem toList_toString_int (z : Int) :
    (toString z).toList = signChars (z < 0) ++ Nat.toDigits 10 z.natAbs := by
  rw [Int.toString_eq_repr]
  cases z
  case ofNat n   => simp [Int.repr, signChars]
  case negSucc n => simp [Int.repr, signChars, Int.negSucc_lt_zero]

theorem isSolid_toString_int (z : Int) : IsSolid (toString z).toList := by
  rw [toList_toString_int]
  exact (isSolid_signChars _).append (isSolid_of_areDigits (Decimal.areDigits_toDigits _))

theorem toString_int_ne_nil (z : Int) : (toString z).toList ≠ [] := by
  rw [toList_toString_int]
  simp [Nat.toDigits_ne_nil]

end numbers
end Text
end MetricCollector
