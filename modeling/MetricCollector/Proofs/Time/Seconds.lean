import MetricCollector.Proofs.Binary.Arithmetic
import MetricCollector.Proofs.Decimal.Plain
import MetricCollector.Time.SpanReader

namespace MetricCollector.Span

open Binary

-- Whether a span is what its number of seconds is read as.
def IsKept (s : Span) : Prop :=
  ofSeconds? s.toSeconds = some s

instance (s : Span) : Decidable s.IsKept :=
  inferInstanceAs (Decidable (ofSeconds? s.toSeconds = some s))

section reading

-- Infinities and what is no number denote no span, and are not read as one either.
theorem readChars?_plainChars_bind (x : Float) :
    (Decimal.readChars? (plainChars x)).bind ofSeconds? = ofSeconds? x := by
  cases parts : Binary.parts x
  case finite negative m q =>
    rw [Decimal.readChars?_plainChars (isFinite_of_parts parts), Option.bind_some]
  case nan =>
    rw [plainChars, parts, ofSeconds?, parts]
    decide +kernel
  case infinite negative =>
    rw [plainChars, parts, ofSeconds?, parts]
    cases negative <;> decide +kernel

theorem secondsText_toList (s : Span) :
    s.secondsText.toList = 'P' :: 'T' :: (plainChars s.toSeconds ++ ['S']) := by
  simp [secondsText, plainText]

theorem trimChars_secondsText (s : Span) :
    Text.trimChars s.secondsText.toList = s.secondsText.toList := by
  refine Text.Trimmed.trimChars_eq (.intro [] [] (by simp) (by simp) (by simp) ?_ ?_)
  · rw [secondsText_toList]
    intro c mem
    obtain rfl : 'P' = c := by simpa using mem
    decide
  · have last : s.secondsText.toList.getLast? = some 'S' := by
      rw [secondsText_toList, ← List.cons_append, ← List.cons_append, List.getLast?_concat]
    rw [last]
    intro c mem
    obtain rfl : 'S' = c := by simpa using mem
    decide

theorem betweenMarks?_marked (inner : List Char) :
    betweenMarks? ('P' :: 'T' :: (inner ++ ['S'])) = some inner := by
  simp [betweenMarks?, Text.after?, Text.before?]

theorem readTrimmed?_marked (inner : List Char) :
    readTrimmed? ('P' :: 'T' :: (inner ++ ['S'])) =
      (Decimal.readChars? inner).bind ofSeconds? := by
  simp only [readTrimmed?, betweenMarks?_marked]
  rfl

theorem read_eq_ok_iff {text : String} {s : Span} :
    read text = .ok s ↔ readTrimmed? (Text.trimChars text.toList) = some s := by
  rw [read]
  cases readTrimmed? (Text.trimChars text.toList) <;> simp

theorem readTrimmed?_secondsText (s : Span) :
    readTrimmed? s.secondsText.toList = ofSeconds? s.toSeconds := by
  rw [secondsText_toList, readTrimmed?_marked]
  exact readChars?_plainChars_bind _

theorem read_secondsText_eq_ok_iff {s t : Span} :
    read s.secondsText = .ok t ↔ ofSeconds? s.toSeconds = some t := by
  rw [read_eq_ok_iff, trimChars_secondsText, readTrimmed?_secondsText]

end reading

section rounding

variable {x : Float} {s : Span} {n : Nat}

-- A number that is less than half a nanosecond away from a span is read as that span.
theorem ofSeconds?_of_near (finite : x.isFinite = true) (nonneg : 0 ≤ value x)
    (near : |value x * 10 ^ 9 - n| < 1 / 2) (limit : n < secondsLimit * nanosPerSecond) :
    ofSeconds? x = some ⟨n⟩ := by
  obtain ⟨negative, m, q, parts⟩ := exists_parts finite
  have ratio := value_eq_ratio parts nonneg
  have unsigned : ¬(negative = true ∧ m ≠ 0) := by
    rintro ⟨rfl, apart⟩
    have : (0 : ℚ) < m * 2 ^ q := by positivity
    rw [value_of_parts parts, if_pos rfl] at nonneg
    linarith
  have scale : (m * nanosPerSecond * twoTo q.toNat : ℕ) / (twoTo (-q).toNat : ℕ) =
      value x * 10 ^ 9 := by
    rw [ratio, nanosPerSecond]
    push_cast
    ring
  have rounded : roundQuotient .toEven (m * nanosPerSecond * twoTo q.toNat) (twoTo (-q).toNat) =
      n := by
    rw [← scale] at near
    exact roundQuotient_toEven_of_near (twoTo_pos _) near.le (.inr near)
  rw [ofSeconds?, parts]
  simp only [unsigned, if_false, rounded, limit, if_true]

theorem value_billion : value 1000000000.0 = 10 ^ 9 := by
  rw [value_of_parts (by decide +kernel :
    Binary.parts 1000000000.0 = .finite false (1953125 * 2 ^ 32) (-23))]
  norm_num

theorem subsecond_lt (s : Span) : s.subsecond < 10 ^ 9 :=
  Nat.mod_lt _ (by decide)

-- The part below a second is rounded on its own.
theorem isNearest_fraction (s : Span) :
    IsNearest (Float.ofNat s.subsecond / 1000000000.0) (s.subsecond / 10 ^ 9) := by
  have short := s.subsecond_lt
  obtain ⟨finite, exactly⟩ := value_ofNat (n := s.subsecond) (by omega)
  have small : (s.subsecond : ℚ) < 10 ^ 9 := by exact_mod_cast short
  rw [← exactly, ← value_billion]
  refine isNearest_div finite (by decide +kernel) (by rw [value_billion]; norm_num)
    (le_of_le_two_pow ?_)
  rw [exactly, value_billion, abs_of_nonneg (by positivity), div_le_iff₀ (by norm_num)]
  norm_num
  linarith

-- What is known of a fraction of a second after it was rounded.
structure IsFraction (x : Float) (r : ℚ) : Prop where
  finite : x.isFinite = true
  nonneg : 0 ≤ value x
  le_one : value x ≤ 1
  near   : |value x - r| ≤ 2 ^ (-54 : ℤ)

theorem isFraction (s : Span) :
    IsFraction (Float.ofNat s.subsecond / 1000000000.0) (s.subsecond / 10 ^ 9) := by
  have nearest := s.isNearest_fraction
  have small : (s.subsecond / 10 ^ 9 : ℚ) ≤ 1 := by
    rw [div_le_one (by norm_num)]
    exact_mod_cast s.subsecond_lt.le
  refine ⟨nearest.finite, ?_, ?_, ?_⟩
  · rw [← value_zero]
    exact nearest.le_value (by decide +kernel) (by rw [value_zero]; positivity)
  · rw [← value_one]
    exact nearest.value_le (by decide +kernel) (by rwa [value_one])
  · have := nearest.abs_sub_le (i := -53)
      (by rw [abs_of_nonneg (by positivity)]; norm_num at small ⊢; exact small)
      (by decide) (by decide)
    norm_num at this ⊢
    exact this

-- Below 2 ^ 23 seconds, the distance of two numbers is less than a nanosecond, and the rounding of
-- the part below a second hardly adds to the error.
theorem isKept_of_lt (short : s.seconds < 2 ^ 23) : s.IsKept := by
  have fraction := s.isFraction
  obtain ⟨finite, exactly⟩ := value_ofNat (n := s.seconds) (by omega)
  have whole : (s.seconds : ℚ) + 1 ≤ 2 ^ 23 := by exact_mod_cast short
  have above := fraction.nonneg
  have below := fraction.le_one
  have sum_nonneg : 0 ≤ (s.seconds : ℚ) + value (Float.ofNat s.subsecond / 1000000000.0) := by
    positivity
  have bound : |value (Float.ofNat s.seconds) +
      value (Float.ofNat s.subsecond / 1000000000.0)| ≤ 2 ^ 53 * 2 ^ (-30 : ℤ) := by
    rw [exactly, abs_of_nonneg sum_nonneg]
    norm_num
    linarith
  have nearest : IsNearest s.toSeconds _ := isNearest_add finite fraction.finite
    (le_of_le_two_pow (bound.trans (by norm_num)))
  have rounded := nearest.abs_sub_le bound (by decide) (by decide)
  rw [exactly] at rounded nearest
  have nonneg : 0 ≤ value s.toSeconds := by
    rw [← value_zero]
    exact nearest.le_value (by decide +kernel) (by rwa [value_zero])
  have parts : (s.nanoseconds : ℚ) = s.seconds * 10 ^ 9 + s.subsecond := by
    have := Nat.div_add_mod s.nanoseconds nanosPerSecond
    rw [seconds, subsecond, mul_comm]
    exact_mod_cast this.symm
  refine ofSeconds?_of_near nearest.finite nonneg ?_ ?_
  · have split : value s.toSeconds * 10 ^ 9 - s.nanoseconds =
        ((value s.toSeconds - (s.seconds + value (Float.ofNat s.subsecond / 1000000000.0))) +
          (value (Float.ofNat s.subsecond / 1000000000.0) - s.subsecond / 10 ^ 9)) * 10 ^ 9 := by
      rw [parts]
      ring
    have error := (abs_add_le _ _).trans (add_le_add rounded fraction.near)
    rw [split, abs_mul, abs_of_pos (by positivity : (0 : ℚ) < 10 ^ 9)]
    norm_num at error ⊢
    linarith
  · have := Nat.div_lt_iff_lt_mul (by decide : 0 < nanosPerSecond) |>.mp short
    exact this.trans (by decide)

-- From there on, single nanoseconds are lost.
example : ¬IsKept ⟨2 ^ 23 * nanosPerSecond + 1⟩ := by decide +kernel

end rounding

end MetricCollector.Span
