import MetricCollector.Proofs.Decimal.Nearest
import MetricCollector.Proofs.Text.Solid
import MetricCollector.Proofs.Time.Seconds

namespace MetricCollector.Span

open Decimal (AreDigits digitsValue)

-- A number of seconds as it is written: digits, and perhaps a point and up to nine digits more.
structure Numeral where
  whole    : List Char
  fraction : List Char := []
  whole_digits    : AreDigits whole
  whole_nonempty  : whole ≠ []
  fraction_digits : AreDigits fraction
  fraction_short  : fraction.length ≤ 9

namespace Numeral

variable (d : Numeral)

def chars : List Char :=
  if d.fraction = [] then d.whole else d.whole ++ '.' :: d.fraction

def seconds : ℚ :=
  digitsValue d.whole + digitsValue d.fraction / 10 ^ d.fraction.length

-- The same in nanoseconds, of which there are no fractions.
def nanoseconds : Nat :=
  digitsValue d.whole * 10 ^ 9 + digitsValue d.fraction * 10 ^ (9 - d.fraction.length)

theorem nanoseconds_eq : (d.nanoseconds : ℚ) = d.seconds * 10 ^ 9 := by
  obtain ⟨k, hk⟩ := Nat.exists_eq_add_of_le d.fraction_short
  have power : (10 : ℚ) ^ 9 = 10 ^ d.fraction.length * 10 ^ k := by rw [← pow_add, ← hk]
  have places : 9 - d.fraction.length = k := by omega
  have fraction : (digitsValue d.fraction / 10 ^ d.fraction.length * 10 ^ 9 : ℚ) =
      digitsValue d.fraction * 10 ^ k := by
    rw [power]
    field_simp
  rw [nanoseconds, seconds, places, add_mul, fraction]
  push_cast
  rfl

end Numeral

section digits

variable {c : Char} {ds : List Char} {n total : Nat}

theorem digitsValue_append (whole fraction : List Char) :
    digitsValue (whole ++ fraction) =
      digitsValue whole * 10 ^ fraction.length + digitsValue fraction := by
  simp only [Decimal.digitsValue_eq]
  rw [Nat.ofDigitChars_append, Nat.ofDigitChars_eq_ofDigitChars_zero, Nat.mul_comm]

theorem digitsValue_lt (digits : AreDigits ds) : digitsValue ds < 10 ^ ds.length := by
  induction ds
  case nil => simp [digitsValue]
  case cons c ds ih =>
    obtain ⟨first, rest⟩ := List.forall_mem_cons.mp digits
    have less := ih rest
    have digit : c.toNat - '0'.toNat ≤ 9 := by
      simp only [Char.isDigit, Bool.and_eq_true, decide_eq_true_eq, ge_iff_le,
        UInt32.le_iff_toNat_le] at first
      have high : c.toNat ≤ 57 := first.2
      have zero : '0'.toNat = 48 := rfl
      omega
    simp only [Decimal.digitsValue_eq] at less ⊢
    rw [Nat.ofDigitChars_cons, Nat.ofDigitChars_eq_ofDigitChars_zero, List.length_cons, pow_succ]
    nlinarith

theorem le_ofDigitChars : n ≤ Nat.ofDigitChars 10 ds n := by
  rw [Nat.ofDigitChars_eq_ofDigitChars_zero]
  have := Nat.le_mul_of_pos_left n (by positivity : 0 < 10 ^ ds.length)
  omega

theorem word?_eq (h : n < 2 ^ 64) : word? n = some n :=
  if_pos h

-- The digits of a number are taken one by one, and none of the numbers in between is greater.
theorem foldlM_whole (digits : AreDigits ds) (fits : Nat.ofDigitChars 10 ds n < 2 ^ 64) :
    ds.foldlM Reading.step (.whole total n) = some (.whole total (Nat.ofDigitChars 10 ds n)) := by
  induction ds generalizing n
  case nil => rfl
  case cons c ds ih =>
    obtain ⟨first, rest⟩ := List.forall_mem_cons.mp digits
    rw [Nat.ofDigitChars_cons] at fits ⊢
    have step : Reading.step (.whole total n) c =
        some (.whole total (10 * n + (c.toNat - '0'.toNat))) := by
      simp only [Reading.step, first, if_true, digitValue,
        word?_eq (le_ofDigitChars.trans_lt fits), Option.map_some]
    rw [List.foldlM_cons, step]
    exact ih rest fits

theorem foldlM_fraction {a b : Nat} (digits : AreDigits ds)
    (fits : Nat.ofDigitChars 10 ds a < 2 ^ 64) (fits' : b * 10 ^ ds.length < 2 ^ 64) :
    ds.foldlM Reading.step (.fraction total n ⟨a, b⟩) =
      some (.fraction total n ⟨Nat.ofDigitChars 10 ds a, b * 10 ^ ds.length⟩) := by
  induction ds generalizing a b
  case nil => simp [Nat.ofDigitChars]
  case cons c ds ih =>
    obtain ⟨first, rest⟩ := List.forall_mem_cons.mp digits
    rw [Nat.ofDigitChars_cons] at fits ⊢
    have power : b * 10 ^ (c :: ds).length = 10 * b * 10 ^ ds.length := by
      rw [List.length_cons, pow_succ]
      ring
    rw [power] at fits' ⊢
    have small : 10 * b < 2 ^ 64 :=
      (Nat.le_mul_of_pos_right _ (by positivity)).trans_lt fits'
    have step : Reading.step (.fraction total n ⟨a, b⟩) c =
        some (.fraction total n ⟨10 * a + (c.toNat - '0'.toNat), 10 * b⟩) := by
      simp only [Reading.step, first, if_true, digitValue,
        word?_eq (le_ofDigitChars.trans_lt fits), word?_eq small, Option.bind_eq_bind,
        Option.bind_some]
    rw [List.foldlM_cons, step]
    exact ih rest fits fits'

end digits

namespace Numeral

variable (d : Numeral)

theorem chars_eq_cons : ∃ c cs, d.chars = c :: cs ∧ c.isDigit = true := by
  obtain ⟨c, cs, first⟩ := List.exists_cons_of_ne_nil d.whole_nonempty
  have digit : c.isDigit = true := d.whole_digits c (first ▸ .head _)
  rw [chars, first]
  split
  case isTrue  => exact ⟨c, cs, rfl, digit⟩
  case isFalse => exact ⟨c, _, rfl, digit⟩

theorem written : Decimal.Written d.seconds d.chars := by
  rw [chars, seconds]
  split
  case isTrue none =>
    refine .whole d.whole_digits d.whole_nonempty ?_
    simp [none, digitsValue]
  case isFalse some =>
    refine .point d.whole_digits d.fraction_digits d.whole_nonempty some ?_
    rw [digitsValue_append, zpow_neg, zpow_natCast]
    push_cast
    field_simp

variable {d} (short : digitsValue d.whole < 2 ^ 22)

include short

-- The reader has come to the unit.
theorem foldlM_chars : ∃ f : Option Fraction,
    (d.chars ++ ['s']).foldlM Reading.step (.between 0 false) =
      some (.unit 0 (digitsValue d.whole) f ['s']) ∧
    (f = none ∧ digitsValue d.fraction = 0 ∨
      f = some ⟨digitsValue d.fraction, 10 ^ d.fraction.length⟩) := by
  obtain ⟨c, cs, first⟩ := List.exists_cons_of_ne_nil d.whole_nonempty
  have digits : AreDigits (c :: cs) := first ▸ d.whole_digits
  obtain ⟨digit, rest⟩ := List.forall_mem_cons.mp digits
  have value : digitsValue d.whole = Nat.ofDigitChars 10 cs (c.toNat - '0'.toNat) := by
    rw [first, Decimal.digitsValue_eq, Nat.ofDigitChars_cons, Nat.mul_zero, Nat.zero_add]
  have whole : d.whole.foldlM Reading.step (.between 0 false) =
      some (.whole 0 (digitsValue d.whole)) := by
    have step : Reading.step (.between 0 false) c = some (.whole 0 (c.toNat - '0'.toNat)) := by
      simp only [Reading.step, digit, if_true, digitValue]
    rw [value] at short ⊢
    rw [first, List.foldlM_cons, step]
    exact foldlM_whole rest (by omega)
  by_cases none : d.fraction = []
  case pos =>
    refine ⟨.none, ?_, .inl ⟨rfl, by simp [none, digitsValue]⟩⟩
    rw [chars, if_pos none, List.foldlM_append, whole]
    rfl
  case neg =>
    have less := digitsValue_lt d.fraction_digits
    have nine : 10 ^ d.fraction.length ≤ 10 ^ 9 :=
      Nat.pow_le_pow_right (by decide) d.fraction_short
    have fraction := @foldlM_fraction d.fraction (digitsValue d.whole) 0 0 1 d.fraction_digits
      (by rw [← Decimal.digitsValue_eq]; omega) (by omega)
    rw [← Decimal.digitsValue_eq, one_mul] at fraction
    have solid : Text.isBlank 's' = false := by decide
    refine ⟨_, ?_, .inr rfl⟩
    rw [chars, if_neg none, List.append_assoc, List.foldlM_append, whole]
    show (d.fraction ++ ['s']).foldlM Reading.step
      (.fraction 0 (digitsValue d.whole) ⟨0, 1⟩) = _
    rw [List.foldlM_append, fraction]
    show Reading.step _ 's' >>= _ = _
    simp [Reading.step, isUnitLetter, solid, none]

end Numeral

section amounts

variable {n m : Nat}

theorem secondsLimit_eq : secondsLimit = 2 ^ 64 := rfl

theorem nanosPerSecond_eq : nanosPerSecond = 10 ^ 9 := rfl

theorem addParts_eq {total seconds nanos : Nat}
    (rest : total % nanosPerSecond + nanos < 2 ^ 64)
    (limit : total + seconds * nanosPerSecond + nanos < secondsLimit * nanosPerSecond) :
    addParts total seconds nanos = some (total + seconds * nanosPerSecond + nanos) := by
  simp only [addParts, word?_eq rest, Option.bind_eq_bind, Option.bind_some, if_pos limit]

theorem addAmount_seconds (short : n < 2 ^ 22) :
    addAmount 0 n nanosPerSecond = some (n * nanosPerSecond) := by
  have pos : 0 < nanosPerSecond := by decide
  have limit : n * nanosPerSecond < secondsLimit * nanosPerSecond :=
    Nat.mul_lt_mul_of_pos_right (by rw [secondsLimit_eq]; omega) pos
  have added := @addParts_eq 0 n 0 (by rw [Nat.zero_mod]; omega)
    (by rwa [Nat.zero_add, Nat.add_zero])
  rw [addAmount, if_pos le_rfl, Nat.div_self pos, Nat.mul_one, word?_eq (by omega),
    Option.bind_some, added, Nat.zero_add, Nat.add_zero]

theorem addAmount_nanos (short : n < 2 ^ 22) (small : m ≤ 10 ^ 9) :
    addAmount (n * nanosPerSecond) m 1 = some (n * nanosPerSecond + m) := by
  have limit : n * nanosPerSecond + m < secondsLimit * nanosPerSecond := by
    rw [secondsLimit_eq, nanosPerSecond_eq]
    omega
  have added := @addParts_eq (n * nanosPerSecond) 0 m
    (by rw [Nat.mul_mod_left]; omega) (by rwa [Nat.zero_mul, Nat.add_zero])
  rw [addAmount, if_neg (by decide), Nat.mul_one, word?_eq (by omega), Option.bind_some, added,
    Nat.zero_mul, Nat.add_zero]

-- The product with the unit is divisible by the power of ten.
theorem addFraction_seconds {names : List String} {places : Nat} (short : n < 2 ^ 22)
    (small : m < 10 ^ places) (few : places ≤ 9) :
    addFraction (n * nanosPerSecond) (secondsUnit names 1 false) ⟨m, 10 ^ places⟩ =
      some (n * nanosPerSecond + m * 10 ^ (9 - places)) := by
  obtain ⟨k, hk⟩ := Nat.exists_eq_add_of_le few
  have rest : 9 - places = k := by omega
  have unit : nanosPerSecond = 10 ^ k * 10 ^ places := by
    rw [← pow_add, Nat.add_comm, ← hk]
    rfl
  have product : m * nanosPerSecond = m * 10 ^ k * 10 ^ places := by
    rw [unit, Nat.mul_assoc]
  have nanos : m * 10 ^ k ≤ 10 ^ 9 := calc
    m * 10 ^ k ≤ 10 ^ places * 10 ^ k := Nat.mul_le_mul_right _ small.le
    _ = 10 ^ 9 := by rw [← pow_add, ← hk]
  have fits : m * 10 ^ k * 10 ^ places < 2 ^ 64 := calc
    m * 10 ^ k * 10 ^ places ≤ 10 ^ 9 * 10 ^ 9 :=
      Nat.mul_le_mul nanos (Nat.pow_le_pow_right (by decide) few)
    _ < 2 ^ 64 := by norm_num
  have apart : (1 : Nat) * nanosPerSecond ≠ 1 := by decide
  have word : word? (m * (1 * nanosPerSecond / 1)) = some (m * 10 ^ k * 10 ^ places) := by
    rw [Nat.one_mul, Nat.div_one, product, word?_eq fits]
  rw [rest]
  simp only [addFraction, secondsUnit, apart, if_false, Bool.false_eq_true, word,
    Option.bind_eq_bind, Option.bind_some, Nat.mul_mod_left, if_true,
    Nat.mul_div_cancel _ (Nat.pow_pos (by decide : 0 < 10))]
  exact addAmount_nanos short nanos

end amounts

namespace Numeral

variable {d : Numeral} (short : digitsValue d.whole < 2 ^ 22)

include short

-- Nothing is lost on the way to whole nanoseconds.
theorem amounts?_chars : amounts? (d.chars ++ ['s']) = some ⟨d.nanoseconds⟩ := by
  obtain ⟨f, reached, fraction⟩ := foldlM_chars short
  have unit : TimeUnit.named? (String.ofList ['s'].reverse) =
      some (secondsUnit ["seconds", "second", "secs", "sec", "s"] 1 false) := by decide
  have size : (secondsUnit ["seconds", "second", "secs", "sec", "s"] 1 false).nanos =
      nanosPerSecond := rfl
  rw [amounts?, reached, Option.bind_some, Reading.finish, complete, unit]
  simp only [Option.bind_eq_bind, Option.bind_some]
  rw [size, addAmount_seconds short, Option.bind_some]
  rcases fraction with ⟨rfl, zero⟩ | rfl
  · simp only [Option.map_some, nanoseconds, zero, Nat.zero_mul, Nat.add_zero, nanosPerSecond_eq]
  · show (addFraction _ _ _).map _ = _
    rw [addFraction_seconds short (digitsValue_lt d.fraction_digits) d.fraction_short,
      Option.map_some, nanoseconds, nanosPerSecond_eq]

-- The sign is optional in front of amounts, and there is none behind `PT` that they could have.
theorem readTrimmed?_chars : readTrimmed? (d.chars ++ ['s']) = some ⟨d.nanoseconds⟩ ∧
    readTrimmed? ('+' :: (d.chars ++ ['s'])) = some ⟨d.nanoseconds⟩ := by
  have amount := amounts?_chars short
  obtain ⟨c, cs, first, digit⟩ := d.chars_eq_cons
  have minus : c ≠ '-' := Decimal.ne_of_isDigit digit rfl
  have plus : '+' ≠ c := (Decimal.ne_of_isDigit digit rfl).symm
  have mark : 'P' ≠ c := (Decimal.ne_of_isDigit digit rfl).symm
  rw [first, List.cons_append] at amount ⊢
  constructor
  · simp [readTrimmed?, minus, plus, mark, betweenMarks?, Text.after?, amount]
  · simp [readTrimmed?, betweenMarks?, Text.after?, amount]

end Numeral

section rounding

variable {d : Numeral}

theorem Numeral.seconds_nonneg (d : Numeral) : 0 ≤ d.seconds := by
  rw [seconds]
  positivity

theorem Numeral.seconds_le (short : digitsValue d.whole < 2 ^ 22) : d.seconds ≤ 2 ^ 22 := by
  have whole : (digitsValue d.whole : ℚ) + 1 ≤ 2 ^ 22 := by exact_mod_cast short
  have less : (digitsValue d.fraction : ℚ) ≤ 10 ^ d.fraction.length := by
    exact_mod_cast (digitsValue_lt d.fraction_digits).le
  have fraction : (digitsValue d.fraction : ℚ) / 10 ^ d.fraction.length ≤ 1 :=
    div_le_one_of_le₀ less (by positivity)
  rw [seconds]
  linarith

theorem ofSeconds?_of_neg {x : Float} (finite : x.isFinite = true) (neg : Binary.value x < 0) :
    ofSeconds? x = none := by
  obtain ⟨negative, m, q, parts⟩ := Binary.exists_parts finite
  rw [Binary.value_of_parts parts] at neg
  have signed : negative = true ∧ m ≠ 0 := by
    constructor
    · by_contra unsigned
      rw [if_neg unsigned] at neg
      have : (0 : ℚ) ≤ m * 2 ^ q := by positivity
      linarith
    · rintro rfl
      simp at neg
  simp only [ofSeconds?, parts, signed, ne_eq, not_false_eq_true, and_self, if_true]

-- The error of reading is less than half a nanosecond.
theorem Numeral.exists_readChars? (short : digitsValue d.whole < 2 ^ 22) (negative : Bool) :
    ∃ x : Float, Decimal.readChars? (signChars negative ++ d.chars) = some x ∧
      Binary.IsNearest x (Binary.withSign (Binary.signOf negative) d.seconds) ∧
      |Binary.value x - Binary.withSign (Binary.signOf negative) d.seconds| ≤ 2 ^ (-30 : ℤ) / 2 := by
  obtain ⟨read, value, reads⟩ := Decimal.readChars?_signChars d.written negative
  have small := Numeral.seconds_le short
  have nearest := Decimal.isNearest_toFloat negative (d := read)
    (by rw [value]; exact Binary.le_of_le_two_pow (small.trans (by norm_num)))
  rw [value] at nearest
  refine ⟨_, reads, nearest, nearest.abs_sub_le (i := -30) ?_ (by decide) (by decide)⟩
  rw [Binary.abs_withSign, abs_of_nonneg d.seconds_nonneg]
  exact small.trans (by norm_num)

theorem Numeral.readTrimmed?_marked (short : digitsValue d.whole < 2 ^ 22) :
    readTrimmed? ('P' :: 'T' :: (d.chars ++ ['S'])) = some ⟨d.nanoseconds⟩ := by
  obtain ⟨x, read, nearest, near⟩ := Numeral.exists_readChars? short false
  have nonneg : 0 ≤ Binary.value x := by
    rw [← Binary.value_zero]
    exact nearest.le_value (by decide +kernel) (by rw [Binary.value_zero]; exact d.seconds_nonneg)
  rw [Span.readTrimmed?_marked, show d.chars = signChars false ++ d.chars from rfl, read,
    Option.bind_some]
  refine ofSeconds?_of_near nearest.finite nonneg ?_ ?_
  · rw [d.nanoseconds_eq, ← sub_mul, abs_mul, abs_of_pos (by positivity : (0 : ℚ) < 10 ^ 9)]
    norm_num [Binary.withSign, Binary.signOf] at near ⊢
    linarith
  · have bound : (d.nanoseconds : ℚ) ≤ 2 ^ 22 * 10 ^ 9 := by
      rw [d.nanoseconds_eq]
      exact mul_le_mul_of_nonneg_right (Numeral.seconds_le short) (by positivity)
    have bound : d.nanoseconds ≤ 2 ^ 22 * 10 ^ 9 := by exact_mod_cast bound
    rw [secondsLimit_eq, nanosPerSecond_eq]
    omega

-- What is not zero is at least a nanosecond, which is not rounded to zero.
theorem Numeral.readTrimmed?_minus (short : digitsValue d.whole < 2 ^ 22)
    (pos : 0 < d.seconds) : readTrimmed? ('P' :: 'T' :: ('-' :: d.chars ++ ['S'])) = none := by
  obtain ⟨x, read, nearest, near⟩ := Numeral.exists_readChars? short true
  have some : 1 ≤ d.nanoseconds := by
    have : (0 : ℚ) < d.nanoseconds := by
      rw [d.nanoseconds_eq]
      positivity
    exact_mod_cast this
  have least : (1 : ℚ) ≤ d.seconds * 10 ^ 9 := by
    rw [← d.nanoseconds_eq]
    exact_mod_cast some
  have neg : Binary.value x < 0 := by
    have := (abs_le.mp near).2
    norm_num [Binary.withSign, Binary.signOf] at this least
    linarith
  rw [Span.readTrimmed?_marked, show '-' :: d.chars = signChars true ++ d.chars from rfl, read,
    Option.bind_some, ofSeconds?_of_neg nearest.finite neg]

end rounding

section texts

open Text (Trimmed isBlank)

-- The three ways to write a number of seconds.
inductive Numeral.Writes (d : Numeral) : List Char → Prop
  | marked : Writes d ('P' :: 'T' :: (d.chars ++ ['S']))
  | plain  : Writes d (d.chars ++ ['s'])
  | plus   : Writes d ('+' :: (d.chars ++ ['s']))

-- Texts of spans that would be negative.
inductive Numeral.Refused (d : Numeral) : List Char → Prop
  | minus (rest : List Char) : Refused d ('-' :: rest)
  | marked (pos : 0 < d.seconds) : Refused d ('P' :: 'T' :: ('-' :: d.chars ++ ['S']))

variable {d : Numeral} {front inner back : List Char} {text : String}

theorem Numeral.Writes.trimmed (h : d.Writes inner) (front_blank : ∀ c ∈ front, isBlank c = true)
    (back_blank : ∀ c ∈ back, isBlank c = true) : Trimmed (front ++ inner ++ back) inner := by
  obtain ⟨c, cs, first, digit⟩ := d.chars_eq_cons
  have solid := Text.isBlank_of_isDigit digit
  have marks : isBlank 'P' = false ∧ isBlank '+' = false ∧ isBlank 'S' = false ∧
      isBlank 's' = false := by decide
  refine .intro front back rfl front_blank back_blank ?_ ?_ <;> cases h <;>
    simp [first, solid, marks, List.getLast?_cons]

theorem Numeral.Writes.readTrimmed? (h : d.Writes inner) (short : digitsValue d.whole < 2 ^ 22) :
    readTrimmed? inner = some ⟨d.nanoseconds⟩ := by
  cases h
  case marked => exact Numeral.readTrimmed?_marked short
  case plain  => exact (Numeral.readTrimmed?_chars short).1
  case plus   => exact (Numeral.readTrimmed?_chars short).2

theorem Numeral.Refused.readTrimmed? (h : d.Refused inner)
    (short : digitsValue d.whole < 2 ^ 22) : readTrimmed? inner = none := by
  cases h
  case minus rest => rfl
  case marked pos => exact Numeral.readTrimmed?_minus short pos

theorem read_eq_error (trimmed : Trimmed text.toList inner) (refused : readTrimmed? inner = none) :
    read text = .error ⟨text⟩ := by
  rw [read, trimmed.trimChars_eq, refused]

-- All notations denote the number of seconds that is written, and blanks around them are of no
-- importance. What is negative is refused, with its blanks.
theorem notations_agree (short : digitsValue d.whole < 2 ^ 22) :
    (∃ s : Span, (s.nanoseconds : ℚ) = d.seconds * 10 ^ 9 ∧
      ∀ inner, d.Writes inner → ∀ front back : List Char, (∀ c ∈ front, isBlank c = true) →
        (∀ c ∈ back, isBlank c = true) → read (String.ofList (front ++ inner ++ back)) = .ok s) ∧
    ∀ text inner, Trimmed text.toList inner → d.Refused inner → read text = .error ⟨text⟩ := by
  refine ⟨⟨⟨d.nanoseconds⟩, d.nanoseconds_eq, ?_⟩, ?_⟩
  · intro inner writes front back front_blank back_blank
    rw [read_eq_ok_iff, String.toList_ofList,
      (writes.trimmed front_blank back_blank).trimChars_eq]
    exact writes.readTrimmed? short
  · intro text inner trimmed refused
    exact read_eq_error trimmed (refused.readTrimmed? short)

-- One and a half seconds.
theorem notations_agree_at_three_halves :
    ∃ s : Span, (s.nanoseconds : ℚ) = 3 / 2 * 10 ^ 9 ∧ read "PT1.5S" = .ok s ∧
      read " 1.5s\n" = .ok s ∧ read "+1.5s\t" = .ok s ∧ read "-1.5s" = .error ⟨"-1.5s"⟩ ∧
      read " PT-1.5S " = .error ⟨" PT-1.5S "⟩ := by
  let d : Numeral := ⟨['1'], ['5'], by simp [AreDigits], by simp, by simp [AreDigits], by simp⟩
  have seconds : d.seconds = 3 / 2 := by
    have one : digitsValue ['1'] = 1 := by decide
    have five : digitsValue ['5'] = 5 := by decide
    norm_num [Numeral.seconds, d, one, five]
  obtain ⟨⟨s, value, read⟩, refused⟩ := notations_agree (d := d) (by decide)
  have space : isBlank ' ' = true := by decide
  have tab : isBlank '\t' = true := by decide
  have newline : isBlank '\n' = true := by decide
  have minus : isBlank '-' = false := by decide
  have marks : isBlank 'P' = false ∧ isBlank 'S' = false ∧ isBlank 's' = false := by decide
  refine ⟨s, by rw [value, seconds],
    read _ .marked [] [] (by simp) (by simp),
    read _ .plain [' '] ['\n'] (by simp [space]) (by simp [newline]),
    read _ .plus [] ['\t'] (by simp) (by simp [tab]),
    refused _ _ ?_ (.minus ['1', '.', '5', 's']),
    refused _ _ ?_ (.marked (by rw [seconds]; norm_num))⟩
  · exact .intro [] [] rfl (by simp) (by simp) (by simp [minus]) (by simp [marks])
  · exact .intro [' '] [' '] rfl (by simp [space]) (by simp [space]) (by simp [marks])
      (by simp [List.getLast?_cons, marks])

end texts
end MetricCollector.Span
