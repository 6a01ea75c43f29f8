import MetricCollector.Decimal.Plain
import MetricCollector.Decimal.Reader
import MetricCollector.Proofs.Decimal.Shortest
import MetricCollector.Proofs.Text.Pieces

namespace MetricCollector.Decimal

theorem digitsValue_eq (cs : List Char) : digitsValue cs = Nat.ofDigitChars 10 cs 0 :=
  Nat.ofDigitChars_eq_foldl.symm

theorem digitsValue_toDigits (n : Nat) : digitsValue (Nat.toDigits 10 n) = n := by
  rw [digitsValue_eq, Nat.ofDigitChars_ten_toDigits]

theorem digitsValue_zeros_append (n : Nat) (cs : List Char) :
    digitsValue (zeros n ++ cs) = digitsValue cs := by
  rw [digitsValue_eq, digitsValue_eq, Nat.ofDigitChars_append, zeros,
    Nat.ofDigitChars_replicate_zero, Nat.mul_zero]

theorem digitsValue_append_zeros (n : Nat) (cs : List Char) :
    digitsValue (cs ++ zeros n) = digitsValue cs * 10 ^ n := by
  rw [digitsValue_eq, digitsValue_eq, Nat.ofDigitChars_append, zeros,
    Nat.ofDigitChars_replicate_zero, Nat.mul_comm]

-- Whether all characters are digits.
def AreDigits (cs : List Char) : Prop :=
  ∀ c ∈ cs, c.isDigit = true

theorem areDigits_toDigits (n : Nat) : AreDigits (Nat.toDigits 10 n) := fun _ mem =>
  Nat.isDigit_of_mem_toDigits (by decide) (by decide) mem

theorem areDigits_zeros (n : Nat) : AreDigits (zeros n) := fun _ mem =>
  List.eq_of_mem_replicate mem ▸ rfl

theorem AreDigits.append {xs ys : List Char} (hx : AreDigits xs) (hy : AreDigits ys) :
    AreDigits (xs ++ ys) := fun c mem =>
  (List.mem_append.mp mem).elim (hx c) (hy c)

section

variable {whole fraction : List Char}

theorem unsigned?_whole (digits : AreDigits whole) (nonempty : whole ≠ []) :
    unsigned? whole = some ⟨digitsValue whole, 0⟩ := by
  have all : whole.takeWhile Char.isDigit = whole := List.takeWhile_eq_self_iff.mpr digits
  have rest : whole.dropWhile Char.isDigit = [] := List.dropWhile_eq_nil_iff.mpr digits
  simp [unsigned?, all, rest, nonempty, scaleOf?]

theorem unsigned?_point (hw : AreDigits whole) (hf : AreDigits fraction) (nonempty : whole ≠ []) :
    unsigned? (whole ++ '.' :: fraction) =
      some ⟨digitsValue (whole ++ fraction), -fraction.length⟩ := by
  have stop : ¬Char.isDigit '.' = true := by decide
  have first : (whole ++ '.' :: fraction).takeWhile Char.isDigit = whole := by
    rw [List.takeWhile_append_of_pos hw, List.takeWhile_cons_of_neg stop, List.append_nil]
  have rest : (whole ++ '.' :: fraction).dropWhile Char.isDigit = '.' :: fraction := by
    rw [List.dropWhile_append_of_pos hw, List.dropWhile_cons_of_neg stop]
  have all : fraction.takeWhile Char.isDigit = fraction := List.takeWhile_eq_self_iff.mpr hf
  have none : fraction.dropWhile Char.isDigit = [] := List.dropWhile_eq_nil_iff.mpr hf
  simp [unsigned?, first, rest, all, none, nonempty, scaleOf?]

end

-- How a decimal is written: digits, or digits on both sides of a point.
inductive Written (v : ℚ) : List Char → Prop
  | whole {whole : List Char} (digits : AreDigits whole) (nonempty : whole ≠ [])
    (value : v = digitsValue whole) : Written v whole
  | point {whole fraction : List Char} (hw : AreDigits whole) (hf : AreDigits fraction)
    (whole_nonempty : whole ≠ []) (fraction_nonempty : fraction ≠ [])
    (value : v = digitsValue (whole ++ fraction) * 10 ^ (-fraction.length : ℤ)) :
    Written v (whole ++ '.' :: fraction)

theorem written_positional (d : Decimal) : Written d.value d.positional := by
  have digits := areDigits_toDigits d.digits
  have nonempty : Nat.toDigits 10 d.digits ≠ [] := Nat.toDigits_ne_nil
  rw [positional]
  split
  case isTrue above =>
    obtain ⟨n, hn⟩ := Int.eq_ofNat_of_zero_le above
    refine .whole (digits.append (areDigits_zeros _)) (by simp [nonempty]) ?_
    rw [digitsValue_append_zeros, digitsValue_toDigits, value, hn]
    simp
  case isFalse below =>
    generalize hp : (-d.exponent).toNat = places
    have exponent : d.exponent = -places := by omega
    split
    case isTrue inside =>
      refine .point (fun c mem => digits c (List.mem_of_mem_take mem))
        (fun c mem => digits c (List.mem_of_mem_drop mem)) ?_ ?_ ?_
      · simp [List.take_eq_nil_iff, nonempty]
        omega
      · simp [List.drop_eq_nil_iff]
        omega
      · have length : (Nat.toDigits 10 d.digits).length -
            ((Nat.toDigits 10 d.digits).length - places) = places := by omega
        rw [List.take_append_drop, digitsValue_toDigits, List.length_drop, length, value, exponent]
    case isFalse outside =>
      have zero : ['0'] = zeros 1 := rfl
      have length : places - (Nat.toDigits 10 d.digits).length +
          (Nat.toDigits 10 d.digits).length = places := by omega
      have written : Written d.value (['0'] ++ '.' ::
          (zeros (places - (Nat.toDigits 10 d.digits).length) ++ Nat.toDigits 10 d.digits)) := by
        refine .point (areDigits_zeros 1) ((areDigits_zeros _).append digits) (by simp)
          (by simp [nonempty]) ?_
        rw [zero, digitsValue_zeros_append, digitsValue_zeros_append, digitsValue_toDigits,
          List.length_append, zeros, List.length_replicate, length, value, exponent]
      exact written

theorem Written.isDigit_or_point {v : ℚ} {text : List Char} (h : Written v text) :
    ∀ c ∈ text, c.isDigit = true ∨ c = '.' := by
  intro c mem
  cases h
  case whole digits _ _ => exact .inl (digits c mem)
  case point hw hf _ _ _ =>
    rcases List.mem_append.mp mem with mem | mem
    · exact .inl (hw c mem)
    · rcases List.mem_cons.mp mem with rfl | mem
      · exact .inr rfl
      · exact .inl (hf c mem)

-- A written text is read as a decimal with the same value.
theorem Written.unsigned? {v : ℚ} {text : List Char} (h : Written v text) :
    ∃ d, unsigned? text = some d ∧ d.value = v := by
  cases h
  case whole digits nonempty value =>
    refine ⟨_, unsigned?_whole digits nonempty, ?_⟩
    simp [Decimal.value, value]
  case point hw hf nonempty _ value =>
    exact ⟨_, unsigned?_point hw hf nonempty, value.symm⟩

-- It begins with a digit, so that it is neither a sign nor one of the words for special numbers.
theorem Written.eq_cons {v : ℚ} {text : List Char} (h : Written v text) :
    ∃ c rest, text = c :: rest ∧ c.isDigit = true := by
  cases h
  case whole digits nonempty _ =>
    obtain ⟨c, rest, rfl⟩ := List.exists_cons_of_ne_nil nonempty
    exact ⟨c, rest, rfl, digits c (.head _)⟩
  case point whole fraction hw _ nonempty _ _ =>
    obtain ⟨c, rest, rfl⟩ := List.exists_cons_of_ne_nil nonempty
    exact ⟨c, rest ++ '.' :: fraction, rfl, hw c (.head _)⟩

theorem toLower_of_isDigit {c : Char} (digit : c.isDigit = true) : c.toLower = c := by
  have below : c.val ≤ '9'.val := by
    simp only [Char.isDigit, Bool.and_eq_true, decide_eq_true_eq] at digit
    exact digit.2
  refine dif_neg fun upper => ?_
  exact absurd (UInt32.le_trans upper.1 below) (by decide)

theorem ne_of_isDigit {c d : Char} (digit : c.isDigit = true) (other : d.isDigit = false) :
    c ≠ d := by
  rintro rfl
  rw [digit] at other
  cases other

theorem special?_eq_none {c : Char} (digit : c.isDigit = true) (negative : Bool)
    (rest : List Char) : special? negative (c :: rest) = none := by
  have first {d : Char} {ds : List Char} (other : d.isDigit = false)
      (same : String.ofList ((c :: rest).map Char.toLower) = String.ofList (d :: ds)) : False := by
    have same := String.ofList_injective same
    rw [List.map_cons, toLower_of_isDigit digit] at same
    exact ne_of_isDigit digit other (List.cons.inj same).1
  unfold special?
  split
  case h_1 same => exact (first (d := 'i') rfl same).elim
  case h_2 same => exact (first (d := 'i') rfl same).elim
  case h_3 same => exact (first (d := 'n') rfl same).elim
  case h_4 => rfl

theorem signed_signChars {c : Char} (digit : c.isDigit = true) (negative : Bool)
    (rest : List Char) : signed (signChars negative ++ c :: rest) = (negative, c :: rest) := by
  cases negative
  case true => rfl
  case false =>
    have minus : c ≠ '-' := ne_of_isDigit digit rfl
    have plus : c ≠ '+' := ne_of_isDigit digit rfl
    unfold signed
    split
    case h_1 same => exact absurd (List.cons.inj same).1 minus
    case h_2 same => exact absurd (List.cons.inj same).1 plus
    case h_3      => rfl
theorem readChars?_signChars {v : ℚ} {text : List Char} (h : Written v text) (negative : Bool) :
    ∃ d, d.value = v ∧ readChars? (signChars negative ++ text) = some (toFloat negative d) := by
  obtain ⟨d, read, value⟩ := h.unsigned?
  obtain ⟨c, rest, rfl, digit⟩ := h.eq_cons
  refine ⟨d, value, ?_⟩
  simp only [readChars?, signed_signChars digit, special?_eq_none digit, read, Option.map_some]

-- What is written in place of the magnitude of a finite number.
def magnitudeChars (m : Nat) (q : Int) : List Char :=
  if m = 0 then ['0'] else (shortest plainTie m q).positional

theorem plainChars_eq {x : Float} {negative : Bool} {m : Nat} {q : Int}
    (parts : Binary.parts x = .finite negative m q) :
    plainChars x = signChars negative ++ magnitudeChars m q := by
  rw [plainChars, parts, magnitudeChars]
  split <;> simp_all

theorem written_magnitudeChars (m : Nat) (q : Int) :
    ∃ v, Written v (magnitudeChars m q) ∧
      (if m = 0 then v = 0 else (Interval.around m q).Contains v) := by
  rw [magnitudeChars]
  split
  case isTrue  => exact ⟨0, .whole (areDigits_zeros 1) (by simp) rfl, rfl⟩
  case isFalse nonzero =>
    exact ⟨_, written_positional _, contains_shortest (Nat.pos_of_ne_zero nonzero)⟩

-- A finite number is read back from its text.
theorem readChars?_plainChars {x : Float} (finite : x.isFinite = true) :
    readChars? (plainChars x) = some x := by
  obtain ⟨negative, m, q, parts⟩ := Binary.exists_parts finite
  obtain ⟨v, written, near⟩ := written_magnitudeChars m q
  obtain ⟨d, value, read⟩ := readChars?_signChars written negative
  rw [plainChars_eq parts, read]
  split at near
  case isTrue zero =>
    subst zero
    have power : (10 : ℚ) ^ d.exponent ≠ 0 := by positivity
    have digits : (d.digits : ℚ) = 0 := (mul_eq_zero.mp (value.trans near)).resolve_right power
    rw [toFloat_zero parts (by exact_mod_cast digits)]
  case isFalse nonzero =>
    rw [toFloat_of_contains parts (Nat.pos_of_ne_zero nonzero) (value ▸ near)]

theorem plainChars_injective {x y : Float} (hx : x.isFinite = true) (hy : y.isFinite = true)
    (same : plainChars x = plainChars y) : x = y := by
  have read := readChars?_plainChars hx
  rw [same, readChars?_plainChars hy] at read
  exact (Option.some.inj read).symm

theorem plainText_inj {x y : Float} (hx : x.isFinite = true) (hy : y.isFinite = true) :
    plainText x = plainText y ↔ x = y :=
  ⟨fun same => plainChars_injective hx hy (String.ofList_injective same), congrArg plainText⟩

end MetricCollector.Decimal
