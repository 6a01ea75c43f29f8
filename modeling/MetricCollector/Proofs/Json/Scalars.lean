import MetricCollector.Json.Reader
import MetricCollector.Json.Writer
import MetricCollector.Proofs.Text.Digits

namespace MetricCollector.Json

section strings

-- What the reader makes of a character that was written into a string.
def pieceOf (c : Char) : Piece :=
  if (escapeLetter? c).isNone ∧ isControl c then .unit c.toNat else .char c

theorem escapedBy?_of_escapeLetter? {c letter : Char} (h : escapeLetter? c = some letter) :
    letter ≠ 'u' ∧ escapedBy? letter = some c := by
  unfold escapeLetter? at h
  split at h <;> cases h <;> decide

theorem unit?_control : ∀ n < 32,
    unit? '0' '0' (Nat.digitChar (n / 16)) (Nat.digitChar (n % 16)) = some n := by
  decide

variable {c : Char} {cs rest : List Char}

theorem pieces?_letter {letter : Char} (apart : letter ≠ 'u') :
    pieces? ('\\' :: letter :: cs) = (do
      let c ← escapedBy? letter
      let (ps, rest) ← pieces? cs
      some (.char c :: ps, rest)) := by
  rw [pieces?]
  intro a b c d rest same
  exact absurd same apart

theorem pieces?_char (quote : c ≠ '"') (backslash : c ≠ '\\') :
    pieces? (c :: cs) =
      if c.toNat < 0x20 then none
      else (pieces? cs).map fun (ps, rest) => (.char c :: ps, rest) := by
  rw [pieces?]
  all_goals simp_all

theorem pieces?_escaped (c : Char) (cs : List Char) :
    pieces? (escaped c ++ cs) = (pieces? cs).map fun (ps, rest) => (pieceOf c :: ps, rest) := by
  unfold escaped pieceOf
  cases letter : escapeLetter? c
  case some letter =>
    obtain ⟨apart, back⟩ := escapedBy?_of_escapeLetter? letter
    simp [pieces?_letter apart, back, Option.map_eq_bind]
  case none =>
    by_cases control : isControl c = true
    case pos =>
      have less : c.toNat < 32 := by simpa [isControl] using control
      simp [control, numbered, pieces?, unit?_control _ less, Option.map_eq_bind]
    case neg =>
      have quote : c ≠ '"' := by rintro rfl; cases letter
      have backslash : c ≠ '\\' := by rintro rfl; cases letter
      have more : ¬c.toNat < 32 := by simpa [isControl] using control
      simp [control, pieces?_char quote backslash, more]

theorem pieces?_flatMap_escaped (cs rest : List Char) :
    pieces? (cs.flatMap escaped ++ '"' :: rest) = some (cs.map pieceOf, rest) := by
  induction cs
  case nil => rw [List.flatMap_nil, List.nil_append, pieces?, List.map_nil]
  case cons c cs ih =>
    rw [List.flatMap_cons, List.append_assoc, pieces?_escaped, ih]
    rfl

-- A control character is no half of a pair.
theorem denoted?_unit {n : Nat} {ps : List Piece} (small : n < 32) :
    denoted? (.unit n :: ps) = (denoted? ps).map (Char.ofNat n :: ·) := by
  have high : isHighHalf n = false := by simp [isHighHalf]; omega
  have low : isLowHalf n = false := by simp [isLowHalf]; omega
  rcases ps with _ | ⟨_ | m, ps⟩ <;> simp [denoted?, high, low]

theorem denoted?_map_pieceOf (cs : List Char) : denoted? (cs.map pieceOf) = some cs := by
  induction cs
  case nil => rfl
  case cons c cs ih =>
    rw [List.map_cons, pieceOf]
    split
    case isTrue control =>
      have less : c.toNat < 32 := by simpa [isControl] using control.2
      rw [denoted?_unit less, ih, Option.map_some, Char.ofNat_toNat]
    case isFalse => rw [denoted?, ih, Option.map_some]

theorem string?_flatMap_escaped (s : String) (rest : List Char) :
    string? (s.toList.flatMap escaped ++ '"' :: rest) = some (some s, rest) := by
  simp only [string?, pieces?_flatMap_escaped, Option.map_some, denoted?_map_pieceOf,
    String.ofList_toList]

end strings

section numbers

open Decimal (AreDigits digitsValue)

-- What follows a value in a text: its end, or a mark that is no part of a number.
def Ends (rest : List Char) : Prop :=
  ∀ c ∈ rest.head?, c = ',' ∨ c = ']' ∨ c = '}'

theorem ends_nil : Ends [] := by
  intro c mem
  cases mem

theorem ends_cons {c : Char} (cs : List Char) (h : c = ',' ∨ c = ']' ∨ c = '}') :
    Ends (c :: cs) := by
  intro d mem
  obtain rfl : c = d := by simpa using mem
  exact h

theorem Ends.ne {rest : List Char} (h : Ends rest) {c : Char} (mem : c ∈ rest.head?) :
    c.isDigit = false ∧ c ≠ '.' ∧ c ≠ 'e' ∧ c ≠ 'E' := by
  rcases h c mem with rfl | rfl | rfl <;> decide

variable {ds rest : List Char}

theorem digits?_append (digits : AreDigits ds) (nonempty : ds ≠ [])
    (stop : ∀ c ∈ rest.head?, c.isDigit = false) : digits? (ds ++ rest) = some (ds, rest) := by
  rw [digits?, Text.takeWhile_append_eq digits stop, Text.dropWhile_append_eq digits stop]
  cases ds
  case nil  => exact absurd rfl nonempty
  case cons => rfl

-- The digits behind the point, with the point.
def fractionChars : List Char → List Char
  | [] => []
  | ds => '.' :: ds

theorem fraction?_append (digits : AreDigits ds)
    (stop : ∀ c ∈ rest.head?, c.isDigit = false ∧ c ≠ '.') :
    fraction? (fractionChars ds ++ rest) = some (ds, rest) := by
  unfold fractionChars
  split
  case h_1 =>
    rw [List.nil_append, fraction?]
    rintro cs rfl
    exact (stop '.' rfl).2 rfl
  case h_2 nonempty =>
    rw [List.cons_append, fraction?, digits?_append digits nonempty fun c mem => (stop c mem).1]

theorem signed_exponent (scale : Int) (cs : List Char) :
    Decimal.signed ((if scale < 0 then '-' else '+') :: cs) = (decide (scale < 0), cs) := by
  split
  case isTrue negative => simp [Decimal.signed, negative]
  case isFalse positive => simp [Decimal.signed, positive]

theorem exponent?_append (scale : Int) (ends : Ends rest) :
    exponent? (Numeral.exponentChars scale ++ rest) =
      some (if scale = 0 then none else some scale, rest) := by
  unfold Numeral.exponentChars
  split
  case isTrue zero =>
    cases rest
    case nil => rfl
    case cons c rest =>
      have ⟨_, _, small, large⟩ := ends.ne (c := c) rfl
      simp [exponent?, small, large]
  case isFalse apart =>
    have digits := digits?_append (Decimal.areDigits_toDigits scale.natAbs) Nat.toDigits_ne_nil
      fun c mem => (ends.ne mem).1
    rw [List.cons_append, List.cons_append, exponent?, if_pos (.inl rfl), signed_exponent]
    simp only [digits, Option.bind_eq_bind, Option.bind_some, Decimal.digitsValue_toDigits,
      decide_eq_true_eq]
    congr 3
    split <;> omega

-- How the digits of a number are divided by the point.
structure Pointed (n places : Nat) (front back : List Char) : Prop where
  written : Numeral.pointed n places = front ++ fractionChars back
  front_digits : AreDigits front
  back_digits : AreDigits back
  nonempty : front ≠ []
  -- Only zero starts with a zero.
  leading : front.head? = some '0' → front = ['0']
  length : back.length = places
  value : digitsValue (front ++ back) = n

theorem fractionChars_of_ne_nil {ds : List Char} (h : ds ≠ []) : fractionChars ds = '.' :: ds := by
  cases ds
  case nil  => exact absurd rfl h
  case cons => rfl

theorem pointed_whole (n : Nat) : Pointed n 0 (Nat.toDigits 10 n) [] where
  written := by simp [Numeral.pointed, fractionChars]
  front_digits := Decimal.areDigits_toDigits n
  back_digits _ mem := nomatch mem
  nonempty := Nat.toDigits_ne_nil
  leading := Text.toDigits_eq_of_head? (by decide) (by decide)
  length := rfl
  value := by rw [List.append_nil, Decimal.digitsValue_toDigits]

theorem pointed_fraction {n places : Nat} (some : places ≠ 0) :
    ∃ front back, Pointed n places front back := by
  generalize hp : Decimal.zeros (places + 1 - (Nat.toDigits 10 n).length) ++ Nat.toDigits 10 n =
    padded
  have digits : AreDigits padded :=
    hp ▸ (Decimal.areDigits_zeros _).append (Decimal.areDigits_toDigits n)
  have long : places + 1 ≤ padded.length := by
    rw [← hp, List.length_append, Decimal.zeros, List.length_replicate]
    omega
  have back : (padded.drop (padded.length - places)).length = places := by
    rw [List.length_drop]
    omega
  refine ⟨padded.take (padded.length - places), padded.drop (padded.length - places), ?_⟩
  refine ⟨?_, fun c mem => digits c (List.mem_of_mem_take mem),
    fun c mem => digits c (List.mem_of_mem_drop mem), ?_, ?_, back, ?_⟩
  · rw [Numeral.pointed, hp, fractionChars_of_ne_nil]
    · exact if_neg some
    · rw [← List.length_pos_iff_ne_nil, back]
      omega
  · rw [← List.length_pos_iff_ne_nil, List.length_take]
    omega
  · -- A zero in front is either the only digit there, or the number has no other digits.
    intro zero
    rcases Nat.lt_or_ge places (Nat.toDigits 10 n).length with enough | few
    · have same : padded = Nat.toDigits 10 n := by
        rw [← hp, Nat.sub_eq_zero_of_le enough]
        rfl
      rw [List.head?_take, if_neg (by omega), same] at zero
      have := Text.toDigits_eq_of_head? (by decide) (by decide) zero
      rw [this] at enough
      exact absurd enough (by simpa using some)
    · have one : padded.length - places = 1 := by
        rw [← hp, List.length_append, Decimal.zeros, List.length_replicate]
        omega
      rw [one] at zero ⊢
      cases padded
      case nil => cases zero
      case cons c cs =>
        obtain rfl : c = '0' := by simpa using zero
        rfl
  · rw [List.take_append_drop, ← hp, Decimal.digitsValue_zeros_append,
      Decimal.digitsValue_toDigits]

-- Whether the parts of a number tell that it is not written with digits alone.
def Numeral.IsPlain : Numeral → Prop
  | whole ..               => True
  | scaled _ _ places scale => places ≠ 0 ∨ scale ≠ 0

theorem Pointed.wholeDigits? {n places : Nat} {front back : List Char}
    (h : Pointed n places front back) (stop : ∀ c ∈ rest.head?, c.isDigit = false) :
    wholeDigits? (front ++ rest) = some (front, rest) := by
  rw [Json.wholeDigits?, digits?_append h.front_digits h.nonempty stop]
  simp only [Option.bind_eq_bind, Option.bind_some]
  exact if_neg fun both => both.2 (h.leading both.1)

theorem head?_fractionChars_append {c : Char} (mem : c ∈ (fractionChars ds ++ rest).head?) :
    c = '.' ∨ c ∈ rest.head? := by
  cases ds
  case nil  => exact .inr mem
  case cons => exact .inl (by simpa [fractionChars] using mem.symm)

theorem head?_exponentChars_append {c : Char} {scale : Int}
    (mem : c ∈ (Numeral.exponentChars scale ++ rest).head?) : c = 'e' ∨ c ∈ rest.head? := by
  rw [Numeral.exponentChars] at mem
  split at mem
  · exact .inr mem
  · exact .inl (by simpa using mem.symm)

theorem Pointed.magnitude? {n places : Nat} {front back : List Char}
    (h : Pointed n places front back) (negative : Bool) (scale : Int) (ends : Ends rest) :
    magnitude? negative (front ++ (fractionChars back ++ (Numeral.exponentChars scale ++ rest))) =
      some (if places = 0 ∧ scale = 0 then .whole negative n
        else .scaled negative n places scale, rest) := by
  have stop : ∀ c ∈ (Numeral.exponentChars scale ++ rest).head?, c.isDigit = false ∧ c ≠ '.' := by
    intro c mem
    rcases head?_exponentChars_append mem with rfl | mem
    · decide
    · exact ⟨(ends.ne mem).1, (ends.ne mem).2.1⟩
  have stop' : ∀ c ∈ (fractionChars back ++ (Numeral.exponentChars scale ++ rest)).head?,
      c.isDigit = false := by
    intro c mem
    rcases head?_fractionChars_append mem with rfl | mem
    · decide
    · exact (stop c mem).1
  rw [Json.magnitude?, h.wholeDigits? stop']
  simp only [Option.bind_eq_bind, Option.bind_some, fraction?_append h.back_digits stop,
    exponent?_append scale ends, h.length, h.value]
  have length := h.length
  have value := h.value
  cases back
  case nil =>
    rw [List.append_nil] at value
    obtain rfl : 0 = places := length
    by_cases zero : scale = 0
    · simp [zero, value]
    · simp [zero]
  case cons =>
    have apart : places ≠ 0 := by rw [← length]; simp
    by_cases zero : scale = 0 <;> simp [zero, apart]

theorem exists_pointed (n places : Nat) : ∃ front back, Pointed n places front back := by
  rcases eq_or_ne places 0 with rfl | some
  · exact ⟨_, _, pointed_whole n⟩
  · exact pointed_fraction some

theorem magnitude?_magnitude {n : Numeral} (plain : n.IsPlain) (ends : Ends rest) :
    magnitude? n.isNegative (n.magnitude ++ rest) = some (n, rest) := by
  cases n
  case whole negative n =>
    have read := (pointed_whole n).magnitude? negative 0 ends
    simpa [fractionChars, Numeral.exponentChars, Numeral.magnitude, Numeral.isNegative] using read
  case scaled negative digits places scale =>
    obtain ⟨front, back, pointed⟩ := exists_pointed digits places
    have apart : ¬(places = 0 ∧ scale = 0) := by
      rintro ⟨rfl, rfl⟩
      exact plain.elim (· rfl) (· rfl)
    have read := pointed.magnitude? negative scale ends
    rw [if_neg apart] at read
    rwa [Numeral.magnitude, pointed.written, List.append_assoc, List.append_assoc]

theorem exists_magnitude_eq_cons (n : Numeral) :
    ∃ c cs, n.magnitude = c :: cs ∧ c.isDigit = true := by
  have first {front : List Char} (digits : AreDigits front) (nonempty : front ≠ [])
      (cs : List Char) : ∃ c rest, front ++ cs = c :: rest ∧ c.isDigit = true := by
    cases front
    case nil            => exact absurd rfl nonempty
    case cons c front   => exact ⟨c, front ++ cs, rfl, digits c (.head _)⟩
  cases n
  case whole negative n =>
    simpa [Numeral.magnitude] using first (Decimal.areDigits_toDigits n) Nat.toDigits_ne_nil []
  case scaled negative digits places scale =>
    obtain ⟨front, back, pointed⟩ := exists_pointed digits places
    rw [Numeral.magnitude, pointed.written, List.append_assoc]
    exact first pointed.front_digits pointed.nonempty _

theorem number?_chars {n : Numeral} (plain : n.IsPlain) (ends : Ends rest) :
    number? (n.chars ++ rest) = some (n, rest) := by
  have read := magnitude?_magnitude plain ends
  rw [Numeral.chars]
  cases negative : n.isNegative <;> rw [negative] at read
  case true  => exact read
  case false =>
    obtain ⟨c, cs, first, digit⟩ := exists_magnitude_eq_cons n
    rw [if_neg (by decide), number?]
    · exact read
    · intro cs' same
      rw [first] at same
      exact Decimal.ne_of_isDigit digit rfl (List.cons.inj same).1

end numbers

section scalars

variable {rest : List Char}

-- Values that are not taken apart, and of which nothing is lost when they are written.
inductive IsScalar : Json → Prop
  | null : IsScalar .null
  | bool (b : Bool) : IsScalar (.bool b)
  | number {n : Numeral} (plain : n.IsPlain) : IsScalar (.number n)
  | text (s : String) : IsScalar (.text (some s))

-- Characters that a value can start with, but no list of values.
def Starts (c : Char) : Prop :=
  isSpace c = false ∧ c ≠ '[' ∧ c ≠ '{' ∧ c ≠ ']' ∧ c ≠ '}'

instance (c : Char) : Decidable (Starts c) :=
  inferInstanceAs (Decidable (_ ∧ _))

theorem starts_of_isDigit {c : Char} (digit : c.isDigit = true) : Starts c := by
  have apart (d : Char) (other : d.isDigit = false) : c ≠ d := Decimal.ne_of_isDigit digit other
  refine ⟨?_, apart _ rfl, apart _ rfl, apart _ rfl, apart _ rfl⟩
  simp [isSpace, apart ' ' rfl, apart '\n' rfl, apart '\r' rfl, apart '\t' rfl]

theorem exists_numeral_eq_cons (n : Numeral) :
    ∃ c cs, n.chars = c :: cs ∧ Starts c ∧ c ≠ '"' := by
  obtain ⟨c, cs, first, digit⟩ := exists_magnitude_eq_cons n
  rw [Numeral.chars, first]
  split
  case isTrue  => exact ⟨'-', c :: cs, rfl, by decide, by decide⟩
  case isFalse => exact ⟨c, cs, rfl, starts_of_isDigit digit, Decimal.ne_of_isDigit digit rfl⟩

theorem IsScalar.exists_chars_eq_cons {j : Json} (h : IsScalar j) :
    ∃ c cs, j.chars = c :: cs ∧ Starts c := by
  cases h
  case null   => exact ⟨'n', _, by rw [chars], by decide⟩
  case bool b => cases b <;> exact ⟨_, _, by rw [chars], by decide⟩
  case number n plain =>
    obtain ⟨c, cs, first, starts, _⟩ := exists_numeral_eq_cons n
    exact ⟨c, cs, by rw [chars, first], starts⟩
  case text s => exact ⟨'"', _, by rw [chars]; rfl, by decide⟩

theorem scalar?_chars {j : Json} (h : IsScalar j) (ends : Ends rest) :
    scalar? (j.chars ++ rest) = some (j, rest) := by
  cases h
  case null   => simp [chars, scalar?, number?, magnitude?, wholeDigits?, digits?, constant?]
  case bool b =>
    cases b <;> simp [chars, scalar?, number?, magnitude?, wholeDigits?, digits?, constant?]
  case number n plain =>
    have read := number?_chars plain ends
    obtain ⟨c, cs, first, _, quote⟩ := exists_numeral_eq_cons n
    rw [first] at read
    rw [chars, first, List.cons_append, scalar?]
    · rw [← List.cons_append, read]
    · intro cs' same
      exact quote (List.cons.inj same).1
  case text s =>
    have read := string?_flatMap_escaped s rest
    simp [chars, textChars, quotedChars, scalar?, read]

end scalars

end MetricCollector.Json
