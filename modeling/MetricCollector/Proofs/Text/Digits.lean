import MetricCollector.Proofs.Decimal.Plain
import MetricCollector.Text.Hexadecimal
import MetricCollector.Text.Scan

namespace MetricCollector.Text

section

variable {p : Char → Bool} {front rest : List Char}

theorem takeWhile_append_eq (all : ∀ c ∈ front, p c = true)
    (stop : ∀ c ∈ rest.head?, p c = false) : (front ++ rest).takeWhile p = front := by
  rw [List.takeWhile_append_of_pos all]
  cases rest
  case nil         => simp
  case cons c rest => rw [List.takeWhile_cons_of_neg (by simp [stop c rfl]), List.append_nil]

end

section

variable {b n : Nat}

theorem digitChar_ne_zero : ∀ d < 16, d ≠ 0 → Nat.digitChar d ≠ '0' := by decide

theorem head?_toDigits_ne_zero (base : 1 < b) (small : b ≤ 16) :
    n ≠ 0 → (Nat.toDigits b n).head? ≠ some '0' := by
  induction n using Nat.strongRecOn with
  | ind n ih =>
    intro nonzero
    rcases lt_or_ge n b with less | more
    · rw [Nat.toDigits_of_lt_base less, List.head?_singleton, Ne, Option.some_inj]
      exact digitChar_ne_zero n (by omega) nonzero
    · rw [Nat.toDigits_of_base_le base more, List.head?_append_of_ne_nil _ Nat.toDigits_ne_nil]
      exact ih (n / b) (Nat.div_lt_self (by omega) base) (Nat.div_pos more (by omega)).ne'

-- Only zero itself starts with a zero.
theorem toDigits_eq_of_head? (base : 1 < b) (small : b ≤ 16)
    (zero : (Nat.toDigits b n).head? = some '0') : Nat.toDigits b n = ['0'] := by
  rcases eq_or_ne n 0 with rfl | nonzero
  · exact Nat.toDigits_zero b
  · exact absurd zero (head?_toDigits_ne_zero base small nonzero)

end

section

variable {n bound : Nat} {rest : List Char}

theorem scanNumber_toDigits (less : n < bound) (stop : ∀ c ∈ rest.head?, c.isDigit = false) :
    scanNumber bound (Nat.toDigits 10 n ++ rest) = some (n, rest) := by
  have digits := Decimal.areDigits_toDigits n
  rw [scanNumber, takeWhile_append_eq digits stop, dropWhile_append_eq digits stop]
  simp [Decimal.digitsValue_toDigits, Nat.toDigits_ne_nil, less]

-- A number that is all there is.
theorem scanNumber_eq_some_nil_iff {ds : List Char} : scanNumber bound ds = some (n, []) ↔
    ds ≠ [] ∧ Decimal.AreDigits ds ∧ Decimal.digitsValue ds = n ∧ n < bound := by
  simp only [scanNumber, Option.ite_none_right_eq_some, Option.some_inj, Prod.mk.injEq,
    List.dropWhile_eq_nil_iff]
  constructor
  case mp =>
    rintro ⟨⟨nonempty, less⟩, value, digits⟩
    rw [List.takeWhile_eq_self_iff.mpr digits] at nonempty less value
    exact ⟨nonempty, digits, value, value ▸ less⟩
  case mpr =>
    rintro ⟨nonempty, digits, value, less⟩
    rw [List.takeWhile_eq_self_iff.mpr digits]
    exact ⟨⟨nonempty, value ▸ less⟩, value, digits⟩

end

section hexadecimal

variable {n : Nat} {c : Char}

theorem hexValue?_digitChar : ∀ d < 16, hexValue? (Nat.digitChar d) = some d := by decide

theorem hexNumber_append_singleton (cs : List Char) (c : Char) :
    hexNumber (cs ++ [c]) = 16 * hexNumber cs + (hexValue? c).getD 0 := by
  rw [hexNumber, List.foldl_append]
  rfl

theorem hexNumber_toDigits (n : Nat) : hexNumber (Nat.toDigits 16 n) = n := by
  induction n using Nat.strongRecOn with
  | ind n ih =>
    rcases lt_or_ge n 16 with less | more
    · rw [Nat.toDigits_of_lt_base less, hexNumber, List.foldl_cons, List.foldl_nil,
        hexValue?_digitChar n less, Option.getD_some, Nat.mul_zero, Nat.zero_add]
    · rw [Nat.toDigits_of_base_le (by decide) more, hexNumber_append_singleton,
        ih (n / 16) (by omega), hexValue?_digitChar _ (Nat.mod_lt n (by decide)), Option.getD_some]
      omega

theorem isHexDigit_of_mem_toDigits (mem : c ∈ Nat.toDigits 16 n) : isHexDigit c = true := by
  induction n using Nat.strongRecOn with
  | ind n ih =>
    have digit (d : Nat) (less : d < 16) : isHexDigit (Nat.digitChar d) = true := by
      rw [isHexDigit, hexValue?_digitChar d less]
      rfl
    rcases lt_or_ge n 16 with less | more
    · rw [Nat.toDigits_of_lt_base less, List.mem_singleton] at mem
      exact mem ▸ digit n less
    · rw [Nat.toDigits_of_base_le (by decide) more, List.mem_append, List.mem_singleton] at mem
      rcases mem with mem | rfl
      · exact ih (n / 16) (by omega) mem
      · exact digit _ (Nat.mod_lt n (by decide))

end hexadecimal

end MetricCollector.Text
