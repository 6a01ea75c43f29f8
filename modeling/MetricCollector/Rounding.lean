namespace MetricCollector

-- What becomes of a quotient that lies halfway between two whole numbers.
inductive Tie
  | toEven
  | awayFromZero
  deriving DecidableEq, Repr

-- The whole number nearest to `num / den`, with `tie` deciding an exact half.
def roundQuotient (tie : Tie) (num den : Nat) : Nat :=
  let whole := num / den
  let rest := num % den
  if 2 * rest < den then whole
  else if den < 2 * rest then whole + 1
  else match tie with
    | .toEven       => whole + whole % 2
    | .awayFromZero => whole + 1

theorem roundQuotient_ge (tie : Tie) (num den : Nat) : num / den ≤ roundQuotient tie num den := by
  cases tie <;> simp only [roundQuotient] <;> split <;> (try split) <;> omega

theorem roundQuotient_le (tie : Tie) (num den : Nat) :
    roundQuotient tie num den ≤ num / den + 1 := by
  cases tie <;> simp only [roundQuotient] <;> split <;> (try split) <;> omega

end MetricCollector
