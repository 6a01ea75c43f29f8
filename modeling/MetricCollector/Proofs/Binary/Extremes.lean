import MetricCollector.Proofs.Binary.Order

namespace MetricCollector

open Binary

-- One of the numbers that stands in a relation to all of them.
structure Extreme (r : Float → Float → Prop) (x : Float) (xs : List Float) : Prop where
  mem : x ∈ xs
  rel : ∀ y ∈ xs, r x y

abbrev Least : Float → List Float → Prop :=
  Extreme (· ≤ ·)

abbrev Greatest : Float → List Float → Prop :=
  Extreme (· ≥ ·)

-- Whether a relation compares some numbers by a measure of them.
def ComparesBy (f : Float → Int) (r : Float → Float → Prop) (xs : List Float) : Prop :=
  ∀ x ∈ xs, ∀ y ∈ xs, r x y ↔ f x ≤ f y

def AllFinite (xs : List Float) : Prop :=
  ∀ x ∈ xs, x.isFinite = true

section

variable {f : Float → Int} {r : Float → Float → Prop} {x y : Float} {xs : List Float}

theorem Extreme.measure_eq (h : ComparesBy f r xs) (hx : Extreme r x xs) (hy : Extreme r y xs) :
    f x = f y := by
  have xy := (h x hx.mem y hy.mem).mp (hx.rel y hy.mem)
  have yx := (h y hy.mem x hx.mem).mp (hy.rel x hx.mem)
  exact Int.le_antisymm xy yx

theorem Extreme.append_singleton (h : ComparesBy f r (xs ++ [y])) (hx : Extreme r x xs) :
    Extreme r (if f y < f x then y else x) (xs ++ [y]) := by
  have old {z : Float} (hz : z ∈ xs) : z ∈ xs ++ [y] := List.mem_append_left _ hz
  have last : y ∈ xs ++ [y] := by simp
  split
  case isTrue less =>
    refine ⟨last, fun z hz => (h y last z hz).mpr ?_⟩
    cases List.mem_append.mp hz
    case inl hz =>
      have := (h x (old hx.mem) z (old hz)).mp (hx.rel z hz)
      omega
    case inr hz => exact List.mem_singleton.mp hz ▸ Int.le_refl _
  case isFalse less =>
    refine ⟨old hx.mem, fun z hz => ?_⟩
    cases List.mem_append.mp hz
    case inl hz => exact hx.rel z hz
    case inr hz =>
      rw [List.mem_singleton.mp hz, h x (old hx.mem) y last]
      omega

theorem Extreme.singleton (h : r x x) : Extreme r x [x] :=
  ⟨List.mem_singleton_self x, fun _ hy => List.mem_singleton.mp hy ▸ h⟩

namespace AllFinite

theorem isNaN (h : AllFinite xs) (hx : x ∈ xs) : x.isNaN = false :=
  isNaN_eq_false (h x hx)

theorem comparesBy_place (h : AllFinite xs) : ComparesBy place (· ≤ ·) xs :=
  fun _ hx _ hy => le_iff (h.isNaN hx) (h.isNaN hy)

theorem comparesBy_neg_place (h : AllFinite xs) : ComparesBy (fun x => -place x) (· ≥ ·) xs := by
  intro x hx y hy
  have := le_iff (h.isNaN hy) (h.isNaN hx)
  simp only [ge_iff_le, this]
  omega

theorem append_left {ys : List Float} (h : AllFinite (xs ++ ys)) : AllFinite xs :=
  fun x hx => h x (List.mem_append_left _ hx)

theorem last (h : AllFinite (xs ++ [y])) : y.isFinite = true :=
  h y (by simp)

end AllFinite

theorem Least.beq (h : AllFinite xs) (hx : Least x xs) (hy : Least y xs) : (x == y) = true :=
  (beq_iff (h.isNaN hx.mem) (h.isNaN hy.mem)).mpr (hx.measure_eq h.comparesBy_place hy)

theorem Greatest.beq (h : AllFinite xs) (hx : Greatest x xs) (hy : Greatest y xs) :
    (x == y) = true := by
  have := hx.measure_eq h.comparesBy_neg_place hy
  exact (beq_iff (h.isNaN hx.mem) (h.isNaN hy.mem)).mpr (Int.neg_inj.mp this)

theorem Least.append_singleton (h : AllFinite (xs ++ [y])) (hx : Least x xs) :
    Least (if y < x then y else x) (xs ++ [y]) := by
  have := lt_iff (isNaN_eq_false h.last) (h.append_left.isNaN hx.mem)
  simp only [this]
  exact Extreme.append_singleton h.comparesBy_place hx

theorem Greatest.append_singleton (h : AllFinite (xs ++ [y])) (hx : Greatest x xs) :
    Greatest (if x < y then y else x) (xs ++ [y]) := by
  have := lt_iff (h.append_left.isNaN hx.mem) (isNaN_eq_false h.last)
  simp only [this, ← Int.neg_lt_neg_iff (a := place y)]
  exact Extreme.append_singleton h.comparesBy_neg_place hx

end

theorem le_self {x : Float} (h : x.isFinite = true) : x ≤ x :=
  (le_iff (isNaN_eq_false h) (isNaN_eq_false h)).mpr (Int.le_refl _)

end MetricCollector
