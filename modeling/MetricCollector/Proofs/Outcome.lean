import Mathlib.Data.List.Forall2

namespace MetricCollector

section

variable {ε α β : Type} {f : α → Except ε β}

theorem elim_eq_ok_iff {o : Option α} {e : ε} {a : α} :
    o.elim (.error e) .ok = (.ok a : Except ε α) ↔ o = some a := by
  cases o <;> simp

theorem elim_eq_error_iff {o : Option α} {e e' : ε} :
    o.elim (.error e) .ok = (.error e' : Except ε α) ↔ o = none ∧ e' = e := by
  cases o <;> simp [eq_comm]

theorem mapError_eq_ok_iff {ε' : Type} {x : Except ε α} {g : ε → ε'} {a : α} :
    x.mapError g = .ok a ↔ x = .ok a := by
  cases x <;> simp [Except.mapError]

theorem ok_bind (a : α) (f : α → Except ε β) : Except.ok a >>= f = f a := rfl

theorem exists_of_bind_eq_ok {x : Except ε α} {b : β} (h : x >>= f = .ok b) :
    ∃ a, x = .ok a ∧ f a = .ok b := by
  cases x
  case error => cases h
  case ok a  => exact ⟨a, rfl, h⟩

theorem mapM_eq_ok_iff {as : List α} {bs : List β} :
    as.mapM f = .ok bs ↔ List.Forall₂ (fun a b => f a = .ok b) as bs := by
  induction as generalizing bs
  case nil => cases bs <;> simp [pure, Except.pure, List.forall₂_nil_left_iff]
  case cons a as ih =>
    rw [List.mapM_cons]
    constructor
    case mp =>
      intro h
      obtain ⟨b, first, h⟩ := exists_of_bind_eq_ok h
      obtain ⟨rest, others, h⟩ := exists_of_bind_eq_ok h
      cases h
      exact .cons first (ih.mp others)
    case mpr =>
      rintro (_ | ⟨first, others⟩)
      rw [first, show as.mapM f = _ from ih.mpr others]
      rfl

-- The first failure is the one that is told.
theorem mapM_eq_error {before after : List α} {a : α} {e : ε}
    (good : ∀ a ∈ before, ∃ b, f a = .ok b) (bad : f a = .error e) :
    (before ++ a :: after).mapM f = .error e := by
  induction before
  case nil =>
    rw [List.nil_append, List.mapM_cons, bad]
    rfl
  case cons b before ih =>
    obtain ⟨⟨y, first⟩, good⟩ := List.forall_mem_cons.mp good
    rw [List.cons_append, List.mapM_cons, first, show List.mapM f _ = _ from ih good]
    rfl

end

end MetricCollector
