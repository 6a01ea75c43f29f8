import Mathlib.Data.Int.Notation
import Mathlib.Data.List.Induction
import Mathlib.Data.Nat.Notation
import MetricCollector.Time.Schedule

namespace MetricCollector

theorem Span.le_def {a b : Span} : a ≤ b ↔ a.nanoseconds ≤ b.nanoseconds := .rfl

namespace Instant

def IsWhole (t : Instant) : Prop :=
  (Span.nanosPerMillisecond : ℤ) ∣ t.nanoseconds

variable {now t : Instant} {d : Span}

theorem le_refl (t : Instant) : t ≤ t := Int.le_refl _

theorem le_of_not_le {a b : Instant} (h : ¬a ≤ b) : b ≤ a :=
  Int.le_of_lt (Int.not_le.mp h)

theorem le_after (now : Instant) (d : Span) : now ≤ now.after d := by
  simp only [le_def, after]
  omega

theorem le_since_iff (le : now ≤ t) : d ≤ t.since now ↔ now.after d ≤ t := by
  simp only [le_def, Span.le_def, since, after] at *
  omega

theorem since_after (now : Instant) (d : Span) : (now.after d).since now = d :=
  congrArg Span.mk (show (now.nanoseconds + d.nanoseconds - now.nanoseconds).toNat = _ by omega)

theorem after_since (le : now ≤ t) : now.after (t.since now) = t := by
  refine le_antisymm ?_ ?_ <;> simp only [le_def, after, since] at * <;> omega

theorem isWhole_rounded (t : Instant) : t.rounded.IsWhole :=
  ⟨-((-t.nanoseconds) / Span.nanosPerMillisecond), Int.mul_comm ..⟩

theorem le_rounded (t : Instant) : t ≤ t.rounded := by
  simp only [le_def, rounded, Span.nanosPerMillisecond]
  omega

theorem rounded_eq (whole : t.IsWhole) : t.rounded = t := by
  obtain ⟨k, hk⟩ := whole
  refine le_antisymm ?_ t.le_rounded
  simp only [le_def, rounded, hk, Span.nanosPerMillisecond]
  omega

-- A timer is not late by a whole millisecond.
theorem kept_lt (now : Instant) (d : Span) :
    (now.kept d).nanoseconds < d.nanoseconds + Span.nanosPerMillisecond := by
  simp only [kept, since, after, rounded, Span.nanosPerMillisecond]
  omega

theorem after_kept (now : Instant) (d : Span) : now.after (now.kept d) = (now.after d).rounded :=
  after_since (le_trans (now.le_after d) (now.after d).le_rounded)

theorem le_kept (now : Instant) (d : Span) : d ≤ now.kept d :=
  (le_since_iff (le_trans (now.le_after d) (now.after d).le_rounded)).mpr (now.after d).le_rounded

-- Nothing is added to a time that ends at a whole millisecond.
theorem kept_eq (whole : (now.after d).IsWhole) : now.kept d = d := by
  rw [kept, rounded_eq whole, since_after]

end Instant

namespace Alarm

variable {alarms : List Alarm} {a b : Alarm}

theorem rings_le_of_precedes (h : a.precedes b = true) : a.rings ≤ b.rings := by
  simp only [precedes, Bool.or_eq_true, Bool.and_eq_true, decide_eq_true_eq] at h
  rcases h with earlier | ⟨same, _⟩
  · exact Int.le_of_lt earlier
  · exact same ▸ Instant.le_refl _

theorem rings_le_of_not_precedes (h : ¬a.precedes b = true) : b.rings ≤ a.rings := by
  simp only [precedes, Bool.or_eq_true, decide_eq_true_eq, not_or] at h
  exact Int.not_lt.mp h.1

-- The last of some alarms is the first to go off, or it does not matter.
theorem first?_append_singleton (alarms : List Alarm) (a : Alarm) :
    first? (alarms ++ [a]) =
      some ((first? alarms).elim a fun b => if a.precedes b then a else b) := by
  simp [first?]

theorem exists_first? (some : alarms ≠ []) :
    ∃ a ∈ alarms, first? alarms = .some a ∧ ∀ b ∈ alarms, a.rings ≤ b.rings := by
  induction alarms using List.reverseRecOn
  case nil => exact absurd rfl some
  case append_singleton alarms a ih =>
    by_cases more : alarms = []
    case pos =>
      subst more
      exact ⟨a, .head _, rfl, by simp [Instant.le_refl]⟩
    case neg =>
      obtain ⟨b, mem, first, least⟩ := ih more
      rw [first?_append_singleton, first, Option.elim_some]
      split
      case isTrue precedes =>
        refine ⟨a, by simp, rfl, fun c hc => ?_⟩
        rcases List.mem_append.mp hc with hc | hc
        · exact Instant.le_trans (rings_le_of_precedes precedes) (least c hc)
        · exact List.mem_singleton.mp hc ▸ Instant.le_refl _
      case isFalse behind =>
        refine ⟨b, List.mem_append_left _ mem, rfl, fun c hc => ?_⟩
        rcases List.mem_append.mp hc with hc | hc
        · exact least c hc
        · exact List.mem_singleton.mp hc ▸ rings_le_of_not_precedes behind

end Alarm
end MetricCollector
