import MetricCollector.Proofs.Binary.Arithmetic
import MetricCollector.Proofs.Binary.Equality
import MetricCollector.Proofs.Outcome
import MetricCollector.Settings.Basic

namespace MetricCollector

section checks

variable {ε ε' α β : Type}

-- What comes of requirements that are checked in turn, each with the fault to tell.
inductive Checked : List (Prop × ε) → Except ε α → Prop
  | done (a : α) : Checked [] (.ok a)
  | met {p : Prop} {e : ε} {checks : List (Prop × ε)} {r : Except ε α} (holds : p)
    (rest : Checked checks r) : Checked ((p, e) :: checks) r
  | failed {p : Prop} {e : ε} {checks : List (Prop × ε)} (fails : ¬p) :
    Checked ((p, e) :: checks) (.error e)

namespace Checked

variable {checks more : List (Prop × ε)} {r : Except ε α}

theorem exists_eq_ok_iff (h : Checked checks r) : (∃ a, r = .ok a) ↔ ∀ c ∈ checks, c.1 := by
  induction h
  case done a               => simp
  case met holds _ ih       => simp [ih, holds]
  case failed p _ _ fails   => simp [fails]

-- The requirements in front of the one that fails are met.
theorem eq_error_iff (h : Checked checks r) {e : ε} :
    r = .error e ↔
      ∃ before p after, checks = before ++ (p, e) :: after ∧ (∀ c ∈ before, c.1) ∧ ¬p := by
  induction h
  case done a => simp
  case met p e' checks r holds rest ih =>
    rw [ih]
    constructor
    case mp =>
      rintro ⟨before, q, after, rfl, met, fails⟩
      exact ⟨(p, e') :: before, q, after, rfl, List.forall_mem_cons.mpr ⟨holds, met⟩, fails⟩
    case mpr =>
      rintro ⟨before, q, after, same, met, fails⟩
      cases before
      case nil =>
        cases same
        exact absurd holds fails
      case cons c before =>
        cases same
        exact ⟨before, q, after, rfl, (List.forall_mem_cons.mp met).2, fails⟩
  case failed p e' checks fails =>
    constructor
    case mp =>
      rintro ⟨⟩
      exact ⟨[], p, checks, rfl, List.forall_mem_nil _, fails⟩
    case mpr =>
      rintro ⟨before, q, after, same, met, fails'⟩
      cases before
      case nil =>
        cases same
        rfl
      case cons c before =>
        cases same
        exact absurd (met _ (.head _)) fails

theorem bind {f : α → Except ε β} (h : Checked checks r)
    (next : ∀ a, r = .ok a → Checked more (f a)) : Checked (checks ++ more) (r >>= f) := by
  induction h
  case done a             => exact next a rfl
  case met holds _ ih     => exact .met holds (ih next)
  case failed fails       => exact .failed fails

theorem mapError (h : Checked checks r) (f : ε → ε') :
    Checked (checks.map fun c => (c.1, f c.2)) (r.mapError f) := by
  induction h
  case done a         => exact .done a
  case met holds _ ih => exact .met holds ih
  case failed fails   => exact .failed fails

theorem mapM {f : α → Except ε β} {requires : α → Prop} {fault : α → ε}
    (one : ∀ a, Checked [(requires a, fault a)] (f a)) (as : List α) :
    Checked (as.map fun a => (requires a, fault a)) (as.mapM f) := by
  induction as
  case nil => exact .done []
  case cons a as ih =>
    rw [List.mapM_cons]
    refine (one a).bind fun b _ => ?_
    rw [← List.append_nil (as.map _)]
    exact ih.bind fun bs _ => .done _

-- A check that looks for the contrary.
theorem refuted {p q : Prop} [Decidable q] {e : ε} (iff : p ↔ ¬q) (rest : Checked checks r) :
    Checked ((p, e) :: checks) (if q then .error e else r) := by
  split
  case isTrue holds  => exact .failed fun met => iff.mp met holds
  case isFalse fails => exact .met (iff.mpr fails) rest

-- A check only if there is something to check.
theorem elim {f : α → Except ε β} {b : β} {checks : α → List (Prop × ε)}
    (one : ∀ a, Checked (checks a) (f a)) (given? : Option α) :
    Checked (given?.toList.flatMap checks) (given?.elim (pure b) f) := by
  cases given?
  case none => exact .done b
  case some a =>
    rw [Option.toList_some, List.flatMap_singleton]
    exact one a

-- What is required is that there is a result, and there is one fault to tell if there is none.
theorem of_iff {p : α → Prop} {e : ε} (results : ∀ a, r = .ok a ↔ p a)
    (fault : ∀ e', r = .error e' → e' = e) : Checked [(∃ a, p a, e)] r := by
  cases r
  case ok a => exact .met ⟨a, (results a).mp rfl⟩ (.done a)
  case error e' =>
    rw [fault e' rfl]
    refine .failed ?_
    rintro ⟨a, result⟩
    cases (results a).mpr result

end Checked
end checks

-- Whether a number is finite, not zero, and from -100 to 100.
structure IsPercentage (x : Float) : Prop where
  finite : x.isFinite = true
  other  : Binary.value x ≠ 0
  least  : -100 ≤ Binary.value x
  most   : Binary.value x ≤ 100

theorem Binary.exact_hundred : (100.0 : Float).isFinite = true ∧ value 100.0 = 100 := by
  have parts : parts 100.0 = .finite false (25 * 2 ^ 48) (-46) := by decide +kernel
  refine ⟨isFinite_of_parts parts, ?_⟩
  rw [value_of_parts parts]
  norm_num

theorem Binary.exact_neg_hundred : (-100.0 : Float).isFinite = true ∧ value (-100.0) = -100 := by
  have parts : parts (-100.0) = .finite true (25 * 2 ^ 48) (-46) := by decide +kernel
  refine ⟨isFinite_of_parts parts, ?_⟩
  rw [value_of_parts parts]
  norm_num

theorem isThreshold_iff_isPercentage {x : Float} : isThreshold x = true ↔ IsPercentage x := by
  have finite_zero : (0.0 : Float).isFinite = true := by decide +kernel
  obtain ⟨finite_hundred, value_hundred⟩ := Binary.exact_hundred
  obtain ⟨finite_minus, value_minus⟩ := Binary.exact_neg_hundred
  simp only [isThreshold, Bool.and_eq_true, decide_eq_true_eq, bne, Bool.not_eq_true', and_assoc]
  constructor
  case mp =>
    rintro ⟨finite, other, least, most⟩
    rw [← Bool.not_eq_true, Binary.beq_iff_value_eq finite finite_zero, Binary.value_zero] at other
    rw [← Binary.value_le_iff finite_minus finite, value_minus] at least
    rw [← Binary.value_le_iff finite finite_hundred, value_hundred] at most
    exact ⟨finite, other, least, most⟩
  case mpr =>
    rintro ⟨finite, other, least, most⟩
    rw [← Bool.not_eq_true, Binary.beq_iff_value_eq finite finite_zero, Binary.value_zero,
      ← Binary.value_le_iff finite_minus finite, value_minus,
      ← Binary.value_le_iff finite finite_hundred, value_hundred]
    exact ⟨finite, other, least, most⟩

theorem Threshold.checked_ofFloat (x : Float) :
    Checked [(IsPercentage x, ⟨plainText x⟩)] (Threshold.ofFloat x) := by
  unfold Threshold.ofFloat
  split
  case isTrue valid  => exact .met (isThreshold_iff_isPercentage.mp valid) (.done _)
  case isFalse fault => exact .failed fun met => fault (isThreshold_iff_isPercentage.mpr met)

theorem Threshold.ofFloat_eq_ok_iff {x : Float} {t : Threshold} :
    ofFloat x = .ok t ↔ t.value = x := by
  unfold ofFloat
  split
  case isTrue => rw [Except.ok.injEq, eq_comm, mk.injEq]
  case isFalse fault =>
    constructor
    · rintro ⟨⟩
    · rintro rfl
      exact absurd t.valid fault

namespace Settings

variable {s : Settings}

-- The thresholds are valid iff they are the values of thresholds.
theorem validThresholds_eq_ok_iff {ts : List Threshold} :
    s.validThresholds = .ok ts ↔ ts.map Threshold.value = s.thresholds := by
  rw [validThresholds, mapError_eq_ok_iff, mapM_eq_ok_iff, ← List.forall₂_eq_eq_eq,
    List.forall₂_map_left_iff]
  simp only [Threshold.ofFloat_eq_ok_iff]
  exact ⟨List.Forall₂.flip, List.Forall₂.flip⟩

-- What is required of the settings for the engine, thresholds first.
def engineChecks (s : Settings) : List (Prop × SettingsError) :=
  s.thresholds.map (fun x => (IsPercentage x, .threshold ⟨plainText x⟩)) ++
  [(0 < s.flushInterval.nanoseconds, .interval .flushIntervalZero),
   (1 ≤ s.queueCapacity, .setting .queueCapacityZero)]

-- Everything that is required of settings, in the order in which it is checked.
def checks (s : Settings) : List (Prop × SettingsError) :=
  s.engineChecks ++
  [(1 ≤ s.receiverWorkers, .setting .receiverWorkersZero),
   (0 < s.sinkTimeout.nanoseconds, .interval .sinkTimeoutZero),
   (s.sinkTimeout ≤ s.flushInterval,
     .interval (.sinkTimeoutTooLong s.sinkTimeout s.flushInterval)),
   (1 ≤ s.summaryBacklog, .setting .summaryBacklogZero)]

theorem checked_engine (s : Settings) : Checked s.engineChecks s.engine := by
  have thresholds := (Checked.mapM Threshold.checked_ofFloat s.thresholds).mapError
    SettingsError.threshold
  rw [List.map_map] at thresholds
  refine thresholds.bind fun ts _ => ?_
  split
  case isFalse zero => exact .failed zero
  case isTrue flush =>
    refine .met flush ?_
    split
    case isFalse zero => exact .failed zero
    case isTrue queue => exact .met queue (.done _)

theorem checked_validate (s : Settings) : Checked s.checks s.validate := by
  refine s.checked_engine.bind fun e _ => ?_
  have workers : 1 ≤ s.receiverWorkers ↔ ¬s.receiverWorkers = 0 := Nat.one_le_iff_ne_zero
  have time : 0 < s.sinkTimeout.nanoseconds ↔ ¬s.sinkTimeout.isZero = true := by
    simp [Span.isZero, Nat.pos_iff_ne_zero]
  have limit : s.sinkTimeout ≤ s.flushInterval ↔ ¬s.flushInterval < s.sinkTimeout :=
    Nat.not_lt.symm
  have backlog : 1 ≤ s.summaryBacklog ↔ ¬s.summaryBacklog = 0 := Nat.one_le_iff_ne_zero
  exact .refuted workers (.refuted time (.refuted limit (.refuted backlog (.done ()))))

end Settings
end MetricCollector
