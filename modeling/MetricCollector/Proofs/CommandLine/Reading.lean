import MetricCollector.CommandLine.Arguments
import MetricCollector.Proofs.Settings.Checks
import Mathlib.Logic.Relation

namespace MetricCollector

-- Flags with one more value.
def Flags.Puts (f f' : Flags) : Prop :=
  ∃ flag value, Arguments.put f value flag = .ok f'

-- Flags with some more values.
def Flags.Grows : Flags → Flags → Prop :=
  Relation.ReflTransGen Flags.Puts

namespace Arguments

variable {a : Arguments} {r : Except UsageError Arguments}

-- Whatever arguments come of it, only values were put into the flags of `a`.
def Leads (a : Arguments) (r : Except UsageError Arguments) : Prop :=
  ∀ a', r = .ok a' → a.flags.Grows a'.flags

theorem leads_ok {a' : Arguments} (same : a'.flags = a.flags) : a.Leads (.ok a') := by
  rintro _ ⟨⟩
  rw [same]
  exact .refl

theorem leads_error (e : UsageError) : a.Leads (.error e) := by
  rintro _ ⟨⟩

theorem Leads.bind {f : Arguments → Except UsageError Arguments} (first : a.Leads r)
    (next : ∀ b : Arguments, b.Leads (f b)) : a.Leads (r >>= f) := by
  intro a' h
  obtain ⟨b, made, h⟩ := exists_of_bind_eq_ok h
  exact (first b made).trans (next b a' h)

theorem leads_take (a : Arguments) (flag : Flag) (value : List Char) :
    a.Leads (a.take flag value) := by
  simp only [take]
  split
  case isTrue => exact leads_error _
  case isFalse =>
    intro a' h
    obtain ⟨f, put, h⟩ := exists_of_bind_eq_ok h
    cases h
    exact .single ⟨flag, value, put⟩

theorem leads_settle (a : Arguments) : a.Leads a.settle := by
  unfold settle
  split
  case h_1              => exact leads_ok rfl
  case h_2              => exact leads_error _
  case h_3 flag value _ => exact leads_take { a with pending := none } flag value

theorem leads_attach (a : Arguments) (flag : Flag) (value : List Char) :
    a.Leads (a.attach flag value) :=
  a.leads_settle.bind fun b => b.leads_take flag value

theorem leads_await (a : Arguments) (flag : Flag) : a.Leads (a.await flag) :=
  a.leads_settle.bind fun _ => leads_ok rfl

theorem leads_long (a : Arguments) (cs : List Char) : a.Leads (a.long cs) := by
  unfold long
  split
  split
  case h_1 => exact leads_error _
  case h_2 flag _ =>
    split
    · exact a.leads_attach flag _
    · exact a.leads_await flag
    · exact leads_error _
    · exact a.leads_attach flag []

theorem leads_short (a : Arguments) (cs : List Char) : a.Leads (a.short cs) := by
  induction cs generalizing a
  case nil => exact leads_ok rfl
  case cons c cs ih =>
    unfold short
    split
    case h_1 => exact leads_error _
    case h_2 flag _ =>
      split
      case isTrue =>
        split
        · exact a.leads_await flag
        · exact a.leads_attach flag _
        · exact a.leads_attach flag _
      case isFalse => exact (a.leads_attach flag []).bind fun b => ih b

theorem leads_plain (a : Arguments) (cs : List Char) : a.Leads (a.plain cs) := by
  unfold plain
  split
  · exact leads_ok rfl
  · exact leads_error _

theorem leads_next (a : Arguments) (argument : String) : a.Leads (a.next argument) := by
  simp only [next]
  split
  case isTrue => exact leads_error _
  case isFalse =>
    split
    case isTrue => exact a.leads_plain _
    case isFalse =>
      split
      · exact leads_ok rfl
      · exact a.leads_long _
      · exact a.leads_short _
      · exact a.leads_plain _

theorem leads_foldlM (a : Arguments) (arguments : List String) :
    a.Leads (arguments.foldlM next a) := by
  induction arguments generalizing a
  case nil                        => exact leads_ok rfl
  case cons argument arguments ih => exact (a.leads_next argument).bind fun b => ih b

-- A command line puts its values into flags that say nothing.
theorem grows_of_read {arguments : List String} {f : Flags} (h : read arguments = .ok f) :
    Flags.Grows {} f := by
  unfold read at h
  obtain ⟨a, folded, h⟩ := exists_of_bind_eq_ok h
  obtain ⟨b, settled, h⟩ := exists_of_bind_eq_ok h
  cases h
  exact (leads_foldlM {} arguments a folded).trans (a.leads_settle b settled)

theorem address_eq_ok_iff {text : String} {address : Address} :
    Arguments.address text = .ok address ↔ Address.read? text = some address := by
  unfold Arguments.address
  split
  case h_1 found => rw [found, Except.ok.injEq, Option.some_inj]
  case h_2 none  => simp [none]

end Arguments

-- A threshold is read from the texts of its value.
theorem Threshold.read_eq_ok_iff {text : String} {t : Threshold} :
    read text = .ok t ↔ Decimal.read? (Text.trim text) = some t.value := by
  unfold read
  split
  case h_1 x found => rw [found, Option.some_inj, ofFloat_eq_ok_iff, eq_comm]
  case h_2 none    => simp [none]

namespace Flags

variable {f f' : Flags}

-- What is known of all flags that were read: their values are what texts denote.
structure AreRead (f : Flags) : Prop where
  expiryInterval : ∀ d ∈ f.expiryInterval?, ∃ text, Span.read text = .ok d
  flushInterval  : ∀ d ∈ f.flushInterval?, ∃ text, Span.read text = .ok d
  metricsAddress : ∀ a ∈ f.metricsAddress?, ∃ text, Address.read? text = some a
  thresholds     : ∃ texts : List String, List.Forall₂
    (fun text t => Decimal.read? (Text.trim text) = some t.value) texts (f.thresholds?.getD [])

theorem areRead_empty : AreRead {} where
  expiryInterval := by simp
  flushInterval  := by simp
  metricsAddress := by simp
  thresholds     := ⟨[], .nil⟩

theorem AreRead.put (h : f.AreRead) (puts : f.Puts f') : f'.AreRead := by
  obtain ⟨expiryInterval, flushInterval, metricsAddress, thresholds⟩ := h
  obtain ⟨flag, value, puts⟩ := puts
  -- A flag leaves alone what it is not about.
  cases flag
  case configPath =>
    obtain ⟨_, _, puts⟩ := exists_of_bind_eq_ok puts
    cases puts
    exact ⟨expiryInterval, flushInterval, metricsAddress, thresholds⟩
  case expiryInterval =>
    obtain ⟨d, read, puts⟩ := exists_of_bind_eq_ok puts
    cases puts
    refine ⟨?_, flushInterval, metricsAddress, thresholds⟩
    rintro _ ⟨⟩
    exact ⟨_, mapError_eq_ok_iff.mp read⟩
  case flushInterval =>
    obtain ⟨d, read, puts⟩ := exists_of_bind_eq_ok puts
    cases puts
    refine ⟨expiryInterval, ?_, metricsAddress, thresholds⟩
    rintro _ ⟨⟩
    exact ⟨_, mapError_eq_ok_iff.mp read⟩
  case metricsAddress =>
    obtain ⟨a, read, puts⟩ := exists_of_bind_eq_ok puts
    cases puts
    refine ⟨expiryInterval, flushInterval, ?_, thresholds⟩
    rintro _ ⟨⟩
    exact ⟨_, Arguments.address_eq_ok_iff.mp read⟩
  case thresholds =>
    obtain ⟨ts, read, puts⟩ := exists_of_bind_eq_ok puts
    cases puts
    obtain ⟨texts, before⟩ := thresholds
    have behind := (mapM_eq_ok_iff.mp read).imp fun _ _ read =>
      Threshold.read_eq_ok_iff.mp (mapError_eq_ok_iff.mp read)
    exact ⟨expiryInterval, flushInterval, metricsAddress, _, List.rel_append before behind⟩
  case help    => cases puts
  case version => cases puts
  all_goals
    cases puts
    exact ⟨expiryInterval, flushInterval, metricsAddress, thresholds⟩

theorem AreRead.grow (h : f.AreRead) (grows : f.Grows f') : f'.AreRead := by
  induction grows
  case refl         => exact h
  case tail puts ih => exact ih.put puts

theorem areRead_of_read {arguments : List String} (h : Arguments.read arguments = .ok f) :
    f.AreRead :=
  areRead_empty.grow (Arguments.grows_of_read h)

end Flags
end MetricCollector
