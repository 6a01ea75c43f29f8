import MetricCollector.Proofs.Json.Numbers
import MetricCollector.Proofs.Json.RoundTrip
import MetricCollector.Proofs.Metric.Order
import MetricCollector.Summary.Json

namespace MetricCollector

namespace Json

section unbroken

-- Whether a text has no control characters, line breaks among them.
def Unbroken (cs : List Char) : Prop :=
  ∀ c ∈ cs, isControl c = false

variable {cs ds : List Char} {c : Char}

theorem Unbroken.append (hc : Unbroken cs) (hd : Unbroken ds) : Unbroken (cs ++ ds) :=
  fun c mem => (List.mem_append.mp mem).elim (hc c) (hd c)

theorem Unbroken.cons (first : isControl c = false) (rest : Unbroken cs) : Unbroken (c :: cs) :=
  List.forall_mem_cons.mpr ⟨first, rest⟩

theorem Unbroken.of_all (h : cs.all (!isControl ·) = true) : Unbroken cs :=
  fun c mem => by simpa using List.all_eq_true.mp h c mem

theorem isControl_of_isDigit (digit : c.isDigit = true) : isControl c = false := by
  simp only [Char.isDigit, Bool.and_eq_true, decide_eq_true_eq, ge_iff_le,
    UInt32.le_iff_toNat_le] at digit
  have low : 48 ≤ c.toNat := digit.1
  simp only [isControl, decide_eq_false_iff_not]
  omega

theorem unbroken_of_areDigits (digits : Decimal.AreDigits cs) : Unbroken cs :=
  fun c mem => isControl_of_isDigit (digits c mem)

theorem unbroken_numbered (h : isControl c = true) : Unbroken (numbered c) := by
  have hex : ∀ n < 32,
      [Nat.digitChar (n / 16), Nat.digitChar (n % 16)].all (!isControl ·) = true := by
    decide
  have less : c.toNat < 32 := by simpa [isControl] using h
  have start : Unbroken ['\\', 'u', '0', '0'] := .of_all (by decide)
  exact start.append (.of_all (hex _ less))

theorem unbroken_escaped (c : Char) : Unbroken (escaped c) := by
  unfold escaped
  split
  case h_1 letter known =>
    unfold escapeLetter? at known
    split at known <;> cases known <;> exact .of_all (by decide)
  case h_2 =>
    split
    case isTrue control  => exact unbroken_numbered control
    case isFalse visible => exact List.forall_mem_singleton.mpr (by simpa using visible)

theorem unbroken_quotedChars (s : String) : Unbroken (quotedChars s) := by
  have inside : Unbroken (s.toList.flatMap escaped) := by
    intro c mem
    obtain ⟨d, _, mem⟩ := List.mem_flatMap.mp mem
    exact unbroken_escaped d c mem
  exact .append (.cons (by decide) inside) (.of_all (by decide))

theorem unbroken_exponentChars (scale : Int) : Unbroken (Numeral.exponentChars scale) := by
  unfold Numeral.exponentChars
  split
  case isTrue => exact .of_all (by decide)
  case isFalse =>
    have digits := unbroken_of_areDigits (Decimal.areDigits_toDigits scale.natAbs)
    refine .cons (by decide) (.cons ?_ digits)
    split <;> decide

theorem unbroken_pointed (n places : Nat) : Unbroken (Numeral.pointed n places) := by
  obtain ⟨front, back, pointed⟩ := exists_pointed n places
  rw [pointed.written]
  refine (unbroken_of_areDigits pointed.front_digits).append ?_
  unfold fractionChars
  split
  case h_1 => exact .of_all (by decide)
  case h_2 => exact .cons (by decide) (unbroken_of_areDigits pointed.back_digits)

theorem unbroken_numeral (n : Numeral) : Unbroken n.chars := by
  have magnitude : Unbroken n.magnitude := by
    cases n
    case whole  => exact unbroken_of_areDigits (Decimal.areDigits_toDigits _)
    case scaled => exact (unbroken_pointed _ _).append (unbroken_exponentChars _)
  unfold Numeral.chars
  split
  case isTrue  => exact .cons (by decide) magnitude
  case isFalse => exact magnitude

theorem unbroken_joined {texts : List (List Char)} (all : ∀ cs ∈ texts, Unbroken cs) :
    Unbroken (joined ',' texts) := by
  induction texts
  case nil => exact .of_all (by decide)
  case cons cs texts ih =>
    obtain ⟨first, others⟩ := List.forall_mem_cons.mp all
    cases texts
    case nil  => exact first
    case cons => exact first.append (.cons (by decide) (ih others))

theorem unbroken_itemChars {items : List Json} (all : ∀ j ∈ items, Unbroken j.chars) :
    ∀ cs ∈ itemChars items, Unbroken cs := by
  induction items
  case nil => simp [itemChars]
  case cons j items ih =>
    obtain ⟨first, others⟩ := List.forall_mem_cons.mp all
    rw [itemChars]
    exact List.forall_mem_cons.mpr ⟨first, ih others⟩

theorem unbroken_memberChars {members : List (Option String × Json)}
    (all : ∀ m ∈ members, Unbroken m.2.chars) : ∀ cs ∈ memberChars members, Unbroken cs := by
  induction members
  case nil => simp [memberChars]
  case cons m members ih =>
    obtain ⟨first, others⟩ := List.forall_mem_cons.mp all
    rw [memberChars]
    exact List.forall_mem_cons.mpr
      ⟨(unbroken_quotedChars _).append (.cons (by decide) first), ih others⟩

theorem unbroken_enclosed (opening closing : Char) (first : isControl opening = false)
    (last : isControl closing = false) (inside : Unbroken cs) :
    Unbroken (opening :: cs ++ [closing]) :=
  .append (.cons first inside) (List.forall_mem_singleton.mpr last)

theorem unbroken_chars {j : Json} (h : j.IsWritable) : Unbroken j.chars := by
  induction h
  case scalar h =>
    cases h
    case null     => exact .of_all (by simp [chars, isControl])
    case bool b   => cases b <;> exact .of_all (by simp [chars, isControl])
    case number   => rw [chars]; exact unbroken_numeral _
    case text     => rw [chars]; exact unbroken_quotedChars _
  case array ih =>
    rw [chars]
    exact unbroken_enclosed '[' ']' (by decide) (by decide)
      (unbroken_joined (unbroken_itemChars ih))
  case object ih =>
    rw [chars]
    exact unbroken_enclosed '{' '}' (by decide) (by decide)
      (unbroken_joined (unbroken_memberChars ih))

end unbroken

section denotes

-- An object of just these members in this order, each with a value that its field asks for.
def Lists (fields : List (String × (Json → Prop))) (j : Json) : Prop :=
  ∃ members, j = .object members ∧
    List.Forall₂ (fun field m => m.1 = some field.1 ∧ field.2 m.2) fields members

-- A numeral to which `x` is the nearest number, or null where `x` is no finite number.
def DenotesFloat (x : Float) (j : Json) : Prop :=
  if x.isFinite then ∃ n, j = .number n ∧ n.nearest? = some x else j = .null

def DenotesCount (n : Nat) (j : Json) : Prop :=
  j = .number (.whole false n)

def DenotesText (s : String) (j : Json) : Prop :=
  j = .text (some s)

section

variable {α : Type} (denotes : α → Json → Prop)

def DenotesList (as : List α) (j : Json) : Prop :=
  ∃ items, j = .array items ∧ List.Forall₂ denotes as items

-- The entries of the map and no others, in its order, each under the text of its series.
def DenotesMap (m : OrderedMap Series α) : Json → Prop :=
  Lists (m.entries.map fun e => (e.1.text, denotes e.2))

end

theorem denotesFloat_ofFloat (x : Float) : DenotesFloat x (ofFloat x) := by
  unfold DenotesFloat
  split
  case isTrue finite =>
    obtain ⟨n, written, _, nearest⟩ := exists_ofFloat_eq finite
    exact ⟨n, written, nearest⟩
  case isFalse other =>
    unfold ofFloat
    split
    case h_1 n written =>
      exact absurd (Numeral.isFinite_of_nearest? (Numeral.nearest?_of_ofFloat? written)) other
    case h_2 => rfl

theorem lists_record {fields : List (String × (Json → Prop))} {members : List (String × Json)}
    (h : List.Forall₂ (fun field m => m.1 = field.1 ∧ field.2 m.2) fields members) :
    Lists fields (record members) := by
  refine ⟨_, rfl, List.forall₂_map_right_iff.mpr (h.imp ?_)⟩
  rintro field m ⟨name, value⟩
  exact ⟨congrArg some name, value⟩

theorem denotesList_map {α : Type} {denotes : α → Json → Prop} {value : α → Json}
    (all : ∀ a, denotes a (value a)) (as : List α) :
    DenotesList denotes as (.array (as.map value)) :=
  ⟨_, rfl, List.forall₂_map_right_iff.mpr (List.forall₂_same.mpr fun a _ => all a)⟩

theorem denotesMap_ofMap {α : Type} {denotes : α → Json → Prop} {value : α → Json}
    (all : ∀ a, denotes a (value a)) (m : OrderedMap Series α) :
    DenotesMap denotes m (ofMap Series.text value m) := by
  refine lists_record ?_
  rw [List.forall₂_map_left_iff, List.forall₂_map_right_iff]
  exact List.forall₂_same.mpr fun e _ => ⟨rfl, all e.2⟩

end denotes

end Json

open Json

-- What a value has to be so that a summary, or a part of it, can be read off.

def Span.Denotes (s : Span) : Json → Prop :=
  Lists [("secs", DenotesCount s.seconds), ("nanos", DenotesCount s.subsecond)]

def Percentile.Denotes (p : Percentile) : Json → Prop :=
  Lists
    [("threshold", DenotesFloat p.threshold),
     ("label", DenotesText p.label),
     ("value", DenotesFloat p.value),
     ("count", DenotesCount p.count),
     ("sum", DenotesFloat p.sum),
     ("mean", DenotesFloat p.mean)]

def CounterSummary.Denotes (c : CounterSummary) : Json → Prop :=
  Lists [("value", DenotesFloat c.value), ("values_since_reset", DenotesFloat c.total)]

def TimerSummary.Denotes (t : TimerSummary) : Json → Prop :=
  Lists
    [("count", DenotesCount t.count),
     ("sum", DenotesFloat t.sum),
     ("min", DenotesFloat t.min),
     ("max", DenotesFloat t.max),
     ("mean", DenotesFloat t.mean),
     ("percentiles", DenotesList Percentile.Denotes t.percentiles)]

def Summary.Denotes (s : Summary) : Json → Prop :=
  Lists
    [("timestamp", DenotesText s.timestamp.text),
     ("interval", s.interval.Denotes),
     ("counters", DenotesMap CounterSummary.Denotes s.counters),
     ("gauges", DenotesMap DenotesFloat s.gauges),
     ("timers", DenotesMap TimerSummary.Denotes s.timers),
     ("sets", DenotesMap DenotesCount s.sets)]

theorem Span.denotes_toJson (s : Span) : s.Denotes s.toJson :=
  lists_record (.cons ⟨rfl, rfl⟩ (.cons ⟨rfl, rfl⟩ .nil))

theorem Percentile.denotes_toJson (p : Percentile) : p.Denotes p.toJson := by
  refine lists_record ?_
  simp [denotesFloat_ofFloat, DenotesCount, DenotesText, ofNat, ofString]

theorem CounterSummary.denotes_toJson (c : CounterSummary) : c.Denotes c.toJson := by
  refine lists_record ?_
  simp [denotesFloat_ofFloat]

theorem TimerSummary.denotes_toJson (t : TimerSummary) : t.Denotes t.toJson := by
  have percentiles := denotesList_map Percentile.denotes_toJson t.percentiles
  refine lists_record ?_
  simp [denotesFloat_ofFloat, DenotesCount, ofNat, percentiles]

theorem Summary.denotes_toJson (s : Summary) : s.Denotes s.toJson := by
  have counters := denotesMap_ofMap CounterSummary.denotes_toJson s.counters
  have gauges := denotesMap_ofMap denotesFloat_ofFloat s.gauges
  have timers := denotesMap_ofMap TimerSummary.denotes_toJson s.timers
  have count (n : Nat) : DenotesCount n (ofNat n) := rfl
  have sets := denotesMap_ofMap count s.sets
  refine lists_record ?_
  simp [DenotesText, ofString, s.interval.denotes_toJson, counters, gauges, timers, sets]

theorem Percentile.isWritable_toJson (p : Percentile) : p.toJson.IsWritable :=
  isWritable_record (by simp [isWritable_ofFloat, isWritable_ofNat, isWritable_ofString])

theorem CounterSummary.isWritable_toJson (c : CounterSummary) : c.toJson.IsWritable :=
  isWritable_record (by simp [isWritable_ofFloat])

theorem TimerSummary.isWritable_toJson (t : TimerSummary) : t.toJson.IsWritable := by
  have percentiles : (Json.array (t.percentiles.map Percentile.toJson)).IsWritable :=
    .array (List.forall_mem_map.mpr fun p _ => p.isWritable_toJson)
  exact isWritable_record (by simp [isWritable_ofFloat, isWritable_ofNat, percentiles])

theorem Summary.isWritable_toJson (s : Summary) : s.toJson.IsWritable := by
  have interval : s.interval.toJson.IsWritable :=
    isWritable_record (by simp [isWritable_ofNat])
  exact isWritable_record (by
    simp [isWritable_ofString, interval, isWritable_ofMap CounterSummary.isWritable_toJson,
      isWritable_ofMap isWritable_ofFloat, isWritable_ofMap TimerSummary.isWritable_toJson,
      isWritable_ofMap isWritable_ofNat])

-- The text of a summary is a line by itself, and the line decodes to what the summary holds, with
-- the series of each kind in order.
theorem Summary.jsonLine_decodes (s : Summary) :
    ∃ line : String, s.jsonLine = line ++ "\n" ∧
      (∀ c ∈ line.toList, 0x20 ≤ c.toNat) ∧
      (∃ j, read? line = some j ∧ s.Denotes j) ∧
      s.counters.keys.Pairwise Series.Precedes ∧ s.gauges.keys.Pairwise Series.Precedes ∧
      s.timers.keys.Pairwise Series.Precedes ∧ s.sets.keys.Pairwise Series.Precedes := by
  refine ⟨s.toJson.write, rfl, ?unbroken, ?decodes, Series.precedes_keys _,
    Series.precedes_keys _, Series.precedes_keys _, Series.precedes_keys _⟩
  case unbroken =>
    intro c mem
    rw [write, String.toList_ofList] at mem
    simpa [isControl] using unbroken_chars s.isWritable_toJson c mem
  case decodes => exact ⟨_, read?_write s.isWritable_toJson, s.denotes_toJson⟩

end MetricCollector
