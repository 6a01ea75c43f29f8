import MetricCollector.Collection.OrderedSet.Lemmas
import MetricCollector.Proofs.Text.Pieces
import MetricCollector.Proofs.Wire.Reading

namespace MetricCollector.Record

open Text (Pieces Trimmed)

-- What follows `mark` in the components that begin with it.
def marked (mark : Char) (components : List (List Char)) : List (List Char) :=
  components.filterMap (Text.after? [mark])

def IsValue (text : List Char) (x : Float) : Prop :=
  Decimal.readChars? text = some x ∧ x.isFinite = true

def IsRate (text : List Char) (x : Float) : Prop :=
  Decimal.readChars? text = some x ∧ 0.0 < x ∧ x ≤ 1.0

-- A line `name:text|tag|…`. The name ends at the first colon.
structure Layout (line : String) (name text tag : List Char) (others : List (List Char)) :
    Prop where
  pieces : Pieces '|' line.toList ((name ++ ':' :: text) :: tag :: others)
  first  : ':' ∉ name
  named  : name ≠ []

-- An empty namespace is as good as none.
inductive InScope (name : String) : Option String → String → Prop
  | bare {scope : Option String} (empty : ∀ s ∈ scope, s = "") : InScope name scope name
  | within {s : String} (nonempty : s ≠ "") : InScope name (some s) (s ++ "." ++ name)

-- The tags are those of the last list.
inductive Lists (others : List (List Char)) (tag : String) : Prop
  | intro {list part : List Char} {parts : List (List Char)}
    (last : list ∈ (marked '#' others).getLast?) (split : Pieces ',' list parts)
    (mem : part ∈ parts) (trimmed : Trimmed part tag.toList) (nonempty : tag ≠ "")

-- What a record says.
inductive Denotes (scope : Option String) (line : String) (m : Metric) : Prop
  | intro {name text tag : List Char} {others : List (List Char)}
    (layout : Layout line name text tag others)
    (ofName : InScope (String.ofList name) scope m.name)
    (ofValue : IsValue text m.value)
    (ofKind : tag = m.kind.tag.toList)
    (rates : ∀ rate ∈ marked '@' others, ∃ x, IsRate rate x)
    (ofRates : match (marked '@' others).getLast? with
      | none      => m.sampleRate = 1.0
      | some rate => IsRate rate m.sampleRate)
    (ofTags : ∀ tag, tag ∈ m.tags.toList ↔ Lists others tag)

-- What is wrong with a line that is no record. Each case takes up where the one before it holds.
inductive Fails (line : String) : RecordError → Prop
  | unseparated {head : List Char} {tail : List (List Char)}
    (pieces : Pieces '|' line.toList (head :: tail)) (colonless : ':' ∉ head) :
    Fails line (.malformed line)
  | unnamed {text : List Char} {tail : List (List Char)}
    (pieces : Pieces '|' line.toList ((':' :: text) :: tail)) :
    Fails line (.malformed line)
  | valueless {name : List Char} {tail : List (List Char)}
    (pieces : Pieces '|' line.toList ((name ++ [':']) :: tail)) (first : ':' ∉ name)
    (named : name ≠ []) :
    Fails line (.missingValue line)
  | kindless {name text : List Char}
    (pieces : Pieces '|' line.toList [name ++ ':' :: text]) (first : ':' ∉ name)
    (named : name ≠ []) (valued : text ≠ []) :
    Fails line (.malformed line)
  | unknownKind {name text tag : List Char} {others : List (List Char)}
    (layout : Layout line name text tag others) (valued : text ≠ [])
    (unknown : ∀ k : Kind, tag ≠ k.tag.toList) :
    Fails line (.unknownKind ⟨String.ofList tag⟩)
  | badValue {name text : List Char} {others : List (List Char)} {k : Kind}
    (layout : Layout line name text k.tag.toList others) (valued : text ≠ [])
    (bad : ∀ x, ¬IsValue text x) :
    Fails line (.invalidValue (String.ofList text))
  | badRate {name text rate : List Char} {others before after : List (List Char)} {k : Kind}
    {x : Float} (layout : Layout line name text k.tag.toList others) (ofValue : IsValue text x)
    (rates : marked '@' others = before ++ rate :: after)
    (good : ∀ rate ∈ before, ∃ x, IsRate rate x) (bad : ∀ x, ¬IsRate rate x) :
    Fails line (.invalidSampleRate (String.ofList rate))

section

variable {ε α β : Type}

theorem forall_exists_iff {R : α → β → Prop} {as : List α} :
    (∀ a ∈ as, ∃ b, R a b) ↔ ∃ bs, List.Forall₂ R as bs := by
  induction as
  case nil => simp
  case cons a as ih =>
    rw [List.forall_mem_cons, ih]
    constructor
    case mp =>
      rintro ⟨⟨b, first⟩, bs, rest⟩
      exact ⟨b :: bs, .cons first rest⟩
    case mpr =>
      rintro ⟨_, _ | ⟨first, rest⟩⟩
      exact ⟨⟨_, first⟩, _, rest⟩

theorem forall₂_getLast? {R : α → β → Prop} {as : List α} {bs : List β}
    (h : List.Forall₂ R as bs) : Option.Rel R as.getLast? bs.getLast? := by
  induction h
  case nil => exact .none
  case cons a b as bs first _ ih =>
    rw [List.getLast?_cons, List.getLast?_cons]
    generalize as.getLast? = a? at ih
    generalize bs.getLast? = b? at ih
    cases ih
    case none => exact .some first
    case some h => exact .some h

end

section

variable {text tag : List Char} {x : Float} {e : RecordError}

theorem value_eq (text : List Char) :
    value text = ((Decimal.readChars? text).filter (·.isFinite)).elim
      (.error (.invalidValue (String.ofList text))) .ok := by
  unfold value
  cases Decimal.readChars? text
  case none   => rfl
  case some x => cases h : x.isFinite <;> simp [h, Option.filter]

theorem sampleRate_eq (text : List Char) :
    sampleRate text = ((Decimal.readChars? text).filter Metric.isSampleRate).elim
      (.error (.invalidSampleRate (String.ofList text))) .ok := by
  unfold sampleRate
  cases Decimal.readChars? text
  case none   => rfl
  case some x => cases h : Metric.isSampleRate x <;> simp [h, Option.filter]

theorem isSampleRate_iff : Metric.isSampleRate x = true ↔ 0.0 < x ∧ x ≤ 1.0 := by
  simp [Metric.isSampleRate]

theorem value_eq_ok_iff : value text = .ok x ↔ IsValue text x := by
  rw [value_eq, elim_eq_ok_iff, Option.filter_eq_some_iff, IsValue]

theorem value_eq_error (bad : ∀ x, ¬IsValue text x) :
    value text = .error (.invalidValue (String.ofList text)) := by
  rw [value_eq, elim_eq_error_iff]
  refine ⟨Option.eq_none_iff_forall_ne_some.mpr fun x h => bad x ?_, rfl⟩
  exact Option.filter_eq_some_iff.mp h

theorem sampleRate_eq_ok_iff : sampleRate text = .ok x ↔ IsRate text x := by
  rw [sampleRate_eq, elim_eq_ok_iff, Option.filter_eq_some_iff, isSampleRate_iff, IsRate]

theorem sampleRate_eq_error (bad : ∀ x, ¬IsRate text x) :
    sampleRate text = .error (.invalidSampleRate (String.ofList text)) := by
  rw [sampleRate_eq, elim_eq_error_iff]
  refine ⟨Option.eq_none_iff_forall_ne_some.mpr fun x h => bad x ?_, rfl⟩
  rw [Option.filter_eq_some_iff, isSampleRate_iff] at h
  exact h

theorem kind_tag (k : Kind) : kind k.tag.toList = .ok k := by
  simp [kind]

theorem kind_eq_error (unknown : ∀ k : Kind, tag ≠ k.tag.toList) :
    kind tag = .error (.unknownKind ⟨String.ofList tag⟩) := by
  have none : Kind.ofTag? (String.ofList tag) = none := by
    refine Option.eq_none_iff_forall_ne_some.mpr fun k h => unknown k ?_
    rw [Kind.ofTag?_eq_some_iff.mp h, String.toList_ofList]
  simp [kind, none]

theorem IsValue.ne_nil (h : IsValue text x) : text ≠ [] := by
  rintro rfl
  cases h.1

theorem IsValue.unique {y : Float} (h : IsValue text x) (h' : IsValue text y) : x = y :=
  Option.some.inj (h.1.symm.trans h'.1)

theorem IsRate.unique {y : Float} (h : IsRate text x) (h' : IsRate text y) : x = y :=
  Option.some.inj (h.1.symm.trans h'.1)

end

theorem inScope_iff {scope : Option String} {name full : String} :
    InScope name scope full ↔ qualified scope name = full where
  mp h := by
    cases h
    case bare empty =>
      cases scope
      case none   => rfl
      case some s => simp [qualified, empty s rfl]
    case within s nonempty => simp [qualified, nonempty]
  mpr h := by
    subst h
    cases scope
    case none => exact .bare (by simp)
    case some s =>
      rw [qualified]
      split
      case isTrue empty     => exact .bare (by simpa using empty)
      case isFalse nonempty => exact .within nonempty

theorem mem_tags_iff {list : List Char} {tag : String} :
    tag ∈ (tags list).toList ↔
      ∃ part ∈ list.splitOn ',', Trimmed part tag.toList ∧ tag ≠ "" := by
  rw [tags, OrderedSet.mem_ofList_iff]
  simp only [List.mem_map, List.mem_filter, decide_eq_true_eq, Text.trimmed_iff]
  constructor
  case mp =>
    rintro ⟨_, ⟨⟨part, mem, rfl⟩, nonempty⟩, rfl⟩
    exact ⟨part, mem, String.toList_ofList.symm, by simpa using nonempty⟩
  case mpr =>
    rintro ⟨part, mem, trimmed, nonempty⟩
    refine ⟨tag.toList, ⟨⟨part, mem, trimmed⟩, ?_⟩, String.ofList_toList⟩
    simpa using nonempty

-- The tags of the last list, if there is a list.
def lastTags (lists : List (List Char)) : TagSet :=
  (lists.getLast?.map tags).getD .empty

theorem mem_lastTags_iff {others : List (List Char)} {tag : String} :
    tag ∈ (lastTags (marked '#' others)).toList ↔ Lists others tag := by
  constructor
  case mp =>
    intro mem
    cases last : (marked '#' others).getLast?
    case none => simp [lastTags, last, OrderedSet.empty] at mem
    case some list =>
      rw [lastTags, last, Option.map_some, Option.getD_some, mem_tags_iff] at mem
      obtain ⟨part, mem, trimmed, nonempty⟩ := mem
      exact .intro last (Text.pieces_splitOn ',' list) mem trimmed nonempty
  case mpr =>
    rintro ⟨last, split, mem, trimmed, nonempty⟩
    rw [lastTags, Option.mem_def.mp last, Option.map_some, Option.getD_some, mem_tags_iff,
      split.splitOn_eq]
    exact ⟨_, mem, trimmed, nonempty⟩

-- A metric with the last of the rates and the tags of the last of the lists.
def completed (m : Metric) (lists : List (List Char)) (rates : List Float) : Metric :=
  { m with sampleRate := rates.getLast?.getD m.sampleRate
           tags := (lists.getLast?.map tags).getD m.tags }

theorem marked_cons_self (mark : Char) (text : List Char) (others : List (List Char)) :
    marked mark ((mark :: text) :: others) = text :: marked mark others := by
  simp [marked, Text.after?]

theorem marked_cons_of_ne {mark : Char} {component : List Char}
    (other : component.head? ≠ some mark) (others : List (List Char)) :
    marked mark (component :: others) = marked mark others := by
  cases component
  case nil         => rfl
  case cons c text =>
    have : mark ≠ c := fun h => other (by simp [h])
    simp [marked, Text.after?, this]

-- Only the components with a mark have an effect, those with a rate before all others.
theorem foldlM_addComponent (m : Metric) (others : List (List Char)) :
    others.foldlM addComponent m =
      (completed m (marked '#' others)) <$> (marked '@' others).mapM sampleRate := by
  induction others generalizing m
  case nil => rfl
  case cons component others ih =>
    rw [List.foldlM_cons]
    unfold addComponent
    split
    case h_1 rate =>
      rw [marked_cons_self, marked_cons_of_ne (by simp), List.mapM_cons]
      cases sampleRate rate
      case error e => rfl
      case ok x =>
        change others.foldlM addComponent { m with sampleRate := x } = _
        rw [ih]
        change _ = _ <$> (List.mapM sampleRate _ >>= fun xs => pure (x :: xs))
        cases (marked '@' others).mapM sampleRate
        case error e => rfl
        case ok xs =>
          change Except.ok _ = Except.ok _
          simp [completed, List.getLast?_cons]
    case h_2 list =>
      rw [marked_cons_self, marked_cons_of_ne (by simp)]
      change others.foldlM addComponent { m with tags := tags list } = _
      rw [ih]
      congr 1
      funext rates
      simp only [completed, List.getLast?_cons, Option.map_some, Option.getD_some]
      cases (marked '#' others).getLast? <;> rfl
    case h_3 noRate noList =>
      rw [marked_cons_of_ne, marked_cons_of_ne]
      exact ih m
      all_goals
        cases component
        case nil => simp
        case cons c text => simp_all

theorem mapM_sampleRate {texts : List (List Char)} {rates : List Float}
    (h : List.Forall₂ IsRate texts rates) : texts.mapM sampleRate = .ok rates :=
  mapM_eq_ok_iff.mpr (h.imp fun _ _ => sampleRate_eq_ok_iff.mpr)

-- Where not all of the texts are rates, there is a first that is none.
theorem all_rates_or_bad (texts : List (List Char)) :
    (∀ text ∈ texts, ∃ x, IsRate text x) ∨ ∃ before rate after,
      texts = before ++ rate :: after ∧ (∀ text ∈ before, ∃ x, IsRate text x) ∧
        ∀ x, ¬IsRate rate x := by
  induction texts
  case nil => exact .inl (by simp)
  case cons text texts ih =>
    by_cases rate : ∃ x, IsRate text x
    case neg => exact .inr ⟨[], text, texts, rfl, by simp, not_exists.mp rate⟩
    case pos =>
      rcases ih with good | ⟨before, bad, after, rfl, good, none⟩
      · exact .inl (List.forall_mem_cons.mpr ⟨rate, good⟩)
      · exact .inr ⟨text :: before, bad, after, rfl, List.forall_mem_cons.mpr ⟨rate, good⟩, none⟩

section

variable {scope : Option String} {line : String} {head name text tag : List Char}
variable {tail others : List (List Char)}

-- What the reader goes on with once it has a name and a value text.
def decoded (scope : Option String) (name text tag : List Char) (others : List (List Char)) :
    Except RecordError Metric := do
  let k ← kind tag
  let x ← value text
  others.foldlM addComponent { name := qualified scope (String.ofList name), kind := k, value := x }

theorem parse_unseparated (pieces : Pieces '|' line.toList (head :: tail))
    (colonless : ':' ∉ head) : parse scope line = .error (.malformed line) := by
  simp only [parse, pieces.splitOn_eq, Text.cutAt?_eq_none_iff.mpr colonless]
  rfl

theorem parse_named (pieces : Pieces '|' line.toList ((name ++ ':' :: text) :: tail))
    (first : ':' ∉ name) :
    parse scope line =
      if name = [] then .error (.malformed line)
      else if text = [] then .error (.missingValue line)
      else match tail with
        | []            => .error (.malformed line)
        | tag :: others => decoded scope name text tag others := by
  simp only [parse, pieces.splitOn_eq, Text.cutAt?_append first]
  split
  case isTrue => rfl
  case isFalse =>
    split
    case isTrue => rfl
    case isFalse => cases tail <;> rfl

namespace Layout

theorem unique (h : Layout line name text tag others) {name' text' tag' : List Char}
    {others' : List (List Char)} (h' : Layout line name' text' tag' others') :
    name = name' ∧ text = text' ∧ tag = tag' ∧ others = others' := by
  obtain ⟨head, rest⟩ := List.cons.inj (h.pieces.splitOn_eq.symm.trans h'.pieces.splitOn_eq)
  obtain ⟨rfl, rfl⟩ := List.cons.inj rest
  obtain ⟨rfl, rfl⟩ := Text.append_cons_inj h.first h'.first head
  exact ⟨rfl, rfl, rfl, rfl⟩

theorem parse_eq (h : Layout line name text tag others) (valued : text ≠ []) :
    parse scope line = decoded scope name text tag others := by
  rw [parse_named h.pieces h.first, if_neg h.named, if_neg valued]

variable {k : Kind} {x : Float}

theorem parse_valued (h : Layout line name text k.tag.toList others) (ofValue : IsValue text x) :
    parse scope line =
      completed { name := qualified scope (String.ofList name), kind := k, value := x }
        (marked '#' others) <$> (marked '@' others).mapM sampleRate := by
  rw [h.parse_eq ofValue.ne_nil, decoded, kind_tag, value_eq_ok_iff.mpr ofValue]
  exact foldlM_addComponent ..

theorem parse_rated (h : Layout line name text k.tag.toList others) (ofValue : IsValue text x)
    {rates : List Float} (ofRates : List.Forall₂ IsRate (marked '@' others) rates) :
    parse scope line = .ok (completed
      { name := qualified scope (String.ofList name), kind := k, value := x }
        (marked '#' others) rates) := by
  rw [h.parse_valued ofValue, mapM_sampleRate ofRates]
  rfl

-- What is read is what the line says.
theorem denotes (h : Layout line name text k.tag.toList others) (ofValue : IsValue text x)
    {rates : List Float} (ofRates : List.Forall₂ IsRate (marked '@' others) rates) :
    Denotes scope line (completed
      { name := qualified scope (String.ofList name), kind := k, value := x }
        (marked '#' others) rates) := by
  have allRates := forall_exists_iff.mpr ⟨rates, ofRates⟩
  refine .intro h (inScope_iff.mpr rfl) ofValue rfl allRates ?_ fun tag => mem_lastTags_iff
  have last := forall₂_getLast? ofRates
  simp only [completed]
  generalize (marked '@' others).getLast? = text? at last
  generalize rates.getLast? = rate? at last
  cases last
  case none        => rfl
  case some isRate => exact isRate

end Layout

theorem layout_denotes_or_fails (layout : Layout line name text tag others) (valued : text ≠ []) :
    (∃ m, Denotes scope line m) ∨ ∃ e, Fails line e := by
  by_cases known : ∃ k : Kind, tag = k.tag.toList
  case neg => exact .inr ⟨_, .unknownKind layout valued (not_exists.mp known)⟩
  case pos =>
    obtain ⟨k, rfl⟩ := known
    by_cases ofValue : ∃ x, IsValue text x
    case neg => exact .inr ⟨_, .badValue layout valued (not_exists.mp ofValue)⟩
    case pos =>
      obtain ⟨x, ofValue⟩ := ofValue
      rcases all_rates_or_bad (marked '@' others) with good | ⟨_, _, _, rates, good, bad⟩
      · obtain ⟨rates, all⟩ := forall_exists_iff.mp good
        exact .inl ⟨_, layout.denotes ofValue all⟩
      · exact .inr ⟨_, .badRate layout ofValue rates good bad⟩

-- A line says one thing only.
theorem Denotes.unique {m m' : Metric} (h : Denotes scope line m) (h' : Denotes scope line m') :
    m = m' := by
  cases h
  case intro layout ofName ofValue ofKind _ ofRates ofTags =>
    cases h'
    case intro layout' ofName' ofValue' ofKind' _ ofRates' ofTags' =>
      obtain ⟨rfl, rfl, rfl, rfl⟩ := layout.unique layout'
      have name : m.name = m'.name := (inScope_iff.mp ofName).symm.trans (inScope_iff.mp ofName')
      have value : m.value = m'.value := ofValue.unique ofValue'
      have kind : m.kind = m'.kind := by
        have := kind_tag m.kind
        rw [← ofKind, ofKind', kind_tag] at this
        exact (Except.ok.inj this).symm
      have tags : m.tags = m'.tags :=
        OrderedSet.eq_of_mem_iff fun tag => (ofTags tag).trans (ofTags' tag).symm
      have sampleRate : m.sampleRate = m'.sampleRate := by
        split at ofRates
        case h_1 none =>
          rw [none] at ofRates'
          exact ofRates.trans ofRates'.symm
        case h_2 rate last =>
          rw [last] at ofRates'
          exact ofRates.unique ofRates'
      cases m
      cases m'
      simp_all

theorem Denotes.parse_eq {m : Metric} (h : Denotes scope line m) : parse scope line = .ok m := by
  have whole := h
  cases h
  case intro name text tag others layout ofName ofValue ofKind rates ofRates ofTags =>
    subst ofKind
    obtain ⟨read, all⟩ := forall_exists_iff.mp rates
    rw [layout.parse_rated ofValue all, (layout.denotes ofValue all).unique whole]

theorem Fails.parse_eq {e : RecordError} (h : Fails line e) : parse scope line = .error e := by
  cases h
  case unseparated pieces colonless => exact parse_unseparated pieces colonless
  case unnamed text tail pieces =>
    have pieces : Pieces '|' line.toList (([] ++ ':' :: text) :: tail) := pieces
    exact parse_named pieces (List.not_mem_nil)
  case valueless pieces first named => rw [parse_named pieces first, if_neg named, if_pos rfl]
  case kindless pieces first named valued =>
    rw [parse_named pieces first, if_neg named, if_neg valued]
  case unknownKind layout valued unknown =>
    rw [layout.parse_eq valued, decoded, kind_eq_error unknown]
    rfl
  case badValue layout valued bad =>
    rw [layout.parse_eq valued, decoded, kind_tag, value_eq_error bad]
    rfl
  case badRate layout ofValue rates good bad =>
    have good : ∀ rate ∈ _, ∃ x, sampleRate rate = .ok x := fun rate mem =>
      (good rate mem).imp fun _ => sampleRate_eq_ok_iff.mpr
    rw [layout.parse_valued ofValue, rates, mapM_eq_error good (sampleRate_eq_error bad)]
    rfl

-- A line says something, or there is something wrong with it.
theorem denotes_or_fails (scope : Option String) (line : String) :
    (∃ m, Denotes scope line m) ∨ ∃ e, Fails line e := by
  have pieces := Text.pieces_splitOn '|' line.toList
  cases split : line.toList.splitOn '|'
  case nil => exact absurd split (List.splitOn_ne_nil '|' _)
  case cons head tail =>
    rw [split] at pieces
    by_cases colon : ':' ∈ head
    case neg => exact .inr ⟨_, .unseparated pieces colon⟩
    case pos =>
      obtain ⟨name, text, rfl, first⟩ := List.eq_append_cons_of_mem colon
      by_cases named : name = []
      case pos => exact .inr ⟨_, .unnamed (named ▸ pieces)⟩
      case neg =>
        by_cases valued : text = []
        case pos => exact .inr ⟨_, .valueless (valued ▸ pieces) first named⟩
        case neg =>
          cases tail
          case nil => exact .inr ⟨_, .kindless pieces first named valued⟩
          case cons tag others => exact layout_denotes_or_fails ⟨pieces, first, named⟩ valued

variable (scope line)

theorem parse_eq_ok_iff (m : Metric) : parse scope line = .ok m ↔ Denotes scope line m where
  mp h := by
    rcases denotes_or_fails scope line with ⟨m', sound⟩ | ⟨e, fails⟩
    · exact Except.ok.inj (sound.parse_eq.symm.trans h) ▸ sound
    · cases fails.parse_eq.symm.trans h
  mpr h := h.parse_eq

theorem parse_eq_error_iff (e : RecordError) : parse scope line = .error e ↔ Fails line e where
  mp h := by
    rcases denotes_or_fails scope line with ⟨m, sound⟩ | ⟨e', fails⟩
    · cases sound.parse_eq.symm.trans h
    · exact Except.error.inj (fails.parse_eq.symm.trans h) ▸ fails
  mpr h := h.parse_eq

end

-- Components that come to the same: what is marked is the same, or they are the same in another
-- order and nothing is marked twice.
inductive Alike (others others' : List (List Char)) : Prop
  | marked (rates : marked '@' others = marked '@' others')
    (lists : marked '#' others = marked '#' others')
  | swapped (perm : others.Perm others') (rate : (Record.marked '@' others).length ≤ 1)
    (list : (Record.marked '#' others).length ≤ 1)

theorem eq_of_perm_of_length_le_one {α : Type} {xs ys : List α} (perm : xs.Perm ys)
    (single : xs.length ≤ 1) : xs = ys := by
  match xs, single with
  | [],  _ => exact perm.nil_eq
  | [x], _ => exact (List.perm_singleton.mp perm.symm).symm

theorem Alike.marked_eq {others others' : List (List Char)} (h : Alike others others') :
    Record.marked '@' others = Record.marked '@' others' ∧
      Record.marked '#' others = Record.marked '#' others' := by
  cases h
  case marked rates lists => exact ⟨rates, lists⟩
  case swapped perm rate list =>
    have same : ∀ mark, (Record.marked mark others).length ≤ 1 →
        Record.marked mark others = Record.marked mark others' := fun mark =>
      eq_of_perm_of_length_le_one (perm.filterMap (Text.after? [mark]))
    exact ⟨same '@' rate, same '#' list⟩

theorem decoded_eq_of_alike {others others' : List (List Char)} (h : Alike others others')
    (scope : Option String) (name text tag : List Char) :
    decoded scope name text tag others = decoded scope name text tag others' := by
  obtain ⟨rates, lists⟩ := h.marked_eq
  simp only [decoded, foldlM_addComponent, rates, lists]

theorem parse_of_alike {scope : Option String} {line line' : String} {name text tag : List Char}
    {others others' : List (List Char)} (h : Layout line name text tag others)
    (h' : Layout line' name text tag others') (alike : Alike others others') :
    parse scope line = parse scope line' ∨
      parse scope line = .error (.missingValue line) ∧
        parse scope line' = .error (.missingValue line') := by
  by_cases valued : text = []
  case pos =>
    subst valued
    exact .inr ⟨Fails.parse_eq (.valueless h.pieces h.first h.named),
      Fails.parse_eq (.valueless h'.pieces h'.first h'.named)⟩
  case neg =>
    rw [h.parse_eq valued, h'.parse_eq valued]
    exact .inl (decoded_eq_of_alike alike ..)

-- A line is read just if it is a record, and as what it says. Otherwise the first thing that is
-- wrong with it is told. Components without a mark, and the order of those with different marks,
-- make no difference; a line without a value is told with its own text.
theorem parse_exact (scope : Option String) (line : String) :
    (∀ m, parse scope line = .ok m ↔ Denotes scope line m) ∧
      (∀ e, parse scope line = .error e ↔ Fails line e) ∧
      ∀ name text tag others line' others', Layout line name text tag others →
        Layout line' name text tag others' → Alike others others' →
          parse scope line = parse scope line' ∨
            parse scope line = .error (.missingValue line) ∧
              parse scope line' = .error (.missingValue line') :=
  ⟨parse_eq_ok_iff scope line, parse_eq_error_iff scope line,
    fun _ _ _ _ _ _ layout layout' alike => parse_of_alike layout layout' alike⟩

-- A rate and a list of tags in either order.
theorem parse_exact_swapped :
    parse none "a:1|c|@0.5|#x" = parse none "a:1|c|#x|@0.5" := by
  have layout : Layout "a:1|c|@0.5|#x" ['a'] ['1'] ['c'] [['@', '0', '.', '5'], ['#', 'x']] :=
    ⟨Text.pieces_iff.mpr (by decide), by decide, by decide⟩
  have layout' : Layout "a:1|c|#x|@0.5" ['a'] ['1'] ['c'] [['#', 'x'], ['@', '0', '.', '5']] :=
    ⟨Text.pieces_iff.mpr (by decide), by decide, by decide⟩
  have read : (parse none "a:1|c|@0.5|#x").isOk = true := by decide +kernel
  rcases (parse_exact none "a:1|c|@0.5|#x").2.2 _ _ _ _ _ _ layout layout'
    (.swapped (.swap ..) (by decide) (by decide)) with same | ⟨missing, _⟩
  · exact same
  · cases missing ▸ read

end MetricCollector.Record
