import MetricCollector.Proofs.Address.Listening
import MetricCollector.Proofs.CommandLine.Reading
import MetricCollector.Proofs.Settings.Checks

namespace MetricCollector

section replacing

variable {ε α β : Type} {denotes : α → β → Prop} {old new : β} {given? : Option α}

-- What becomes of a value if something may be given for it, where `denotes` tells what it stands
-- for.
inductive Replaces (denotes : α → β → Prop) (old : β) : Option α → β → Prop
  | kept : Replaces denotes old none old
  | replaced {a : α} {new : β} (denoted : denotes a new) : Replaces denotes old (some a) new

theorem replaces_none_iff : Replaces denotes old none new ↔ new = old where
  mp    := by rintro ⟨⟩; rfl
  mpr h := h ▸ .kept

theorem replaces_some_iff {a : α} : Replaces denotes old (some a) new ↔ denotes a new where
  mp  := by rintro (_ | denoted); exact denoted
  mpr := .replaced

theorem elim_eq_iff_replaces {f : α → β} (meaning : ∀ a b, f a = b ↔ denotes a b) :
    given?.elim old f = new ↔ Replaces denotes old given? new := by
  cases given?
  case none   => exact eq_comm.trans replaces_none_iff.symm
  case some a => exact (meaning a new).trans replaces_some_iff.symm

theorem getD_eq_iff_replaces {given? : Option β} :
    given?.getD old = new ↔ Replaces Eq old given? new := by
  cases given?
  case none   => exact eq_comm.trans replaces_none_iff.symm
  case some a => exact replaces_some_iff.symm

theorem elim_pure_eq_ok_iff {read : α → Except ε β} (meaning : ∀ a b, read a = .ok b ↔ denotes a b) :
    given?.elim (pure old) read = .ok new ↔ Replaces denotes old given? new := by
  cases given?
  case some a => exact (meaning a new).trans replaces_some_iff.symm
  case none =>
    constructor
    · rintro ⟨⟩
      exact .kept
    · rintro ⟨⟩
      rfl

-- Giving the same once more does not change anything.
theorem Replaces.again (h : Replaces denotes old given? new) : Replaces denotes new given? new := by
  cases h
  case kept             => exact .kept
  case replaced denoted => exact .replaced denoted

theorem forall_mem_flatMap_toList_iff {f : α → List β} {p : β → Prop} :
    (∀ b ∈ given?.toList.flatMap f, p b) ↔ ∀ a ∈ given?, ∀ b ∈ f a, p b := by
  cases given? <;> simp

end replacing

-- The sinks that have a name, with their default settings.
inductive NamesSink : String → Backend → Prop
  | graphite : NamesSink "graphite" (.graphite {})
  | stdout : NamesSink "stdout" .stdout

theorem NamesSink.nonempty {name : String} {b : Backend} (h : NamesSink name b) : name ≠ "" := by
  cases h <;> decide

theorem exists_namesSink_iff {name : String} :
    (∃ b, NamesSink name b) ↔ name = "graphite" ∨ name = "stdout" := by
  constructor
  case mp =>
    rintro ⟨_, _ | _⟩
    · exact .inl rfl
    · exact .inr rfl
  case mpr =>
    rintro (rfl | rfl)
    · exact ⟨_, .graphite⟩
    · exact ⟨_, .stdout⟩

-- The sinks of a list of names, in the same order. Blanks do not matter, and nothing but blanks is
-- no name.
inductive ListsSinks : List String → List Backend → Prop
  | nil : ListsSinks [] []
  | blank {name : String} {names : List String} {bs : List Backend} (blank : Text.trim name = "")
    (rest : ListsSinks names bs) : ListsSinks (name :: names) bs
  | sink {name : String} {names : List String} {b : Backend} {bs : List Backend}
    (named : NamesSink (Text.trim name) b) (rest : ListsSinks names bs) :
    ListsSinks (name :: names) (b :: bs)

-- What every name is put behind. An empty text is nothing to put it behind.
inductive SetsScope : String → Option String → Prop
  | unset : SetsScope "" none
  | set {scope : String} (nonempty : scope ≠ "") : SetsScope scope (some scope)

theorem setsScope_iff {text : String} {scope : Option String} :
    (if text = "" then none else some text) = scope ↔ SetsScope text scope := by
  split
  case isTrue empty =>
    subst empty
    constructor
    · rintro rfl
      exact .unset
    · rintro (_ | ⟨nonempty⟩)
      · rfl
      · exact absurd rfl nonempty
  case isFalse nonempty =>
    constructor
    · rintro rfl
      exact .set nonempty
    · rintro (_ | _)
      · exact absurd rfl nonempty
      · rfl

namespace Backend

variable {name : String} {b : Backend}

theorem named?_eq_some_iff : named? name = some b ↔ NamesSink name b := by
  constructor
  case mp =>
    intro found
    have same : b.name = name := by simpa using List.find?_some found
    have mem : b ∈ defaults := List.mem_of_find?_eq_some found
    simp only [defaults, List.mem_cons, List.not_mem_nil, or_false] at mem
    rcases mem with rfl | rfl <;> subst same
    · exact .graphite
    · exact .stdout
  case mpr => rintro (_ | _) <;> rfl

theorem ofName_eq : ofName name =
    (named? (Text.trim name)).elim (.error (.unknownBackend (Text.trim name))) .ok := by
  unfold ofName
  split <;> simp_all

theorem ofName_eq_ok_iff : ofName name = .ok b ↔ NamesSink (Text.trim name) b := by
  rw [ofName_eq, elim_eq_ok_iff, named?_eq_some_iff]

theorem checked_ofName (name : String) :
    Checked [(∃ b, NamesSink (Text.trim name) b, .unknownBackend (Text.trim name))]
      (ofName name) :=
  .of_iff (fun _ => ofName_eq_ok_iff) fun _ refused =>
    (elim_eq_error_iff.mp (ofName_eq ▸ refused)).2

end Backend

theorem Address.checked_readListen (text : String) :
    Checked [(∃ a?, Listens text a?, ⟨Text.trim text⟩)] (readListen text) :=
  .of_iff (fun _ => readListen_eq_ok_iff) fun _ => eq_trim_of_readListen

namespace Flags

variable {f : Flags} {s t : Settings}

-- Settings with what the flags were given for replaced, and everything else as it was.
structure Overlays (f : Flags) (s t : Settings) : Prop where
  backends       : Replaces ListsSinks s.backends f.backends? t.backends
  expiryInterval : Replaces Eq s.expiryInterval f.expiryInterval? t.expiryInterval
  flushInterval  : Replaces Eq s.flushInterval f.flushInterval? t.flushInterval
  metricsAddress : Replaces Eq s.metricsAddress f.metricsAddress? t.metricsAddress
  scope          : Replaces SetsScope s.scope f.scope? t.scope
  consoleAddress : Replaces Listens s.consoleAddress f.consoleAddress? t.consoleAddress
  webAddress     : Replaces Listens s.webAddress f.webAddress? t.webAddress
  thresholds     : Replaces (fun ts xs => ts.map Threshold.value = xs) s.thresholds f.thresholds?
    t.thresholds
  others         : t = { s with
    backends       := t.backends
    expiryInterval := t.expiryInterval
    flushInterval  := t.flushInterval
    metricsAddress := t.metricsAddress
    scope          := t.scope
    consoleAddress := t.consoleAddress
    webAddress     := t.webAddress
    thresholds     := t.thresholds }

theorem Overlays.again (h : f.Overlays s t) : f.Overlays t t where
  backends       := h.backends.again
  expiryInterval := h.expiryInterval.again
  flushInterval  := h.flushInterval.again
  metricsAddress := h.metricsAddress.again
  scope          := h.scope.again
  consoleAddress := h.consoleAddress.again
  webAddress     := h.webAddress.again
  thresholds     := h.thresholds.again
  others         := rfl

theorem namedBackends_eq_ok_iff {names : List String} {bs : List Backend} :
    namedBackends names = .ok bs ↔ ListsSinks names bs := by
  rw [namedBackends, mapError_eq_ok_iff, mapM_eq_ok_iff]
  simp only [Backend.ofName_eq_ok_iff]
  induction names generalizing bs
  case nil =>
    rw [List.filter_nil, List.forall₂_nil_left_iff]
    constructor
    · rintro rfl
      exact .nil
    · rintro ⟨⟩
      rfl
  case cons name names ih =>
    rw [List.filter_cons]
    split
    case isTrue some =>
      constructor
      case mp =>
        rintro (_ | ⟨named, rest⟩)
        exact .sink named (ih.mp rest)
      case mpr =>
        rintro (_ | ⟨blank, _⟩ | ⟨named, rest⟩)
        · exact absurd blank (by simpa using some)
        · exact .cons named (ih.mpr rest)
    case isFalse none =>
      constructor
      case mp => exact fun rest => .blank (by simpa using none) (ih.mp rest)
      case mpr =>
        rintro (_ | ⟨_, rest⟩ | ⟨named, _⟩)
        · exact ih.mpr rest
        · exact absurd (decide_eq_true named.nonempty) none

theorem listenAddress_eq_ok_iff {text : String} {a? : Option Address} :
    listenAddress text = .ok a? ↔ Listens text a? := by
  rw [listenAddress, mapError_eq_ok_iff, Address.readListen_eq_ok_iff]

theorem overlay_eq_ok_iff : f.overlay s = .ok t ↔ f.Overlays s t := by
  constructor
  case mp =>
    intro h
    obtain ⟨backends, h₁, h⟩ := exists_of_bind_eq_ok h
    obtain ⟨consoleAddress, h₂, h⟩ := exists_of_bind_eq_ok h
    obtain ⟨webAddress, h₃, h⟩ := exists_of_bind_eq_ok h
    cases h
    exact {
      backends       := (elim_pure_eq_ok_iff fun _ _ => namedBackends_eq_ok_iff).mp h₁
      expiryInterval := getD_eq_iff_replaces.mp rfl
      flushInterval  := getD_eq_iff_replaces.mp rfl
      metricsAddress := getD_eq_iff_replaces.mp rfl
      scope          := (elim_eq_iff_replaces fun _ _ => setsScope_iff).mp rfl
      consoleAddress := (elim_pure_eq_ok_iff fun _ _ => listenAddress_eq_ok_iff).mp h₂
      webAddress     := (elim_pure_eq_ok_iff fun _ _ => listenAddress_eq_ok_iff).mp h₃
      thresholds     := (elim_eq_iff_replaces fun _ _ => Iff.rfl).mp rfl
      others         := rfl }
  case mpr =>
    rintro ⟨backends, expiryInterval, flushInterval, metricsAddress, scope, consoleAddress,
      webAddress, thresholds, others⟩
    rw [← elim_pure_eq_ok_iff fun _ _ => namedBackends_eq_ok_iff] at backends
    rw [← elim_pure_eq_ok_iff fun _ _ => listenAddress_eq_ok_iff] at consoleAddress webAddress
    rw [← getD_eq_iff_replaces] at expiryInterval flushInterval metricsAddress
    rw [← elim_eq_iff_replaces fun _ _ => setsScope_iff] at scope
    rw [← elim_eq_iff_replaces fun _ _ => Iff.rfl] at thresholds
    rw [overlay, backends, ok_bind, consoleAddress, ok_bind, webAddress, ok_bind]
    rw [expiryInterval, flushInterval, metricsAddress, scope, thresholds, ← others]
    rfl

-- What is required of a list of names, and of a text about where to listen.
def sinkChecks (names : List String) : List (Prop × SettingsError) :=
  (names.filter fun name => Text.trim name ≠ "").map fun name =>
    (∃ b, NamesSink (Text.trim name) b, .setting (.unknownBackend (Text.trim name)))

def listenChecks (text : String) : List (Prop × SettingsError) :=
  [(∃ a?, Listens text a?, .setting (.listenAddress ⟨Text.trim text⟩))]

-- Everything that is required of flags, in the order in which it is checked.
def checks (f : Flags) : List (Prop × SettingsError) :=
  f.backends?.toList.flatMap sinkChecks ++
  (f.consoleAddress?.toList.flatMap listenChecks ++ f.webAddress?.toList.flatMap listenChecks)

theorem checked_namedBackends (names : List String) :
    Checked (sinkChecks names) (namedBackends names) := by
  have named := (Checked.mapM Backend.checked_ofName
    (names.filter fun name => Text.trim name ≠ "")).mapError SettingsError.setting
  rwa [List.map_map] at named

theorem checked_listenAddress (text : String) :
    Checked (listenChecks text) (listenAddress text) :=
  (Address.checked_readListen text).mapError fun e => SettingsError.setting (.listenAddress e)

theorem checked_overlay (f : Flags) (s : Settings) : Checked f.checks (f.overlay s) := by
  refine (Checked.elim checked_namedBackends f.backends?).bind fun backends _ => ?_
  refine (Checked.elim checked_listenAddress f.consoleAddress?).bind fun consoleAddress _ => ?_
  rw [← List.append_nil (f.webAddress?.toList.flatMap listenChecks)]
  exact (Checked.elim checked_listenAddress f.webAddress?).bind fun webAddress _ => .done _

theorem exists_overlay_iff : (∃ t, f.overlay s = .ok t) ↔
    (∀ names ∈ f.backends?, ∀ name ∈ names, Text.trim name ≠ "" →
      Text.trim name = "graphite" ∨ Text.trim name = "stdout") ∧
    (∀ text ∈ f.consoleAddress?, ∃ a?, Listens text a?) ∧
    ∀ text ∈ f.webAddress?, ∃ a?, Listens text a? := by
  rw [(f.checked_overlay s).exists_eq_ok_iff]
  simp only [checks, sinkChecks, listenChecks, List.forall_mem_append, forall_mem_flatMap_toList_iff,
    List.forall_mem_map, List.forall_mem_singleton, List.mem_filter, decide_eq_true_eq, and_imp,
    exists_namesSink_iff]

-- Flags are accepted iff all names but blank ones are names of sinks and the texts for the consoles
-- say where to listen; of those that are not, the first is told. What comes of it are the settings
-- with what was given replaced. The same flags do not change these settings, in which thresholds
-- that were given are valid, as are all that can be read from a command line.
theorem overlay_replaces_what_is_given (f : Flags) (s : Settings) :
    ((∃ t, f.overlay s = .ok t) ↔
      (∀ names ∈ f.backends?, ∀ name ∈ names, Text.trim name ≠ "" →
        Text.trim name = "graphite" ∨ Text.trim name = "stdout") ∧
      (∀ text ∈ f.consoleAddress?, ∃ a?, Listens text a?) ∧
      ∀ text ∈ f.webAddress?, ∃ a?, Listens text a?) ∧
    (∀ e, f.overlay s = .error e ↔
      ∃ before p after, f.checks = before ++ (p, e) :: after ∧ (∀ c ∈ before, c.1) ∧ ¬p) ∧
    (∀ t, f.overlay s = .ok t ↔ f.Overlays s t) ∧
    (∀ t, f.overlay s = .ok t →
      f.overlay t = .ok t ∧ ∀ ts ∈ f.thresholds?, t.validThresholds = .ok ts) ∧
    ∀ arguments, Arguments.read arguments = .ok f → f.AreRead := by
  refine ⟨exists_overlay_iff, fun e => (f.checked_overlay s).eq_error_iff,
    fun t => overlay_eq_ok_iff, fun t h => ⟨?again, fun ts given => ?valid⟩,
    fun arguments => areRead_of_read⟩
  case again => exact overlay_eq_ok_iff.mpr (overlay_eq_ok_iff.mp h).again
  case valid =>
    have thresholds := (overlay_eq_ok_iff.mp h).thresholds
    rw [Option.mem_def.mp given, replaces_some_iff] at thresholds
    exact Settings.validThresholds_eq_ok_iff.mpr thresholds

-- All flags, over settings with something else everywhere. A name of no sink is told before what is
-- wrong about a console.
theorem overlay_replaces_what_is_given_everywhere :
    let f : Flags :=
      { backends?       := some [" graphite", "", "stdout\n"]
        expiryInterval? := some .zero
        flushInterval?  := some (.ofSeconds 5)
        metricsAddress? := some (.everywhere 9)
        scope?          := some ""
        consoleAddress? := some " :0126"
        webAddress?     := some "\t"
        thresholds?     := some [.ninety] }
    let s : Settings :=
      { backends := [], scope := some "app", thresholds := [0.0], sinkTimeout? := some (.ofSeconds 2) }
    let t : Settings :=
      { backends       := [.graphite {}, .stdout]
        expiryInterval := .zero
        flushInterval  := .ofSeconds 5
        metricsAddress := .everywhere 9
        scope          := none
        consoleAddress := some (.everywhere 126)
        webAddress     := none
        thresholds     := [90.0]
        sinkTimeout?   := some (.ofSeconds 2) }
    f.overlay s = .ok t ∧ f.overlay t = .ok t ∧ t.validThresholds = .ok [.ninety] ∧
    overlay { f with backends? := some ["influx "], webAddress? := some "9" } s =
      .error (.setting (.unknownBackend "influx")) := by
  intro f s t
  have graphite : Text.trim " graphite" = "graphite" := by decide
  have stdout : Text.trim "stdout\n" = "stdout" := by decide
  have port : IsPort ['0', '1', '2', '6'] 126 := ⟨by decide, by simp [Decimal.AreDigits], by decide⟩
  have sinks : ListsSinks [" graphite", "", "stdout\n"] [.graphite {}, .stdout] :=
    .sink (graphite ▸ .graphite) (.blank (by decide) (.sink (stdout ▸ .stdout) .nil))
  have overlays : f.Overlays s t :=
    { backends       := .replaced sinks
      expiryInterval := .replaced rfl
      flushInterval  := .replaced rfl
      metricsAddress := .replaced rfl
      scope          := .replaced .unset
      consoleAddress := .replaced (.everywhere (by decide) port)
      webAddress     := .replaced (.nowhere (by decide))
      thresholds     := .replaced rfl
      others         := rfl }
  obtain ⟨_, _, meaning, again, _⟩ := overlay_replaces_what_is_given f s
  have replaced := (meaning t).mpr overlays
  obtain ⟨same, valid⟩ := again t replaced
  refine ⟨replaced, same, valid _ rfl, ?_⟩
  refine ((overlay_replaces_what_is_given _ s).2.1 _).mpr
    ⟨[], ∃ b, NamesSink "influx" b, _, rfl, List.forall_mem_nil _, ?_⟩
  rw [exists_namesSink_iff]
  decide

end Flags
end MetricCollector
