import MetricCollector.Proofs.Engine.Ending
import MetricCollector.Proofs.Table.Presence

namespace MetricCollector

open Engine

theorem Command.isStamped_event (c : Command) (now : Moment) (interval : Span) :
    (c.event now).IsStamped now.instant interval := by
  cases c
  case submit   => rfl
  case snapshot => trivial

-- Whatever the table goes through in a turn bears the time of the turn.
theorem Engine.Turn.isStamped {e : Engine} {now : Moment} {log : List Table.Event}
    {r : List Effect × Engine} (t : Turn e now log r) :
    ∀ event ∈ log, event.IsStamped now.instant e.settings.expiryInterval := by
  cases t
  case finish =>
    intro event mem
    cases List.mem_append.mp mem
    case inl mem =>
      obtain ⟨c, _, rfl⟩ := List.mem_map.mp mem
      exact c.isStamped_event now _
    case inr mem =>
      split at mem
      case isTrue  => exact List.mem_singleton.mp mem ▸ trivial
      case isFalse => cases mem
  case flush  => exact fun event mem => List.mem_singleton.mp mem ▸ trivial
  case expire => exact fun event mem => List.mem_singleton.mp mem ▸ ⟨rfl, rfl⟩
  case handle c _ _ _ _ _ _ =>
    exact fun event mem => List.mem_singleton.mp mem ▸ c.isStamped_event now _

theorem Engine.Turn.phase_ne_created {e : Engine} {now : Moment} {log : List Table.Event}
    {r : List Effect × Engine} (t : Turn e now log r) : r.2.phase ≠ .created := by
  cases t
  case finish => exact phase_finish e now ▸ fun h => by cases h
  case flush | expire => exact fun h => by cases h
  case handle running _ _ _ _ =>
    rw [phase_handle]
    exact running ▸ fun h => by cases h

namespace Course

variable {settings : EngineSettings} {c : Course}

-- An input other than a turn leaves the log alone.
theorem log_next_or_turn (c : Course) (i : Input) :
    (c.next i).log = c.log ∨ (c.next i).now = c.now ∧
      ∃ log r, Turn c.engine c.now log r ∧ (c.next i).log = c.log ++ log ∧
        (c.next i).engine = r.2 := by
  cases i
  case turn =>
    simp only [next]
    split
    case h_1       => exact .inl rfl
    case h_2 taken => exact .inr ⟨rfl, _, _, turn_of_turn? taken, rfl, rfl⟩
  case pass | start | call | leave =>
    simp only [next]
    split <;> exact .inl rfl
  case unreadable | stop | await => exact .inl rfl

theorem keeps_after (settings : EngineSettings) (now : Moment) (inputs : List Input) :
    Table.Keeps (after settings now inputs).log settings.expiryInterval
      (after settings now inputs).now.instant := by
  induction inputs using List.reverseRecOn
  case nil => exact fun o ho => by cases ho
  case append_singleton inputs i ih =>
    have same := (recorded_after settings now inputs).same
    rw [after_append_singleton]
    generalize after settings now inputs = c at ih same
    have le := c.now_le_next i
    cases c.log_next_or_turn i
    case inl rests => exact rests ▸ ih.pass le
    case inr turns =>
      obtain ⟨instant, log, r, t, grown, _⟩ := turns
      rw [grown, instant]
      exact ih.append (same ▸ t.isStamped)

end Course

namespace Table

def Event.expiryTime? : Event → Option Instant
  | expire now _ => some now
  | _            => none

-- When series were let expire.
def expiryTimes (log : List Event) : List Instant :=
  log.filterMap Event.expiryTime?

-- The expiries came one interval after another, the first of them one interval after the start.
def ExpiresOnTime (log : List Event) (begun : Instant) (interval : Span) : Prop :=
  ∀ (i : Nat) (time : Instant), (expiryTimes log)[i]? = some time →
    time.nanoseconds = begun.nanoseconds + (i + 1) * interval.nanoseconds

-- No observation of a series was applied later than `since` and not later than `till`.
def Pauses (log : List Event) (k : Series) (since till : Instant) : Prop :=
  ∀ o ∈ sightings log, o.series = k → o.time ≤ since ∨ till < o.time

variable {log more : List Event} {begun since till : Instant} {interval : Span} {k : Series}

@[simp]
theorem expiryTimes_append (log more : List Event) :
    expiryTimes (log ++ more) = expiryTimes log ++ expiryTimes more :=
  List.filterMap_append

theorem ExpiresOnTime.of_append (h : ExpiresOnTime (log ++ more) begun interval) :
    ExpiresOnTime log begun interval := by
  intro i time found
  refine h i time ?_
  obtain ⟨hi, _⟩ := List.getElem?_eq_some_iff.mp found
  rw [expiryTimes_append, List.getElem?_append_left hi, found]

theorem Pauses.of_append (h : Pauses (log ++ more) k since till) : Pauses log k since till :=
  fun o ho => h o (sightings_append .. ▸ List.mem_append_left _ ho)

end Table

-- So far no expiry was late. The next one finds nothing in the table that was not observed for two
-- intervals before.
structure Ticker.Sweeps (expiry : Ticker) (begun : Instant) (interval : Span) (now : Instant)
    (log : List Table.Event) : Prop where
  period  : expiry.period = interval
  due     : expiry.due.nanoseconds =
    begun.nanoseconds + ((Table.expiryTimes log).length + 1) * interval.nanoseconds
  soon    : expiry.due ≤ now.after interval
  past    : ∀ o ∈ Table.sightings log, o.time ≤ now
  cleared : ∀ k since, (since.after interval).after interval < expiry.due →
    Table.Pauses log k since ((since.after interval).after interval) →
      ∀ o ∈ (Life.of k log).sightings, since < o.time

namespace Ticker.Sweeps

variable {expiry : Ticker} {begun now later : Instant} {interval : Span} {log : List Table.Event}

theorem start {pos : 0 < interval.nanoseconds} :
    (Ticker.start begun interval pos).Sweeps begun interval begun [] where
  period  := rfl
  due     := by simp [Ticker.start, Instant.after, Table.expiryTimes]
  soon    := Int.le_refl _
  past    := fun o ho => by cases ho
  cleared := fun k since _ _ o ho => by cases ho

theorem pass (h : expiry.Sweeps begun interval now log) (le : now ≤ later) :
    expiry.Sweeps begun interval later log := by
  refine ⟨h.period, h.due, ?_, fun o ho => Instant.le_trans (h.past o ho) le, h.cleared⟩
  have := h.soon
  simp only [Instant.le_def, Instant.after] at this le ⊢
  omega

theorem await (h : expiry.Sweeps begun interval now log) (spell : Nat) :
    (expiry.await spell).Sweeps begun interval now log :=
  ⟨h.period, h.due, h.soon, h.past, h.cleared⟩

-- Flushes and snapshots do not matter.
theorem look (h : expiry.Sweeps begun interval now log) {event : Table.Event}
    (unseen : event.sighting? = none) (spares : ∀ time span, event ≠ .expire time span) :
    expiry.Sweeps begun interval now (log ++ [event]) := by
  have times : Table.expiryTimes (log ++ [event]) = Table.expiryTimes log := by
    cases event
    case expire time span => exact absurd rfl (spares time span)
    case observe | flush | snapshot => simp [Table.expiryTimes, Table.Event.expiryTime?]
  have seen : Table.sightings (log ++ [event]) = Table.sightings log := by
    simp [Table.sightings, unseen]
  refine ⟨h.period, times ▸ h.due, h.soon, seen ▸ h.past, fun k since late pauses o ho => ?_⟩
  refine h.cleared k since late pauses.of_append o ?_
  rw [Life.of_append_singleton] at ho
  cases event
  case observe m time =>
    have unsound : ¬ (m.isSound = true ∧ m.series = k) := by
      rintro ⟨sound, _⟩
      simp [Table.Event.sighting?, sound] at unseen
    rwa [Life.undergo, if_neg unsound] at ho
  case flush            => exact Life.sightings_flushed _ ▸ ho
  case expire time span => exact absurd rfl (spares time span)
  case snapshot         => exact ho

-- By now it is too late for an observation that an earlier expiry would have found too old.
theorem observe (h : expiry.Sweeps begun interval now log) (m : Metric) :
    expiry.Sweeps begun interval now (log ++ [.observe m now]) := by
  have times : Table.expiryTimes (log ++ [.observe m now]) = Table.expiryTimes log := by
    simp [Table.expiryTimes, Table.Event.expiryTime?]
  refine ⟨h.period, times ▸ h.due, h.soon, fun o ho => ?past, fun k since late pauses o ho => ?_⟩
  case past =>
    rw [Table.sightings_append, List.mem_append] at ho
    cases ho
    case inl ho => exact h.past o ho
    case inr ho =>
      obtain ⟨_, rfl⟩ : m.isSound = true ∧ ⟨m, now⟩ = o := by
        simpa [Table.sightings, Table.Event.sighting?] using ho
      exact Int.le_refl _
  have old := h.cleared k since late pauses.of_append
  rw [Life.of_append_singleton, Life.undergo] at ho
  split at ho
  case isFalse => exact old o ho
  case isTrue =>
    rw [Life.sightings_observed, List.mem_append, List.mem_singleton] at ho
    cases ho
    case inl ho => exact old o ho
    case inr ho =>
      subst ho
      have soon := h.soon
      simp only [Instant.lt_def, Instant.le_def, Instant.after] at late soon ⊢
      omega

-- What was not observed in two intervals before the next tick is older than one interval by now.
theorem expire (h : expiry.Sweeps begun interval now log) (onTime : now = expiry.due)
    {k : Series} {since : Instant}
    (early : ¬ (since.after interval).after interval < expiry.due)
    (late : (since.after interval).after interval < expiry.due.after interval)
    (pauses : Table.Pauses log k since ((since.after interval).after interval)) :
    (Life.of k (log ++ [.expire now interval])).sightings = [] := by
  rw [Life.of_append_singleton, Life.undergo]
  split
  case isTrue => rfl
  case isFalse awake =>
    rw [Row.isIdle, Bool.and_eq_true, Option.any_eq_true] at awake
    by_contra present
    obtain ⟨seen, latest⟩ := Option.ne_none_iff_exists'.mp (mt Life.latest?_eq_none_iff.mp present)
    obtain ⟨o, mem, rfl⟩ := Life.exists_time_eq_of_latest? latest
    have applied := Life.mem_sightings mem
    have past := h.past o applied
    have before := pauses o applied (Life.sound_of_mem mem).right
    have pos : 0 < interval.nanoseconds := h.period ▸ expiry.period_pos
    refine awake ⟨?timed, o.time, latest, decide_eq_true ?idle⟩
    case timed => simpa [Span.isZero] using Nat.ne_of_gt pos
    case idle =>
      show interval.nanoseconds < (now.nanoseconds - o.time.nanoseconds).toNat
      simp only [Instant.lt_def, Instant.le_def, Instant.after] at early late before past
      rw [onTime] at past ⊢
      omega

theorem tick (h : expiry.Sweeps begun interval now log)
    (onTime : Table.ExpiresOnTime (log ++ [.expire now interval]) begun interval) :
    (expiry.tick now).Sweeps begun interval now (log ++ [.expire now interval]) := by
  have times : Table.expiryTimes (log ++ [.expire now interval]) =
      Table.expiryTimes log ++ [now] := by
    simp [Table.expiryTimes, Table.Event.expiryTime?]
  have seen : Table.sightings (log ++ [.expire now interval]) = Table.sightings log := by
    simp [Table.sightings, Table.Event.sighting?]
  have punctual : now = expiry.due := by
    have last := onTime (Table.expiryTimes log).length now (by simp [times])
    have due := h.due
    cases now
    cases hdue : expiry.due
    simp_all
  have next : (expiry.tick now).due = expiry.due.after interval := by
    rw [← h.period]
    refine due_tick_onTime ?_
    simp only [punctual, Instant.le_def, Instant.after]
    omega
  refine ⟨h.period, ?due, ?soon, seen ▸ h.past, fun k since late pauses o ho => ?cleared⟩
  case due =>
    have due := h.due
    rw [next, times, List.length_append, List.length_singleton]
    simp only [Instant.after, Int.natCast_add, Int.add_mul] at due ⊢
    omega
  case soon => rw [next, punctual]; exact Int.le_refl _
  case cleared =>
    by_cases early : (since.after interval).after interval < expiry.due
    case neg =>
      rw [h.expire punctual early (next ▸ late) pauses.of_append] at ho
      cases ho
    case pos =>
      refine h.cleared k since early pauses.of_append o ?_
      rw [Life.of_append_singleton, Life.undergo] at ho
      split at ho
      case isTrue  => cases ho
      case isFalse => exact ho

end Ticker.Sweeps

-- A started engine whose expiries have all been on time.
def Phase.Sweeps (begun : Instant) (interval : Span) (now : Instant) (log : List Table.Event) :
    Phase → Prop
  | .created               => False
  | .running _ none        => interval.isZero = true
  | .running _ (some expiry) => expiry.Sweeps begun interval now log
  | .ended                 => True
  | .failed                => True

namespace Course

variable {settings : EngineSettings} {c : Course} {begun : Instant}

-- Nothing happens to the table before the engine starts.
def IsFresh (c : Course) : Prop :=
  c.engine.phase = .created → c.log = []

theorem isFresh_next (h : c.IsFresh) (i : Input) : (c.next i).IsFresh := by
  cases i <;> simp only [next]
  case turn =>
    split
    case h_1 => exact h
    case h_2 taken => exact fun created => absurd created (turn_of_turn? taken).phase_ne_created
  case call command =>
    split
    case isTrue  => exact h
    case isFalse =>
      have rests := (asked_ask c.engine command).rests
      exact fun created => h (rests.phase.symm.trans created)
  case start =>
    split
    case h_2 => exact h
    case h_1 =>
      have started := started_start c.engine c.now.instant
      generalize c.engine.start c.now.instant = engine at started
      cases started <;> exact fun created => by cases created
  case await spell =>
    unfold Engine.await
    split
    case h_2 => exact h
    case h_1 =>
      split
      case isTrue  => exact h
      case isFalse => exact fun created => by cases created
  case unreadable | stop => exact h
  case pass | leave => split <;> exact h

theorem isFresh_after (settings : EngineSettings) (now : Moment) (inputs : List Input) :
    IsFresh (after settings now inputs) := by
  induction inputs using List.reverseRecOn
  case nil => exact fun _ => rfl
  case append_singleton inputs i ih => exact (after_append_singleton ..).symm ▸ isFresh_next ih i

def Sweeps (settings : EngineSettings) (begun : Instant) (c : Course) : Prop :=
  c.engine.phase.Sweeps begun settings.expiryInterval c.now.instant c.log

theorem sweeps_start (same : c.engine.settings = settings) (created : c.engine.phase = .created)
    (fresh : c.IsFresh) : Sweeps settings c.now.instant (c.next .start) := by
  subst same
  have started := started_start c.engine c.now.instant
  simp only [Sweeps, next, created, fresh created]
  generalize c.engine.start c.now.instant = engine at started
  cases started
  case fails => trivial
  case runs  =>
    simp only [Engine.run]
    split
    case isTrue      => exact .start
    case isFalse off => exact decide_eq_true (Nat.eq_zero_of_not_pos off)

theorem sweeps_turn (h : Sweeps settings begun c) (same : c.engine.settings = settings)
    {log : List Table.Event} {r : List Effect × Engine} (t : Turn c.engine c.now log r)
    (onTime : Table.ExpiresOnTime (c.log ++ log) begun settings.expiryInterval) :
    r.2.phase.Sweeps begun settings.expiryInterval c.now.instant (c.log ++ log) := by
  subst same
  simp only [Sweeps] at h
  cases t
  case finish =>
    rw [phase_finish]
    trivial
  case flush flush expiry running _ _ =>
    rw [running] at h
    cases expiry
    case none => exact h
    case some => exact Ticker.Sweeps.look h rfl fun _ _ he => by cases he
  case expire running _ _ _ =>
    rw [running] at h
    exact Ticker.Sweeps.tick h onTime
  case handle flush expiry command inbox running _ _ _ _ =>
    rw [running] at h
    rw [phase_handle, running]
    cases expiry
    case none => exact h
    case some =>
      cases command
      case submit => exact Ticker.Sweeps.observe h _
      case snapshot => exact Ticker.Sweeps.look h rfl fun _ _ he => by cases he

theorem sweeps_next (h : Sweeps settings begun c) (same : c.engine.settings = settings)
    (i : Input) (onTime : Table.ExpiresOnTime (c.next i).log begun settings.expiryInterval) :
    Sweeps settings begun (c.next i) := by
  cases i <;> simp only [next] at onTime ⊢
  case pass later =>
    split
    case isFalse   => exact h
    case isTrue le =>
      simp only [Sweeps] at h ⊢
      cases hp : c.engine.phase <;> rw [hp] at h
      case created => exact h
      case running flush expiry =>
        cases expiry
        case none => exact h
        case some => exact Ticker.Sweeps.pass h le
      case ended | failed => trivial
  case start =>
    split
    case h_2 => exact h
    case h_1 created =>
      rw [Sweeps, created] at h
      exact h.elim
  case call command =>
    split
    case isTrue  => exact h
    case isFalse =>
      have rests := (asked_ask c.engine command).rests
      exact (congrArg (Phase.Sweeps begun _ _ _) rests.phase).mpr h
  case unreadable | stop => exact h
  case leave => split <;> exact h
  case await spell =>
    unfold Engine.await
    split
    case h_2 => exact h
    case h_1 flush expiry running =>
      split
      case isTrue  => exact h
      case isFalse =>
        rw [Sweeps, running] at h
        cases expiry
        case none => exact h
        case some expiry =>
          simp only [Sweeps, Option.map_some]
          split
          case isTrue  => exact h
          case isFalse => exact Ticker.Sweeps.await h spell
  case turn =>
    cases taken : c.engine.turn? c.now
    case none => exact h
    case some r =>
      simp only [taken] at onTime
      exact sweeps_turn h same (turn_of_turn? taken) onTime

theorem sweeps_after (now : Moment) {before : List Input}
    (created : (after settings now before).engine.phase = .created) {later : List Input}
    (onTime : Table.ExpiresOnTime (after settings now (before ++ .start :: later)).log
      (after settings now before).now.instant settings.expiryInterval) :
    Sweeps settings (after settings now before).now.instant
      (after settings now (before ++ .start :: later)) := by
  induction later using List.reverseRecOn
  case nil =>
    rw [after_append_singleton]
    have same := (recorded_after settings now before).same
    exact sweeps_start same created (isFresh_after settings now before)
  case append_singleton later i ih =>
    rw [← List.cons_append, ← List.append_assoc, after_append_singleton] at onTime ⊢
    obtain ⟨_, grown⟩ := log_next (after settings now (before ++ .start :: later)) i
    have same := (recorded_after settings now (before ++ .start :: later)).same
    exact sweeps_next (ih (Table.ExpiresOnTime.of_append (grown ▸ onTime))) same i onTime

-- An engine that has nothing to do has removed what was not observed in two intervals.
theorem lt_time_of_rests (h : Sweeps settings begun c)
    (timed : settings.expiryInterval.isZero = false) {flush : Ticker} {expiry : Option Ticker}
    (running : c.engine.phase = .running flush expiry) (rests : c.engine.turn? c.now = none)
    {k : Series} {since till : Instant}
    (twice : (since.after settings.expiryInterval).after settings.expiryInterval = till)
    (le : till ≤ c.now.instant) (pauses : Table.Pauses c.log k since till) :
    ∀ o ∈ (Life.of k c.log).sightings, till < o.time := by
  subst twice
  intro o mem
  rw [Sweeps, running] at h
  cases expiry
  case none => cases timed.symm.trans h
  case some expiry =>
    have early := of_decide_eq_false (idle_of_turn?_eq_none running rests expiry rfl)
    have waits := Int.lt_of_le_of_lt le (Int.not_le.mp early)
    have after := Ticker.Sweeps.cleared h k since waits pauses o mem
    have apart := pauses o (Life.mem_sightings mem) (Life.sound_of_mem mem).right
    exact apart.resolve_left (Int.not_le.mpr after)

-- The first part is about every time and every series that was ever observed, the second about an
-- engine that has nothing to do and never let a series expire late, and the third about an engine
-- that lets nothing expire.
theorem series_leave_in_time (settings : EngineSettings) (now : Moment) :
    let e := settings.expiryInterval
    (∀ inputs, let c := after settings now inputs
      c.engine.table = Table.after c.log ∧
      ∀ o ∈ Table.sightings c.log, c.now.instant ≤ o.time.after e →
        c.engine.table.Has o.series o.kind ∧ c.engine.table.lastSeen.find? o.series ≠ none) ∧
    (∀ before later, let start := after settings now before
      let c := after settings now (before ++ .start :: later)
      e ≠ .zero → start.engine.phase = .created →
      Table.ExpiresOnTime c.log start.now.instant e →
      ∀ flush expiry, c.engine.phase = .running flush expiry → c.engine.turn? c.now = none →
      ∀ k since, let till := (since.after e).after e
        till ≤ c.now.instant → Table.Pauses c.log k since till →
          (∀ o ∈ (Life.of k c.log).sightings, till < o.time) ∧
          ((∀ o ∈ Table.sightings c.log, o.series = k → o.time ≤ till) →
            ∀ (further : List Input) more, let c' := further.foldl next c
              c'.log = c.log ++ more → (∀ o ∈ Table.sightings more, o.series ≠ k) →
                c'.engine.table.Lacks k)) ∧
    (e = .zero → ∀ inputs, let c := after settings now inputs
      ∀ o ∈ Table.sightings c.log, c.engine.table.Has o.series o.kind ∧
        c.engine.table.lastSeen.find? o.series ≠ none) := by
  intro e
  have recorded := recorded_after settings now
  have keeps := keeps_after settings now
  refine ⟨?kept, ?gone, ?unlimited⟩
  case kept =>
    refine fun inputs => ⟨(recorded inputs).table, fun o applied young => ?_⟩
    rw [(recorded inputs).table]
    exact Table.has_of_mem_life (keeps inputs o applied (.inr young))
  case unlimited =>
    intro off inputs c o applied
    have off : settings.expiryInterval.isZero = true := congrArg Span.isZero off
    rw [(recorded inputs).table]
    exact Table.has_of_mem_life (keeps inputs o applied (.inl off))
  case gone =>
    intro before later start c timed fresh onTime flush expiry running rests k since till le pauses
    have timed : settings.expiryInterval.isZero = false :=
      Bool.eq_false_iff.mpr fun zero => timed (congrArg Span.mk (of_decide_eq_true zero))
    have sweeps := sweeps_after now fresh onTime
    have young := lt_time_of_rests sweeps timed running rests rfl le pauses
    refine ⟨young, ?_⟩
    intro unseen further more c' grown quiet
    have gone : (Life.of k c.log).sightings = [] :=
      List.eq_nil_iff_forall_not_mem.mpr fun o mem =>
        Int.not_le.mpr (young o mem)
          (unseen o (Life.mem_sightings mem) (Life.sound_of_mem mem).right)
    have reached : c' = after settings now ((before ++ .start :: later) ++ further) := by
      simp only [c', c, after, List.foldl_append]
    rw [reached, (recorded _).table, ← reached, grown]
    exact Table.lacks_of_row (Table.row_eq_absent (Life.sightings_eq_nil_of_append gone quiet))

-- A series that is just as old as the interval survives the first expiry, and not the second.
theorem series_leave_in_time_after_two :
    let settings : EngineSettings :=
      { flushInterval := .ofSeconds 9, expiryInterval := .ofSeconds 1 }
    let m : Metric := { name := "depth", kind := .gauge, value := 1.0 }
    let second (n : Nat) := Moment.origin.movedTo (Moment.origin.instant.after (.ofSeconds n))
    let first := [.call (.submit m), .turn, .pass (second 1), .turn]
    let before : List Input := []
    let once := after settings .origin (before ++ .start :: first)
    let c := after settings .origin (before ++ .start :: (first ++ [.pass (second 2), .turn]))
    once.engine.table.size = 1 ∧ c.engine.table.Lacks m.series := by
  intro settings m second first before once c
  have survives : once.engine.table.size = 1 := by decide +kernel
  have times : Table.expiryTimes c.log = [(second 1).instant, (second 2).instant] := by
    decide +kernel
  have onTime : Table.ExpiresOnTime c.log Moment.origin.instant settings.expiryInterval := by
    rw [Table.ExpiresOnTime, times]
    rintro (_ | _ | _) time found <;> cases found
    case zero      => decide
    case succ.zero => decide
  have seen : ∀ o ∈ Table.sightings c.log, o.time ≤ Moment.origin.instant := by decide +kernel
  have rests : c.engine.turn? c.now = none := Option.isNone_iff_eq_none.mp (by decide +kernel)
  have running : c.engine.phase.ctorIdx = 1 := by decide +kernel
  cases phase : c.engine.phase
  case created => rw [phase] at running; cases running
  case ended   => rw [phase] at running; cases running
  case failed  => rw [phase] at running; cases running
  case running flush expiry =>
    let till := (Moment.origin.instant.after settings.expiryInterval).after settings.expiryInterval
    have le : till ≤ c.now.instant := by decide +kernel
    have early : ∀ o ∈ Table.sightings c.log, o.series = m.series → o.time ≤ till :=
      fun o mem _ => Instant.le_trans (seen o mem) (by decide)
    refine ⟨survives, ?_⟩
    simp only [c] at phase le ⊢
    have leaves := (series_leave_in_time settings .origin).2.1 before _ (by decide) rfl onTime
      flush expiry phase rests m.series Moment.origin.instant le fun o mem _ => .inl (seen o mem)
    have gone := leaves.2 early [] []
    rw [List.foldl_nil, List.append_nil] at gone
    exact gone rfl fun o mem => by cases mem

end Course
end MetricCollector
