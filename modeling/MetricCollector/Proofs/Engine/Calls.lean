import Mathlib.Data.List.Forall2
import Mathlib.Data.List.TakeWhile
import MetricCollector.Proofs.Engine.Course

namespace MetricCollector.Call

def isOverflow (call : Call) : Bool :=
  call.admission = .refused .queueOverflow

-- The commands that got into the queue.
def accepted (calls : List Call) : List Command :=
  (calls.filter isQueued).map command

-- The commands of those that wait.
def pending (calls : List Call) : List Command :=
  (calls.filter isWaiting).map command

def overflows (calls : List Call) : Nat :=
  calls.countP isOverflow

-- Nobody got in while somebody waits that came before.
def InTurn (calls : List Call) : Prop :=
  calls.Pairwise fun a b => a.isWaiting = true → b.isQueued = false

-- How a call goes on. Only a caller that waits is yet to be told something.
structure Becomes (a b : Call) : Prop where
  command   : b.command = a.command
  admission : b.admission = a.admission ∨
    a.isWaiting = true ∧ (b.admission = .queued ∨ b.admission = .refused .stopped)

-- Calls keep their places, and each goes on as a call may.
def GoOn (calls later : List Call) : Prop :=
  ∀ (i : Nat) a, calls[i]? = some a → ∃ b, later[i]? = some b ∧ a.Becomes b

variable {calls : List Call} {call : Call}

@[simp]
theorem accepted_nil : accepted [] = [] := rfl

@[simp]
theorem pending_nil : pending [] = [] := rfl

theorem accepted_cons (call : Call) (calls : List Call) :
    accepted (call :: calls) =
      if call.isQueued then call.command :: accepted calls else accepted calls := by
  rw [accepted, List.filter_cons]
  split <;> rfl

theorem pending_cons (call : Call) (calls : List Call) :
    pending (call :: calls) =
      if call.isWaiting then call.command :: pending calls else pending calls := by
  rw [pending, List.filter_cons]
  split <;> rfl

@[simp]
theorem accepted_append (calls more : List Call) :
    accepted (calls ++ more) = accepted calls ++ accepted more := by
  simp [accepted]

@[simp]
theorem pending_append (calls more : List Call) :
    pending (calls ++ more) = pending calls ++ pending more := by
  simp [pending]

@[simp]
theorem overflows_append (calls more : List Call) :
    overflows (calls ++ more) = overflows calls + overflows more :=
  List.countP_append

@[simp]
theorem accepted_singleton (command : Command) (reply : Engine.Admission) :
    accepted [⟨command, reply⟩] = if reply = .queued then [command] else [] := by
  simp [accepted_cons, isQueued]

@[simp]
theorem pending_singleton (command : Command) (reply : Engine.Admission) :
    pending [⟨command, reply⟩] = if reply = .waiting then [command] else [] := by
  simp [pending_cons, isWaiting]

@[simp]
theorem overflows_singleton (command : Command) (reply : Engine.Admission) :
    overflows [⟨command, reply⟩] = if reply = .refused .queueOverflow then 1 else 0 := by
  simp [overflows, isOverflow, List.countP_cons]

theorem isQueued_eq_false (h : call.isWaiting = true) : call.isQueued = false := by
  have : call.admission = .waiting := by simpa [isWaiting] using h
  simp [isQueued, this]

theorem pending_eq_nil_iff : pending calls = [] ↔ ∀ call ∈ calls, call.isWaiting = false := by
  simp [pending]

-- Nobody that waits comes before those that got in.
theorem accepted_eq_nil (h : ∀ b ∈ calls, b.isQueued = false) : accepted calls = [] := by
  simpa [accepted] using h

theorem inTurn_append_singleton (h : InTurn calls)
    (first : call.isQueued = true → pending calls = []) : InTurn (calls ++ [call]) := by
  refine List.pairwise_append.mpr ⟨h, List.pairwise_singleton .., fun a ha b hb hw => ?_⟩
  rw [List.mem_singleton.mp hb, ← Bool.not_eq_true]
  intro queued
  have := pending_eq_nil_iff.mp (first queued) a ha
  rw [this] at hw
  cases hw

theorem pending_seat (n : Nat) (calls : List Call) :
    pending (seat n calls) = (pending calls).drop n := by
  induction calls generalizing n
  case nil => cases n <;> rfl
  case cons call calls ih =>
    cases n
    case zero => rfl
    case succ n =>
      by_cases h : call.isWaiting = true
      case pos =>
        have : isWaiting { call with admission := .queued } = false := rfl
        simp [seat, h, pending_cons, this, ih]
      case neg => simp [seat, h, pending_cons, ih]

-- Those that get in now are behind those that got in before.
theorem accepted_seat {n : Nat} {calls : List Call} (h : InTurn calls) :
    accepted (seat n calls) = accepted calls ++ (pending calls).take n := by
  induction calls generalizing n
  case nil => cases n <;> rfl
  case cons call calls ih =>
    have ⟨first, rest⟩ := List.pairwise_cons.mp h
    cases n
    case zero => simp [seat]
    case succ n =>
      by_cases hw : call.isWaiting = true
      case pos =>
        have none := accepted_eq_nil fun b hb => first b hb hw
        have admitted : isQueued { call with admission := .queued } = true := rfl
        simp [seat, hw, accepted_cons, pending_cons, admitted, isQueued_eq_false hw, none, ih rest]
      case neg =>
        cases hq : call.isQueued <;> simp [seat, hw, accepted_cons, pending_cons, hq, ih rest]

theorem inTurn_seat (n : Nat) {calls : List Call} (h : InTurn calls) :
    InTurn (seat n calls) := by
  induction calls generalizing n
  case nil => cases n <;> exact h
  case cons call calls ih =>
    have ⟨_, rest⟩ := List.pairwise_cons.mp h
    cases n
    case zero => exact h
    case succ n =>
      simp only [seat]
      split
      case isTrue => exact .cons (fun _ _ hw => by cases hw) (ih n rest)
      case isFalse hw => exact .cons (fun _ _ hw' => absurd hw' hw) (ih (n + 1) rest)

theorem becomes_refl (call : Call) : call.Becomes call :=
  ⟨rfl, .inl rfl⟩

theorem Becomes.trans {a b c : Call} (h : a.Becomes b) (h' : b.Becomes c) : a.Becomes c := by
  refine ⟨h'.command.trans h.command, ?_⟩
  cases h.admission
  case inl same =>
    rw [← same]
    have : b.isWaiting = a.isWaiting := by simp [isWaiting, same]
    exact this ▸ h'.admission
  case inr told =>
    cases h'.admission
    case inl same => exact .inr (same ▸ told)
    case inr told' => exact .inr ⟨told.left, told'.right⟩

-- A call that waits no longer is not counted again.
theorem Becomes.isOverflow_eq {a b : Call} (h : a.Becomes b) : b.isOverflow = a.isOverflow := by
  cases h.admission
  case inl same => simp [isOverflow, same]
  case inr told =>
    have waiting : a.admission = .waiting := by simpa [isWaiting] using told.left
    cases told.right
    case inl queued  => simp [isOverflow, waiting, queued]
    case inr refused => simp [isOverflow, waiting, refused]

theorem becomes_seat (n : Nat) (calls : List Call) :
    List.Forall₂ Becomes calls (seat n calls) := by
  induction calls generalizing n
  case nil => cases n <;> exact .nil
  case cons call calls ih =>
    cases n
    case zero => exact List.forall₂_same.mpr fun call _ => becomes_refl call
    case succ n =>
      simp only [seat]
      split
      case isTrue hw => exact .cons ⟨rfl, .inr ⟨hw, .inl rfl⟩⟩ (ih n)
      case isFalse   => exact .cons (becomes_refl call) (ih (n + 1))

theorem becomes_refuse (calls : List Call) : List.Forall₂ Becomes calls (refuse calls) := by
  rw [refuse, List.forall₂_map_right_iff, List.forall₂_same]
  intro call _
  split
  case isTrue hw => exact ⟨rfl, .inr ⟨hw, .inr rfl⟩⟩
  case isFalse   => exact becomes_refl call

theorem goOn_refl (calls : List Call) : GoOn calls calls :=
  fun _ a ha => ⟨a, ha, becomes_refl a⟩

theorem GoOn.trans {calls later latest : List Call} (h : GoOn calls later)
    (h' : GoOn later latest) : GoOn calls latest := by
  intro i a ha
  have ⟨b, hb, ab⟩ := h i a ha
  have ⟨c, hc, bc⟩ := h' i b hb
  exact ⟨c, hc, ab.trans bc⟩

theorem goOn_append (calls more : List Call) : GoOn calls (calls ++ more) := by
  intro i a ha
  have ⟨hi, _⟩ := List.getElem?_eq_some_iff.mp ha
  exact ⟨a, (List.getElem?_append_left hi).trans ha, becomes_refl a⟩

theorem goOn_of_forall₂ {calls later : List Call} (h : List.Forall₂ Becomes calls later) :
    GoOn calls later := by
  induction h
  case nil => exact fun _ _ h => by cases h
  case cons a b calls later becomes _ ih =>
    intro i a' ha
    cases i
    case zero =>
      cases ha
      exact ⟨b, rfl, becomes⟩
    case succ i => exact ih i a' ha

theorem hear_self {q : Inbox Command} (opened : q.closed = false) (calls : List Call) :
    hear q q calls = calls := by
  simp [hear, opened, seat]

theorem becomes_hear (before after : Inbox Command) (calls : List Call) :
    List.Forall₂ Becomes calls (hear before after calls) := by
  unfold hear
  split
  case isTrue  => exact becomes_refuse calls
  case isFalse => exact becomes_seat _ calls

theorem overflows_eq {calls calls' : List Call} (h : List.Forall₂ Becomes calls calls') :
    overflows calls' = overflows calls := by
  induction h
  case nil => rfl
  case cons a b calls calls' becomes _ ih =>
    simp only [overflows, List.countP_cons, becomes.isOverflow_eq] at ih ⊢
    rw [ih]

theorem accepted_refuse (calls : List Call) : accepted (refuse calls) = accepted calls := by
  induction calls
  case nil => rfl
  case cons call calls ih =>
    simp only [refuse, List.map_cons] at ih ⊢
    split
    case isTrue hw =>
      have : isQueued { call with admission := .refused .stopped } = false := rfl
      simp [accepted_cons, isQueued_eq_false hw, this, ih]
    case isFalse => simp [accepted_cons, ih]

theorem isWaiting_of_mem_refuse (h : call ∈ refuse calls) : call.isWaiting = false := by
  have ⟨call', _, h⟩ := List.mem_map.mp h
  split at h
  case isTrue       => exact h ▸ rfl
  case isFalse idle => exact h ▸ by simpa using idle

theorem inTurn_refuse (calls : List Call) : InTurn (refuse calls) := by
  refine List.pairwise_of_forall_mem_list fun a ha b _ hw => ?_
  rw [isWaiting_of_mem_refuse ha] at hw
  cases hw

-- Only a call that waits can change.
theorem Becomes.eq_of_not_isWaiting {a b : Call} (h : a.Becomes b) (told : a.isWaiting = false) :
    b = a := by
  cases h.admission
  case inl same =>
    have command := h.command
    cases a
    cases b
    exact congr (congrArg Call.mk command) same
  case inr waits => cases told.symm.trans waits.left

-- Calls of which none waits stay as they are.
theorem take_eq_of_goOn {later : List Call} (goOn : GoOn calls later) {n : Nat}
    (le : n ≤ calls.length) (told : ∀ a ∈ calls.take n, a.isWaiting = false) :
    later.take n = calls.take n := by
  refine List.ext_getElem? fun i => ?_
  rw [List.getElem?_take, List.getElem?_take]
  split
  case isFalse => rfl
  case isTrue hi =>
    have found := List.getElem?_eq_getElem (Nat.lt_of_lt_of_le hi le)
    obtain ⟨b, hb, becomes⟩ := goOn i _ found
    have mem : calls[i] ∈ calls.take n := List.mem_take_iff_getElem.mpr ⟨i, by omega, rfl⟩
    rw [hb, found, becomes.eq_of_not_isWaiting (told _ mem)]

-- Whoever got in left nobody waiting behind.
theorem isWaiting_eq_false_of_mem_take (inTurn : InTurn calls) {n : Nat}
    (found : calls[n]? = some call) (queued : call.isQueued = true) :
    ∀ a ∈ calls.take (n + 1), a.isWaiting = false := by
  intro a mem
  obtain ⟨hn, rfl⟩ := List.getElem?_eq_some_iff.mp found
  obtain ⟨i, hi, rfl⟩ := List.mem_take_iff_getElem.mp mem
  rw [← Bool.not_eq_true]
  intro waits
  by_cases last : i = n
  case pos =>
    subst last
    rw [isQueued_eq_false waits] at queued
    cases queued
  case neg =>
    have before := List.pairwise_iff_getElem.mp inTurn i n (by omega) hn (by omega) waits
    cases queued.symm.trans before

-- Those that have got in stay in front of those that get in later.
theorem accepted_isPrefix {later : List Call} (inTurn : InTurn calls) (goOn : GoOn calls later)
    {n : Nat} (le : calls.length ≤ n) : accepted calls <+: accepted (later.take n) := by
  let told := calls.takeWhile (!·.isWaiting)
  let others := calls.dropWhile (!·.isWaiting)
  have parts : told ++ others = calls := List.takeWhile_append_dropWhile
  have short : told.length ≤ calls.length := (List.takeWhile_prefix _).length_le
  have first : calls.take told.length = told := by
    nth_rewrite 1 [← parts]
    exact List.take_left' rfl
  have same : later.take told.length = told := by
    refine (take_eq_of_goOn goOn short fun a mem => ?_).trans first
    rw [first] at mem
    simpa using List.mem_takeWhile_imp mem
  -- The first of the others waits, so that none of them got in.
  have none : accepted others = [] := by
    refine accepted_eq_nil fun b mem => ?_
    have inTurn : InTurn others := List.Pairwise.sublist (List.dropWhile_sublist _) inTurn
    have waits := List.head?_dropWhile_not (!·.isWaiting) calls
    cases hothers : others
    case nil             => cases hothers ▸ mem
    case cons call rest =>
      have head : call.isWaiting = true := by
        have : (calls.dropWhile (!·.isWaiting)).head? = some call := congrArg List.head? hothers
        rw [this] at waits
        simpa using waits
      rw [hothers] at inTurn mem
      cases List.mem_cons.mp mem
      case inl hb  => exact hb ▸ isQueued_eq_false head
      case inr mem => exact (List.pairwise_cons.mp inTurn).left b mem head
  have whole : accepted calls = accepted told := by
    rw [← parts, accepted_append, none, List.append_nil]
  refine ⟨accepted ((later.take n).drop told.length), ?_⟩
  have cut : (later.take n).take told.length = told := by
    rw [List.take_take, Nat.min_eq_left (Nat.le_trans short le), same]
  rw [whole, ← accepted_append]
  nth_rewrite 1 [← cut]
  rw [List.take_append_drop]

-- A command that got in has its place among the callers, behind those that got in before.
theorem exists_place {calls : List Call} {before after : List Command} {c : Command}
    (h : accepted calls = before ++ c :: after) :
    ∃ i, calls[i]? = some ⟨c, .queued⟩ ∧ accepted (calls.take i) = before := by
  induction calls generalizing before
  case nil => simp at h
  case cons call calls ih =>
    rw [accepted_cons] at h
    split at h
    case isTrue queued =>
      cases before
      case nil =>
        obtain ⟨rfl, -⟩ := List.cons.inj h
        have admission : call.admission = .queued := by simpa [isQueued] using queued
        exact ⟨0, by simp [← admission], rfl⟩
      case cons command before =>
        obtain ⟨rfl, rest⟩ := List.cons.inj h
        obtain ⟨i, found, first⟩ := ih rest
        exact ⟨i + 1, found, by simp [accepted_cons, queued, first]⟩
    case isFalse refused =>
      obtain ⟨i, found, first⟩ := ih h
      exact ⟨i + 1, found, by simp [accepted_cons, refused, first]⟩

end MetricCollector.Call
