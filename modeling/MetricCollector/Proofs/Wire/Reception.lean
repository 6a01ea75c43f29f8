import Mathlib.Data.List.Perm.Basic
import MetricCollector.Proofs.Engine.Observations
import MetricCollector.Proofs.Wire.Reading

namespace MetricCollector

-- A packet that was received, and by whom.
structure Arrival where
  receiver : Nat
  packet   : List UInt8

-- A record of a packet that was received.
structure Item where
  -- The number of the packet, and the place in it.
  packet : Nat
  place  : Nat
  -- What reading the record came to.
  result : Except RecordError Metric

namespace Item

def metric? (i : Item) : Option Metric :=
  i.result.toOption

theorem result_eq_ok {i : Item} {m : Metric} (h : i.metric? = some m) : i.result = .ok m := by
  unfold metric? at h
  cases read : i.result <;> rw [read] at h <;> cases h
  rfl

def isRejected (i : Item) : Bool :=
  i.metric?.isNone

-- Every record could be read or not.
theorem length_eq (items : List Item) :
    items.length = (items.filterMap metric?).length + items.countP isRejected := by
  rw [List.length_filterMap_eq_countP, List.length_eq_countP_add_countP (·.metric?.isSome)]
  refine congrArg _ (List.countP_congr fun i _ => ?_)
  simp [isRejected]

-- Records of one packet come in the order in which they stand in it.
def InOrder (a b : Item) : Prop :=
  a.packet = b.packet → a.place < b.place

-- The records of the packet with number `n`.
def ofPacket (scope : Option String) (n : Nat) (packet : List UInt8) : List Item :=
  (Packet.parse scope packet).mapIdx fun place result => { packet := n, place, result }

variable {scope : Option String} {n : Nat} {packet : List UInt8} {i : Item}

theorem map_result_ofPacket (scope : Option String) (n : Nat) (packet : List UInt8) :
    (ofPacket scope n packet).map result = Packet.parse scope packet :=
  List.ext_getElem (by simp [ofPacket]) (by simp [ofPacket])

theorem packet_of_mem_ofPacket (mem : i ∈ ofPacket scope n packet) : i.packet = n := by
  obtain ⟨_, _, rfl⟩ := List.mem_mapIdx.mp mem
  rfl

theorem inOrder_ofPacket (scope : Option String) (n : Nat) (packet : List UInt8) :
    (ofPacket scope n packet).Pairwise InOrder := by
  refine List.pairwise_iff_getElem.mpr fun a b ha hb less _ => ?_
  simpa [ofPacket] using less

-- The records of all packets.
def ofPackets (scope : Option String) (packets : List (List UInt8)) : List Item :=
  (packets.mapIdx (ofPacket scope)).flatten

@[simp]
theorem ofPackets_append_singleton (scope : Option String) (packets : List (List UInt8))
    (packet : List UInt8) :
    ofPackets scope (packets ++ [packet]) =
      ofPackets scope packets ++ ofPacket scope packets.length packet := by
  simp [ofPackets, List.mapIdx_concat]

theorem map_result_ofPackets (scope : Option String) (packets : List (List UInt8)) :
    (ofPackets scope packets).map result = packets.flatMap (Packet.parse scope) := by
  induction packets using List.reverseRecOn
  case nil => rfl
  case append_singleton packets packet ih => simp [ih, map_result_ofPacket]

theorem lt_of_mem_ofPackets {packets : List (List UInt8)} (mem : i ∈ ofPackets scope packets) :
    i.packet < packets.length := by
  obtain ⟨_, found, mem⟩ := List.mem_flatten.mp mem
  obtain ⟨n, less, rfl⟩ := List.mem_mapIdx.mp found
  exact packet_of_mem_ofPacket mem ▸ less

end Item

structure Receiver where
  -- The records of its packet that it has not come to.
  todo : List Item := []
  -- The call that it wants to hear of.
  waitsFor : Option Nat := none
  hasLeft  : Bool := false

-- Whether the receiver takes another packet.
def Receiver.isIdle (r : Receiver) : Bool :=
  r.todo.isEmpty && r.waitsFor.isNone && !r.hasLeft

structure Reception where
  course    : Course
  -- What names are put behind.
  scope     : Option String
  receivers : List Receiver
  arrivals  : List Arrival := []
  -- The records that receivers have come to, in that order.
  taken     : List Item := []

namespace Reception

-- What can happen next.
inductive Input
  | receive (n : Nat) (packet : List UInt8)
  -- A receiver goes on.
  | proceed (n : Nat)
  -- A receiver is told to stop before it takes another packet.
  | quit (n : Nat)
  | other (i : MetricCollector.Input)

def create (settings : EngineSettings) (scope : Option String) (receivers : Nat) (now : Moment) :
    Reception where
  course    := .create settings now
  scope     := scope
  receivers := List.replicate receivers {}

-- The records of all packets that were received.
def items (s : Reception) : List Item :=
  Item.ofPackets s.scope (s.arrivals.map Arrival.packet)

def replace (s : Reception) (n : Nat) (r : Receiver) : Reception :=
  { s with receivers := s.receivers.set n r }

@[simp]
theorem taken_replace (s : Reception) (n : Nat) (r : Receiver) : (s.replace n r).taken = s.taken :=
  rfl

def receive (s : Reception) (n : Nat) (packet : List UInt8) (r : Receiver) : Reception :=
  { s.replace n { r with todo := Item.ofPacket s.scope s.arrivals.length packet } with
    arrivals := s.arrivals ++ [⟨n, packet⟩] }

-- A receiver hears of its call. Whoever is turned away because the engine has stopped leaves.
def listen (s : Reception) (n : Nat) (r : Receiver) (call : Nat) : Reception :=
  match s.course.calls[call]?.map Call.admission with
  | some .waiting            => s
  | some (.refused .stopped) => s.replace n { r with waitsFor := none, hasLeft := true }
  | _                        => s.replace n { r with waitsFor := none }

-- A receiver comes to a record, which it hands in or reports as one that could not be read.
def take (s : Reception) (n : Nat) (r : Receiver) (item : Item) (rest : List Item) : Reception :=
  let s := { s with taken := s.taken ++ [item] }
  match item.metric? with
  | none   => { s.replace n { r with todo := rest } with course := s.course.next .unreadable }
  | some m =>
    { s.replace n { r with todo := rest, waitsFor := some s.course.calls.length } with
      course := s.course.next (.call (.submit m)) }

def proceed (s : Reception) (n : Nat) (r : Receiver) : Reception :=
  match r.waitsFor, r.todo with
  | some call, _         => s.listen n r call
  | none, []             => s
  | none, item :: rest   => if r.hasLeft then s else s.take n r item rest

-- What cannot happen at this point changes nothing: a receiver takes one packet after the other.
def next (s : Reception) : Input → Reception
  | .receive n packet =>
    match s.receivers[n]?.filter Receiver.isIdle with
    | some r => s.receive n packet r
    | none   => s
  | .proceed n =>
    match s.receivers[n]? with
    | some r => s.proceed n r
    | none   => s
  | .quit n =>
    match s.receivers[n]?.filter Receiver.isIdle with
    | some r => s.replace n { r with hasLeft := true }
    | none   => s
  | .other i   => if i.isReport then s else { s with course := s.course.next i }

-- Where inputs lead to.
def after (settings : EngineSettings) (scope : Option String) (receivers : Nat) (now : Moment)
    (inputs : List Input) : Reception :=
  inputs.foldl next (create settings scope receivers now)

@[simp]
theorem after_append_singleton (settings : EngineSettings) (scope : Option String)
    (receivers : Nat) (now : Moment) (inputs : List Input) (i : Input) :
    after settings scope receivers now (inputs ++ [i]) =
      (after settings scope receivers now inputs).next i := by
  simp [after]

-- What a step can be.
inductive Step (s : Reception) : Reception → Prop
  | idle : Step s s
  | receive {n : Nat} {r : Receiver} (packet : List UInt8) (found : s.receivers[n]? = some r)
      (idle : r.todo = []) : Step s (s.receive n packet r)
  | replace {n : Nat} {r r' : Receiver} (found : s.receivers[n]? = some r)
      (same : r'.todo = r.todo) : Step s (s.replace n r')
  | take {n : Nat} {r : Receiver} {item : Item} {rest : List Item}
      (found : s.receivers[n]? = some r) (todo : r.todo = item :: rest) :
      Step s (s.take n r item rest)
  | other {i : MetricCollector.Input} (other : i.isReport = false) :
      Step s { s with course := s.course.next i }

theorem step_proceed {s : Reception} {n : Nat} {r : Receiver} (found : s.receivers[n]? = some r) :
    Step s (s.proceed n r) := by
  unfold proceed
  split
  case h_1 =>
    unfold listen
    split
    case h_1 => exact .idle
    case h_2 => exact .replace found rfl
    case h_3 => exact .replace found rfl
  case h_2 => exact .idle
  case h_3 todo =>
    split
    case isTrue  => exact .idle
    case isFalse => exact .take found todo

theorem step_next (s : Reception) (i : Input) : Step s (s.next i) := by
  cases i <;> simp only [next]
  case receive n packet =>
    split
    case h_1 found =>
      obtain ⟨found, idle⟩ := Option.filter_eq_some_iff.mp found
      simp only [Receiver.isIdle, Bool.and_eq_true, List.isEmpty_iff] at idle
      exact .receive packet found idle.left.left
    case h_2 => exact .idle
  case proceed n =>
    split
    case h_1 found => exact step_proceed found
    case h_2       => exact .idle
  case quit n =>
    split
    case h_1 found => exact .replace (Option.filter_eq_some_iff.mp found).left rfl
    case h_2       => exact .idle
  case other i =>
    split
    case isTrue        => exact .idle
    case isFalse other => exact .other (by simpa using other)

-- Every record is with one receiver until it comes to it, and receivers keep to the order of their
-- packets.
structure Sorted (scope : Option String) (s : Reception) : Prop where
  same    : s.scope = scope
  whole   : (s.taken ++ s.receivers.flatMap Receiver.todo).Perm s.items
  trail   : s.taken.Pairwise Item.InOrder
  inOrder : ∀ (n : Nat) (r : Receiver), s.receivers[n]? = some r →
    (s.taken ++ r.todo).Pairwise Item.InOrder
  owned   : ∀ (n : Nat) (r : Receiver), s.receivers[n]? = some r →
    ∀ i ∈ r.todo, ∃ a, s.arrivals[i.packet]? = some a ∧ a.receiver = n

-- What is true of the receiver that is replaced and of all others is true of all.
theorem forall_replace {P : Nat → Receiver → Prop} {rs : List Receiver} {n : Nat} {r : Receiver}
    (others : ∀ m x, m ≠ n → rs[m]? = some x → P m x) (own : P n r) :
    ∀ m x, (rs.set n r)[m]? = some x → P m x := by
  intro m x found
  by_cases same : m = n
  case pos =>
    subst same
    rw [List.getElem?_set_self'] at found
    cases old : rs[m]? <;> simp [old] at found
    exact found ▸ own
  case neg =>
    rw [List.getElem?_set_ne (Ne.symm same)] at found
    exact others m x same found

theorem perm_flatMap_set {rs : List Receiver} {n : Nat} (bound : n < rs.length) (r : Receiver) :
    ((rs.set n r).flatMap Receiver.todo).Perm
      (r.todo ++ (rs.eraseIdx n).flatMap Receiver.todo) :=
  List.Perm.flatMap_right Receiver.todo (List.set_perm_cons_eraseIdx bound r)

-- What a receiver gives away is no longer among the records that are left.
theorem perm_flatMap_replace {rs : List Receiver} {n : Nat} {r r' : Receiver} {front : List Item}
    (found : rs[n]? = some r) (gives : r.todo = front ++ r'.todo) :
    (rs.flatMap Receiver.todo).Perm (front ++ (rs.set n r').flatMap Receiver.todo) := by
  obtain ⟨bound, here⟩ := List.getElem?_eq_some_iff.mp found
  have before := perm_flatMap_set bound r
  have after := perm_flatMap_set bound r'
  rw [← here, List.set_getElem_self, here, gives, List.append_assoc] at before
  exact before.trans (after.symm.append_left front)

namespace Sorted

variable {scope : Option String} {s : Reception} {n : Nat} {r : Receiver}

theorem replace (h : Sorted scope s) (found : s.receivers[n]? = some r) {r' : Receiver}
    (same : r'.todo = r.todo) : Sorted scope (s.replace n r') where
  same    := h.same
  whole   := by
    have gives : r.todo = [] ++ r'.todo := same.symm
    exact ((perm_flatMap_replace found gives).symm.append_left s.taken).trans h.whole
  trail   := h.trail
  inOrder := forall_replace (fun m x _ => h.inOrder m x) (same ▸ h.inOrder n r found)
  owned   := forall_replace (fun m x _ => h.owned m x) (same ▸ h.owned n r found)

theorem lt_of_mem_taken (h : Sorted scope s) {i : Item} (mem : i ∈ s.taken) :
    i.packet < s.arrivals.length := by
  have := h.whole.subset (List.mem_append_left _ mem)
  have less := Item.lt_of_mem_ofPackets this
  rwa [List.length_map] at less

-- The records of a new packet have nothing to do with those of the others.
theorem receive (h : Sorted scope s) (found : s.receivers[n]? = some r) (idle : r.todo = [])
    (packet : List UInt8) : Sorted scope (s.receive n packet r) where
  same    := h.same
  whole   := by
    let new := Item.ofPacket s.scope s.arrivals.length packet
    let r' : Receiver := { r with todo := new }
    obtain ⟨bound, here⟩ := List.getElem?_eq_some_iff.mp found
    have gives : r'.todo = new ++ r.todo := by rw [idle, List.append_nil]
    have moved := perm_flatMap_replace (List.getElem?_set_self bound) gives
    rw [List.set_set, ← here, List.set_getElem_self] at moved
    have items : (s.receive n packet r).items = s.items ++ new := by
      simp [items, Reception.receive, Reception.replace, new]
    rw [items]
    refine ((moved.trans List.perm_append_comm).append_left s.taken).trans ?_
    rw [← List.append_assoc]
    exact h.whole.append_right new
  trail   := h.trail
  inOrder := by
    refine forall_replace (fun m x _ => h.inOrder m x) ?_
    refine List.pairwise_append.mpr ⟨h.trail, Item.inOrder_ofPacket .., fun a ha b hb same => ?_⟩
    have := h.lt_of_mem_taken ha
    rw [same, Item.packet_of_mem_ofPacket hb] at this
    exact absurd this (Nat.lt_irrefl _)
  owned   := by
    refine forall_replace (fun m x _ there i mem => ?others) fun i mem => ?own
    case others =>
      obtain ⟨a, ha, owner⟩ := h.owned m x there i mem
      exact ⟨a, List.getElem?_append_left (List.getElem?_eq_some_iff.mp ha).1 |>.trans ha, owner⟩
    case own =>
      rw [Item.packet_of_mem_ofPacket mem]
      exact ⟨⟨n, packet⟩, List.getElem?_concat_length, rfl⟩

-- What a receiver comes to is next in its packet, and is of no concern to the others.
theorem take (h : Sorted scope s) (found : s.receivers[n]? = some r) {item : Item}
    {rest : List Item} (todo : r.todo = item :: rest) {r' : Receiver} (left : r'.todo = rest)
    (course : Course) :
    Sorted scope { s.replace n r' with taken := s.taken ++ [item], course } where
  same    := h.same
  whole   := by
    have gives : r.todo = [item] ++ r'.todo := by rw [todo, left, List.singleton_append]
    have moved := (perm_flatMap_replace found gives).symm.append_left s.taken
    rw [← List.append_assoc] at moved
    exact moved.trans h.whole
  trail   := by
    have own := h.inOrder n r found
    rw [todo, ← List.singleton_append, ← List.append_assoc] at own
    exact (List.pairwise_append.mp own).left
  inOrder := by
    have own := h.inOrder n r found
    rw [todo] at own
    have before := (List.pairwise_append.mp own).right.right
    refine forall_replace (fun m x other there => ?others) ?own
    case own => rwa [left, List.append_assoc, List.singleton_append]
    case others =>
      have ⟨first, later, cross⟩ := List.pairwise_append.mp (h.inOrder m x there)
      rw [List.append_assoc, List.singleton_append]
      refine List.pairwise_append.mpr ⟨first, List.pairwise_cons.mpr ⟨?_, later⟩, ?_⟩
      case refine_1 =>
        -- The records of one packet are all with one receiver.
        intro b hb same
        obtain ⟨a, ha, owner⟩ := h.owned n r found item (todo ▸ List.mem_cons_self)
        obtain ⟨a', ha', owner'⟩ := h.owned m x there b hb
        rw [← same, ha] at ha'
        cases ha'
        exact absurd (owner'.symm.trans owner) other
      case refine_2 =>
        intro a ha b hb
        cases List.mem_cons.mp hb
        case inl hb => exact before a ha b (hb ▸ List.mem_cons_self)
        case inr hb => exact cross a ha b hb
  owned   := by
    refine forall_replace (fun m x _ => h.owned m x) fun i mem => ?_
    exact h.owned n r found i (todo ▸ List.mem_cons_of_mem _ (left ▸ mem))

end Sorted

-- The records that were taken up are the calls and reports that were made.
structure Tallied (settings : EngineSettings) (now : Moment) (s : Reception) : Prop where
  led      : ∃ inputs, s.course = Course.after settings now inputs
  attended : s.course.engine.inbox.deserted = false
  handed   : Call.observations s.course.calls = s.taken.filterMap Item.metric?
  rejected : s.course.unreadable = s.taken.countP Item.isRejected

namespace Tallied

variable {settings : EngineSettings} {now : Moment} {s : Reception}

-- What receivers do among themselves has no effect.
theorem rest (h : Tallied settings now s) {s' : Reception} (course : s'.course = s.course)
    (taken : s'.taken = s.taken) : Tallied settings now s' :=
  ⟨course ▸ h.led, course ▸ h.attended, course ▸ taken ▸ h.handed, course ▸ taken ▸ h.rejected⟩

theorem input (h : Tallied settings now s) {i : MetricCollector.Input}
    (other : i.isReport = false) : Tallied settings now { s with course := s.course.next i } := by
  obtain ⟨inputs, led⟩ := h.led
  have spared := s.course.spared_next other
  refine ⟨⟨inputs ++ [i], ?led⟩, ?attended, ?handed, ?rejected⟩
  case led      => rw [Course.after_append_singleton, led]
  case attended => exact spared.deserted.trans h.attended
  case handed   => exact spared.observations.trans h.handed
  case rejected => exact spared.unreadable.trans h.rejected

theorem take (h : Tallied settings now s) (n : Nat) (r : Receiver) (item : Item)
    (rest : List Item) : Tallied settings now (s.take n r item rest) := by
  obtain ⟨inputs, led⟩ := h.led
  unfold Reception.take
  split
  case h_1 failed =>
    refine ⟨⟨inputs ++ [.unreadable], ?led⟩, h.attended, ?handed, ?rejected⟩
    case led      => rw [Course.after_append_singleton, ← led]
    case handed   => simpa [failed, Course.next] using h.handed
    case rejected => simpa [Item.isRejected, failed, Course.next] using h.rejected
  case h_2 m read =>
    have next : s.course.next (.call (.submit m)) =
        { s.course with
          engine := (s.course.engine.submit m).2,
          calls  := s.course.calls ++ [⟨.submit m, (s.course.engine.submit m).1⟩] } := by
      simp [Course.next, h.attended, Engine.ask]
    have asked := Engine.asked_ask s.course.engine (.submit m)
    refine ⟨⟨inputs ++ [.call (.submit m)], ?led⟩, ?attended, ?handed, ?rejected⟩
    case led      => rw [Course.after_append_singleton, ← led]
    case attended => simp only [next]; exact asked.deserted.trans h.attended
    case handed   =>
      have own : Call.observations [⟨.submit m, (s.course.engine.submit m).1⟩] = [m] := rfl
      simp [next, read, own, h.handed]
    case rejected => simpa [next, Item.isRejected, read] using h.rejected

end Tallied

theorem Sorted.step {scope : Option String} {s s' : Reception} (h : Sorted scope s)
    (step : Step s s') : Sorted scope s' := by
  cases step
  case idle                      => exact h
  case receive packet found idle => exact h.receive found idle packet
  case replace found same        => exact h.replace found same
  case other                     => exact ⟨h.same, h.whole, h.trail, h.inOrder, h.owned⟩
  case take found todo =>
    unfold Reception.take
    split
    case h_1 => exact h.take found todo rfl _
    case h_2 => exact h.take found todo rfl _

theorem Tallied.step {settings : EngineSettings} {now : Moment} {s s' : Reception}
    (h : Tallied settings now s) (step : Step s s') : Tallied settings now s' := by
  cases step
  case idle        => exact h
  case receive     => exact h.rest rfl rfl
  case replace     => exact h.rest rfl rfl
  case other other => exact h.input other
  case take        => exact h.take ..

-- The table applies whatever could be read.
theorem isSound_of_mem_items {s : Reception} {item : Item} (mem : item ∈ s.items) {m : Metric}
    (read : item.metric? = some m) : m.isSound = true := by
  have parsed : item.result ∈ (s.arrivals.map Arrival.packet).flatMap (Packet.parse s.scope) :=
    Item.map_result_ofPackets s.scope _ ▸ List.mem_map_of_mem mem
  obtain ⟨packet, _, parsed⟩ := List.mem_flatMap.mp parsed
  rw [Item.result_eq_ok read] at parsed
  exact Packet.isSound_of_mem_parse parsed

theorem sorted_after (settings : EngineSettings) (scope : Option String) (receivers : Nat)
    (now : Moment) (inputs : List Input) :
    Sorted scope (after settings scope receivers now inputs) := by
  induction inputs using List.reverseRecOn
  case nil =>
    have idle (n : Nat) (r : Receiver) (found : (List.replicate receivers {})[n]? = some r) :
        r.todo = [] := by
      rw [List.eq_of_mem_replicate (List.mem_of_getElem? found)]
    refine ⟨rfl, ?whole, .nil, fun n r found => ?inOrder, fun n r found i mem => ?owned⟩
    case whole   => simp [after, create, items, Item.ofPackets]
    case inOrder => exact idle n r found ▸ .nil
    case owned   => cases idle n r found ▸ mem
  case append_singleton inputs i ih =>
    exact (after_append_singleton ..).symm ▸ ih.step (step_next _ i)

theorem tallied_after (settings : EngineSettings) (scope : Option String) (receivers : Nat)
    (now : Moment) (inputs : List Input) :
    Tallied settings now (after settings scope receivers now inputs) := by
  induction inputs using List.reverseRecOn
  case nil => exact ⟨⟨[], rfl⟩, rfl, rfl, rfl⟩
  case append_singleton inputs i ih =>
    exact (after_append_singleton ..).symm ▸ ih.step (step_next _ i)

end Reception
end MetricCollector
