import MetricCollector.Json.Decode
import MetricCollector.Proofs.Outcome

namespace MetricCollector.Json

section decoders

variable {α : Type} {j : Json}

theorem require_eq_ok_iff {o : Option α} {a : α} : require o = .ok a ↔ o = some a := by
  cases o <;> simp [require]

theorem lt_of_toCount {n : Nat} (h : toCount j = .ok n) : n < twoTo 64 := by
  unfold toCount at h
  split at h
  case h_1 =>
    unfold Numeral.toCount? at h
    rw [require_eq_ok_iff] at h
    split at h
    case h_1 =>
      split at h
      case isTrue less => exact Option.some.inj h ▸ less
      case isFalse     => cases h
    case h_2 => cases h
  case h_2 => cases h

theorem toCount_ofNat {n : Nat} (h : n < twoTo 64) : toCount (ofNat n) = .ok n := by
  rw [ofNat, toCount, Numeral.toCount?, if_pos h, require]

theorem toParsed_ofString {parse? : String → Option α} {text : String} {a : α}
    (h : parse? text = some a) : toParsed parse? (ofString text) = .ok a := by
  change require (parse? text) = .ok a
  rw [h, require]

theorem exists_of_toList {item : Decoder α} {as : List α} (h : toList item j = .ok as) :
    ∀ a ∈ as, ∃ i, item i = .ok a := by
  cases j
  case array items =>
    have all := mapM_eq_ok_iff.mp h
    clear h
    induction all
    case nil => exact fun a mem => nomatch mem
    case cons decoded _ ih => exact List.forall_mem_cons.mpr ⟨⟨_, decoded⟩, ih⟩
  all_goals cases h

theorem toList_map {item : Decoder α} {encode : α → Json} {as : List α}
    (h : ∀ a ∈ as, item (encode a) = .ok a) : toList item (.array (as.map encode)) = .ok as :=
  mapM_eq_ok_iff.mpr (List.forall₂_map_left_iff.mpr (List.forall₂_same.mpr h))

end decoders

section records

variable {σ α : Type} {fields : List (Field σ)} {start s s' : σ}

theorem put_field_eq_ok_iff {name : String} {value : Decoder α} {store : σ → α → σ} {j : Json} :
    (field name value store).put s j = .ok s' ↔ ∃ a, value j = .ok a ∧ store s a = s' := by
  change store s <$> value j = .ok s' ↔ _
  cases value j <;> simp [Functor.map, Except.map]

section preservation

variable {P : σ → Prop}

theorem foldlM_member_preserves (keep : ∀ f ∈ fields, ∀ s s' j, P s → f.put s j = .ok s' → P s')
    {members : List (Option String × Json)} {p q : Progress σ} (h : P p.record)
    (run : members.foldlM (Progress.member fields) p = .ok q) : P q.record := by
  induction members generalizing p
  case nil =>
    cases run
    exact h
  case cons m members ih =>
    obtain ⟨p', member, run⟩ := exists_of_bind_eq_ok run
    refine ih ?_ run
    obtain ⟨name, _, member⟩ := exists_of_bind_eq_ok member
    split at member
    case h_1 =>
      cases member
      exact h
    case h_2 f found =>
      split at member
      case isTrue => cases member
      case isFalse =>
        obtain ⟨s', put, member⟩ := exists_of_bind_eq_ok member
        cases member
        exact keep f (List.mem_of_find?_eq_some found) _ _ _ h put

theorem putInOrder_preserves (keep : ∀ f ∈ fields, ∀ s s' j, P s → f.put s j = .ok s' → P s')
    {items : List Json} (h : P start) (run : putInOrder fields start items = .ok s) : P s := by
  induction items generalizing fields start
  case nil =>
    rw [putInOrder] at run
    cases run
    exact h
  case cons j items ih =>
    cases fields
    case nil => cases run
    case cons f fields =>
      obtain ⟨s', put, run⟩ := exists_of_bind_eq_ok run
      exact ih (fun f' mem => keep f' (.tail _ mem)) (keep f (.head _) _ _ _ h put) run

-- What holds of the record at the start, and is kept by every field, holds in the end.
theorem toRecord_preserves (keep : ∀ f ∈ fields, ∀ s s' j, P s → f.put s j = .ok s' → P s')
    {j : Json} (h : P start) (decoded : toRecord fields start j = .ok s) : P s := by
  cases j
  case object members =>
    change Progress.record <$> _ = _ at decoded
    cases run : members.foldlM (Progress.member fields) { record := start, given := [] } <;>
      rw [run] at decoded <;> cases decoded
    exact foldlM_member_preserves keep (p := { record := start, given := [] }) h run
  case array items => exact putInOrder_preserves keep h decoded
  all_goals cases decoded

end preservation

-- Fields with what is put into them.
abbrev Entries (σ : Type) := List (Field σ × Json)

def Entries.members (entries : Entries σ) : List (String × Json) :=
  entries.map fun e => (e.1.name, e.2)

def Entries.put (entries : Entries σ) (start : σ) : Except Unreadable σ :=
  entries.foldlM (fun s e => e.1.put s e.2) start

theorem Entries.put_nil : Entries.put ([] : Entries σ) start = .ok start := rfl

theorem Entries.put_cons {name : String} {value : Decoder α} {store : σ → α → σ} {j : Json}
    {rest : Entries σ} :
    Entries.put ((field name value store, j) :: rest) start = (do
      let a ← value j
      rest.put (store start a)) := by
  rw [put, List.foldlM_cons]
  change store start <$> value j >>= _ = _
  cases value j <;> rfl

theorem find?_name_eq {f : Field σ} (names : (fields.map (·.name)).Nodup) (mem : f ∈ fields) :
    fields.find? (·.name = f.name) = some f := by
  induction fields
  case nil => cases mem
  case cons f' fields ih =>
    rw [List.map_cons, List.nodup_cons] at names
    rcases List.mem_cons.mp mem with rfl | mem
    · exact List.find?_cons_of_pos (by simp)
    · rw [List.find?_cons_of_neg]
      · exact ih names.2 mem
      · rw [decide_eq_true_eq]
        intro same
        exact names.1 (same ▸ List.mem_map_of_mem mem)

theorem foldlM_member {entries : Entries σ} (names : (fields.map (·.name)).Nodup)
    (own : ∀ e ∈ entries, e.1 ∈ fields) (once : (entries.map (·.1.name)).Nodup)
    {given : List String} (new : ∀ e ∈ entries, e.1.name ∉ given) :
    Progress.record <$> (entries.members.map fun m => (some m.1, m.2)).foldlM
      (Progress.member fields) { record := start, given } = entries.put start := by
  induction entries generalizing start given
  case nil => rfl
  case cons e entries ih =>
    rw [List.map_cons, List.nodup_cons] at once
    have member : Progress.member fields { record := start, given } (some e.1.name, e.2) =
        (do return { record := ← e.1.put start e.2, given := e.1.name :: given }) := by
      simp only [Progress.member, require, find?_name_eq names (own e (.head _)), bind, Except.bind]
      rw [if_neg (new e (.head _))]
    rw [Entries.members, List.map_cons, List.map_cons, List.foldlM_cons, member, Entries.put,
      List.foldlM_cons]
    cases e.1.put start e.2
    case error => rfl
    case ok s =>
      refine ih (fun e' mem => own e' (.tail _ mem)) once.2 fun e' mem inside => ?_
      rcases List.mem_cons.mp inside with same | inside
      · exact once.1 (same ▸ List.mem_map.mpr ⟨e', mem, rfl⟩)
      · exact new e' (.tail _ mem) inside

theorem toRecord_record {entries : Entries σ} (names : (fields.map (·.name)).Nodup)
    (own : ∀ e ∈ entries, e.1 ∈ fields) (once : (entries.map (·.1.name)).Nodup) (start : σ) :
    toRecord fields start (record entries.members) = entries.put start :=
  foldlM_member names own once fun _ _ none => nomatch none

end records

section texts

variable {α : Type} {decode : Decoder α} {text : String} {a : α}

theorem decodeText_eq_ok_iff :
    decodeText decode text = .ok a ↔ ∃ j, read? text = some j ∧ decode j = .ok a := by
  rw [decodeText, read?]
  generalize Document.read text = document
  obtain ⟨root, complete⟩ := document
  cases root
  case none => cases complete <;> simp [bind, Except.bind, require]
  case some j =>
    cases complete <;> cases decoded : decode j <;>
      simp [bind, Except.bind, require, decoded, pure, Except.pure, throw, throwThe,
        MonadExceptOf.throw]

end texts

end MetricCollector.Json
