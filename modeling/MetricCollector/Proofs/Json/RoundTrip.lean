import MetricCollector.Json.Decode
import MetricCollector.Proofs.Json.Numbers
import MetricCollector.Proofs.Json.Scalars

namespace MetricCollector.Json

-- Whether nothing of a value is lost when it is written: strings and names denote texts, and
-- numbers have the form in which they are read.
inductive IsWritable : Json → Prop
  | scalar {j : Json} (h : IsScalar j) : IsWritable j
  | array {items : List Json} (all : ∀ j ∈ items, IsWritable j) : IsWritable (.array items)
  | object {members : List (Option String × Json)} (names : ∀ m ∈ members, m.1.isSome)
    (all : ∀ m ∈ members, IsWritable m.2) : IsWritable (.object members)

theorem isWritable_record {members : List (String × Json)} (all : ∀ m ∈ members, m.2.IsWritable) :
    (record members).IsWritable :=
  .object (List.forall_mem_map.mpr fun _ _ => rfl) (List.forall_mem_map.mpr all)

theorem isWritable_ofFloat (x : Float) : (ofFloat x).IsWritable := by
  unfold ofFloat
  split
  case h_1 n written => exact .scalar (.number (Numeral.isPlain_of_ofFloat? written))
  case h_2           => exact .scalar .null

theorem isWritable_ofNat (n : Nat) : (ofNat n).IsWritable :=
  .scalar (.number trivial)

theorem isWritable_ofString (s : String) : (ofString s).IsWritable :=
  .scalar (.text s)

theorem isWritable_ofMap {κ α : Type} [Ord κ] {name : κ → String} {value : α → Json}
    (all : ∀ a, (value a).IsWritable) (m : OrderedMap κ α) : (ofMap name value m).IsWritable :=
  isWritable_record (List.forall_mem_map.mpr fun e _ => all e.2)

theorem exists_chars_eq_cons {j : Json} (h : j.IsWritable) :
    ∃ c cs, j.chars = c :: cs ∧ isSpace c = false ∧ c ≠ ']' := by
  cases h
  case scalar h =>
    obtain ⟨c, cs, first, starts⟩ := h.exists_chars_eq_cons
    exact ⟨c, cs, first, starts.1, starts.2.2.2.1⟩
  case array  => exact ⟨'[', _, by rw [chars]; rfl, by decide⟩
  case object => exact ⟨'{', _, by rw [chars]; rfl, by decide⟩

section

variable {c : Char} {cs rest : List Char} {fuel : Nat}

theorem skip_cons (h : isSpace c = false) (cs : List Char) : skip (c :: cs) = c :: cs :=
  List.dropWhile_cons_of_neg (by simp [h])

theorem valueIn_scalar {j : Json} (h : IsScalar j) (ends : Ends rest) :
    valueIn (fuel + 1) (j.chars ++ rest) = .whole j rest := by
  have read := scalar?_chars h ends
  obtain ⟨c, cs, first, space, bracket, brace, _⟩ := h.exists_chars_eq_cons
  rw [first, List.cons_append] at read ⊢
  rw [valueIn, skip_cons space]
  split
  case h_1 same => exact absurd (List.cons.inj same).1 bracket
  case h_2 same => exact absurd (List.cons.inj same).1 brace
  case h_3      => rw [read]

-- Whether a value is read back from its text, given enough fuel for the text alone.
def IsRead (j : Json) : Prop :=
  ∀ fuel rest, 2 * j.chars.length ≤ fuel → Ends rest →
    valueIn fuel (j.chars ++ rest) = .whole j rest

theorem memberName?_text (name : String) (cs : List Char) :
    memberName? (skip (textChars (some name) ++ ':' :: cs)) = some (some name, cs) := by
  have read := string?_flatMap_escaped name (':' :: cs)
  have quoted : textChars (some name) ++ ':' :: cs =
      '"' :: (name.toList.flatMap escaped ++ '"' :: ':' :: cs) := by
    simp [textChars, quotedChars]
  rw [quoted, skip_cons (by decide), memberName?]
  simp [read, skip_cons (show isSpace ':' = false by decide)]

-- The induction is on the items that are left; each takes the fuel of its own text.
theorem itemsIn_joined {items : List Json} (all : ∀ j ∈ items, IsRead j) (nonempty : items ≠ [])
    (enough : 2 * (joined ',' (itemChars items)).length + 1 ≤ fuel) :
    itemsIn fuel (joined ',' (itemChars items) ++ ']' :: rest) = .whole items rest := by
  induction items generalizing fuel
  case nil => exact absurd rfl nonempty
  case cons j items ih =>
    obtain ⟨fuel, rfl⟩ : ∃ n, fuel = n + 1 := ⟨fuel - 1, by omega⟩
    cases items
    case nil =>
      simp only [itemChars, joined] at enough ⊢
      rw [itemsIn, all j (.head _) fuel _ (by omega) (ends_cons _ (by decide))]
      simp [skip_cons (show isSpace ']' = false by decide)]
    case cons j' items =>
      have rest_enough : 2 * (joined ',' (itemChars (j' :: items))).length + 1 ≤ fuel := by
        simp only [itemChars, joined, List.length_append, List.length_cons] at enough ⊢
        omega
      have tail := ih (fun i mem => all i (.tail _ mem)) (by simp) rest_enough
      have head := all j (.head _) fuel
        (',' :: (joined ',' (itemChars (j' :: items)) ++ ']' :: rest))
        (by simp only [itemChars, joined, List.length_append, List.length_cons] at enough; omega)
        (ends_cons _ (by decide))
      have text : joined ',' (itemChars (j :: j' :: items)) ++ ']' :: rest =
          j.chars ++ ',' :: (joined ',' (itemChars (j' :: items)) ++ ']' :: rest) := by
        simp [itemChars, joined]
      rw [text, itemsIn, head]
      simp [skip_cons (show isSpace ',' = false by decide), tail, Reading.after]

theorem membersIn_joined {members : List (Option String × Json)}
    (names : ∀ m ∈ members, m.1.isSome) (all : ∀ m ∈ members, IsRead m.2) (nonempty : members ≠ [])
    (enough : 2 * (joined ',' (memberChars members)).length + 1 ≤ fuel) :
    membersIn fuel (joined ',' (memberChars members) ++ '}' :: rest) = .whole members rest := by
  induction members generalizing fuel
  case nil => exact absurd rfl nonempty
  case cons m members ih =>
    obtain ⟨name, j⟩ := m
    obtain ⟨name, rfl⟩ := Option.isSome_iff_exists.mp (names _ (.head _))
    obtain ⟨fuel, rfl⟩ : ∃ n, fuel = n + 1 := ⟨fuel - 1, by omega⟩
    have own : IsRead j := all _ (.head _)
    cases members
    case nil =>
      simp only [memberChars, joined, List.length_append, List.length_cons] at enough ⊢
      rw [membersIn, List.append_assoc, List.cons_append, memberName?_text]
      simp only
      rw [own fuel _ (by omega) (ends_cons _ (by decide))]
      simp [skip_cons (show isSpace '}' = false by decide)]
    case cons m' members =>
      have rest_enough : 2 * (joined ',' (memberChars (m' :: members))).length + 1 ≤ fuel := by
        simp only [memberChars, joined, List.length_append, List.length_cons] at enough ⊢
        omega
      have tail := ih (fun i mem => names i (.tail _ mem)) (fun i mem => all i (.tail _ mem))
        (by simp) rest_enough
      have head := own fuel (',' :: (joined ',' (memberChars (m' :: members)) ++ '}' :: rest))
        (by simp only [memberChars, joined, List.length_append, List.length_cons] at enough; omega)
        (ends_cons _ (by decide))
      have text : joined ',' (memberChars ((some name, j) :: m' :: members)) ++ '}' :: rest =
          textChars (some name) ++ ':' ::
            (j.chars ++ ',' :: (joined ',' (memberChars (m' :: members)) ++ '}' :: rest)) := by
        simp [memberChars, joined]
      rw [text, membersIn, memberName?_text]
      simp only
      rw [head]
      simp [skip_cons (show isSpace ',' = false by decide), tail, Reading.after]

end

theorem IsScalar.isRead {j : Json} (h : IsScalar j) : IsRead j := by
  intro fuel rest enough ends
  obtain ⟨c, cs, first, _⟩ := h.exists_chars_eq_cons
  rw [first, List.length_cons] at enough
  obtain ⟨fuel, rfl⟩ : ∃ n, fuel = n + 1 := ⟨fuel - 1, by omega⟩
  exact valueIn_scalar h ends

-- The bracket or brace takes one unit of fuel, and leaves two units for every character inside.
theorem isRead_array {items : List Json} (all : ∀ j ∈ items, IsWritable j)
    (read_items : ∀ j ∈ items, IsRead j) : IsRead (.array items) := by
  intro fuel rest enough ends
  have text : (Json.array items).chars ++ rest =
      '[' :: (joined ',' (itemChars items) ++ ']' :: rest) := by
    simp [chars]
  rw [chars, List.cons_append, List.length_cons, List.length_append] at enough
  obtain ⟨fuel, rfl⟩ : ∃ n, fuel = n + 1 := ⟨fuel - 1, by omega⟩
  rw [text, valueIn, skip_cons (by decide)]
  cases items
  case nil => simp [itemChars, joined, skip_cons (show isSpace ']' = false by decide)]
  case cons j items =>
    have read := @itemsIn_joined rest fuel _ read_items (by simp)
      (by simp only [List.length_cons, List.length_nil] at enough; omega)
    obtain ⟨c, cs, first, space, bracket⟩ := exists_chars_eq_cons (all j (.head _))
    have starts : ∃ ds, joined ',' (itemChars (j :: items)) ++ ']' :: rest = c :: ds := by
      cases items <;> simp [itemChars, joined, first]
    obtain ⟨ds, starts⟩ := starts
    rw [starts] at read ⊢
    simp only [skip_cons space]
    split
    case h_1 same => exact absurd (List.cons.inj same).1 bracket
    case h_2      => rw [read]; rfl

theorem isRead_object {members : List (Option String × Json)} (names : ∀ m ∈ members, m.1.isSome)
    (read_members : ∀ m ∈ members, IsRead m.2) : IsRead (.object members) := by
  intro fuel rest enough ends
  have text : (Json.object members).chars ++ rest =
      '{' :: (joined ',' (memberChars members) ++ '}' :: rest) := by
    simp [chars]
  rw [chars, List.cons_append, List.length_cons, List.length_append] at enough
  obtain ⟨fuel, rfl⟩ : ∃ n, fuel = n + 1 := ⟨fuel - 1, by omega⟩
  rw [text, valueIn, skip_cons (by decide)]
  cases members
  case nil => simp [memberChars, joined, skip_cons (show isSpace '}' = false by decide)]
  case cons m members =>
    have read := @membersIn_joined rest fuel _ names read_members (by simp)
      (by simp only [List.length_cons, List.length_nil] at enough; omega)
    have starts : ∃ ds, joined ',' (memberChars (m :: members)) ++ '}' :: rest = '"' :: ds := by
      cases members <;> simp [memberChars, joined, textChars, quotedChars]
    obtain ⟨ds, starts⟩ := starts
    rw [starts] at read ⊢
    simp [skip_cons (show isSpace '"' = false by decide), read, Reading.map]

theorem isRead_of_isWritable {j : Json} (h : j.IsWritable) : IsRead j := by
  induction h
  case scalar h          => exact h.isRead
  case array all ih      => exact isRead_array all ih
  case object names _ ih => exact isRead_object names ih

theorem document_write {j : Json} (h : j.IsWritable) :
    Document.read j.write = { root := some j, complete := true } := by
  have whole := isRead_of_isWritable h (2 * j.chars.length + 2) [] (by omega) ends_nil
  rw [List.append_nil] at whole
  rw [Document.read, write, String.toList_ofList, readValue, whole]
  rfl

theorem read?_write {j : Json} (h : j.IsWritable) : read? j.write = some j := by
  simp [read?, document_write h]

theorem decodeText_write {α : Type} {j : Json} (h : j.IsWritable) (decode : Decoder α) :
    decodeText decode j.write = decode j := by
  rw [decodeText, document_write h]
  cases decoded : decode j <;> simp [bind, Except.bind, pure, Except.pure, require, decoded]

end MetricCollector.Json
