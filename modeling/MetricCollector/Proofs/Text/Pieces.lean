import Mathlib.Data.List.TakeWhile
import MetricCollector.Text.Blank
import MetricCollector.Text.Cut

namespace MetricCollector.Text

section

variable {α : Type} {separator : α} {xs : List α}

-- What stands before, between and after the separators of `xs`.
structure Pieces (separator : α) (xs : List α) (pieces : List (List α)) : Prop where
  nonempty : pieces ≠ []
  joined   : [separator].intercalate pieces = xs
  free     : ∀ piece ∈ pieces, separator ∉ piece

-- Lines that are ended one by one. Behind the last end there is an empty piece.
theorem pieces_flatMap {lines : List (List α)} (free : ∀ line ∈ lines, separator ∉ line) :
    Pieces separator (lines.flatMap (· ++ [separator])) (lines ++ [[]]) where
  nonempty := by simp
  joined   := by
    clear free
    induction lines
    case nil => rfl
    case cons line lines ih =>
      have more : lines ++ [[]] ≠ [] := by simp
      rw [List.cons_append, List.intercalate_cons_of_ne_nil more, ih, List.flatMap_cons]
  free     := by simpa [or_imp, forall_and] using free

-- There is nothing in the pieces that is not in the whole.
theorem mem_intercalate {between piece : List α} {pieces : List (List α)} {x : α}
    (mem : piece ∈ pieces) (inside : x ∈ piece) : x ∈ between.intercalate pieces := by
  induction pieces
  case nil => cases mem
  case cons first pieces ih =>
    cases pieces
    case nil =>
      obtain rfl := List.mem_singleton.mp mem
      rwa [List.intercalate_singleton]
    case cons =>
      rw [List.intercalate_cons_cons, List.append_assoc, List.mem_append, List.mem_append]
      rcases List.mem_cons.mp mem with rfl | mem
      · exact .inl inside
      · exact .inr (.inr (ih mem))

theorem Pieces.mem_of_mem {pieces : List (List α)} (h : Pieces separator xs pieces)
    {piece : List α} {x : α} (mem : piece ∈ pieces) (inside : x ∈ piece) : x ∈ xs :=
  h.joined ▸ mem_intercalate mem inside

-- There is nothing in the whole but what is in the pieces and between them.
theorem mem_of_mem_intercalate {between : List α} {pieces : List (List α)} {x : α}
    (mem : x ∈ between.intercalate pieces) : x ∈ between ∨ ∃ piece ∈ pieces, x ∈ piece := by
  induction pieces
  case nil => simp at mem
  case cons first pieces ih =>
    cases pieces
    case nil => exact .inr ⟨first, .head _, by rwa [List.intercalate_singleton] at mem⟩
    case cons =>
      rw [List.intercalate_cons_cons, List.append_assoc, List.mem_append, List.mem_append] at mem
      rcases mem with mem | mem | mem
      · exact .inr ⟨first, .head _, mem⟩
      · exact .inl mem
      · exact (ih mem).imp_right fun ⟨piece, member, inside⟩ => ⟨piece, .tail _ member, inside⟩

variable [BEq α] [LawfulBEq α]

theorem not_mem_of_mem_splitOn : ∀ piece ∈ xs.splitOn separator, separator ∉ piece := by
  induction xs
  case nil => simp
  case cons x xs ih =>
    rw [List.splitOn_cons_eq_if_modifyHead]
    split
    case isTrue => simpa using ih
    case isFalse other =>
      have other : separator ≠ x := fun h => other (by simp [h])
      cases hs : xs.splitOn separator
      case nil => exact absurd hs (List.splitOn_ne_nil separator xs)
      case cons first rest =>
        rw [hs] at ih
        rw [List.modifyHead_cons, List.forall_mem_cons]
        rw [List.forall_mem_cons] at ih
        exact ⟨List.not_mem_cons_of_ne_of_not_mem other ih.1, ih.2⟩

theorem pieces_splitOn (separator : α) (xs : List α) :
    Pieces separator xs (xs.splitOn separator) where
  nonempty := List.splitOn_ne_nil separator xs
  joined   := List.intercalate_splitOn separator
  free     := not_mem_of_mem_splitOn

theorem Pieces.splitOn_eq {pieces : List (List α)} (h : Pieces separator xs pieces) :
    xs.splitOn separator = pieces :=
  h.joined ▸ List.splitOn_intercalate separator h.free h.nonempty

-- A text has pieces in one way only.
theorem pieces_iff {pieces : List (List α)} :
    Pieces separator xs pieces ↔ xs.splitOn separator = pieces where
  mp h  := h.splitOn_eq
  mpr h := h ▸ pieces_splitOn separator xs

theorem cutAt?_append {before after : List α} (free : separator ∉ before) :
    cutAt? separator (before ++ separator :: after) = some (before, after) := by
  have other : ∀ x ∈ before, (x != separator) = true := by
    intro x mem
    exact bne_iff_ne.mpr (ne_of_mem_of_not_mem mem free)
  rw [cutAt?, List.dropWhile_append_of_pos other, List.takeWhile_append_of_pos other,
    List.dropWhile_cons_of_neg (by simp), List.takeWhile_cons_of_neg (by simp), List.append_nil]

-- Texts with the same separator fall apart in the same way, at the first one and at the last.
theorem append_cons_inj {as bs as' bs' : List α} (free : separator ∉ as) (free' : separator ∉ as')
    (same : as ++ separator :: bs = as' ++ separator :: bs') : as = as' ∧ bs = bs' := by
  have cut : cutAt? separator (as ++ separator :: bs) = some (as, bs) := cutAt?_append free
  rw [same, cutAt?_append free'] at cut
  cases cut
  exact ⟨rfl, rfl⟩

theorem append_cons_inj_last {as bs as' bs' : List α} (free : separator ∉ bs)
    (free' : separator ∉ bs') (same : as ++ separator :: bs = as' ++ separator :: bs') :
    as = as' ∧ bs = bs' := by
  have reversed := congrArg List.reverse same
  simp only [List.reverse_append, List.reverse_cons, List.append_assoc, List.cons_append,
    List.nil_append] at reversed
  have := append_cons_inj (by simpa using free) (by simpa using free') reversed
  exact ⟨List.reverse_inj.mp this.2, List.reverse_inj.mp this.1⟩

theorem cutAt?_eq_none_iff : cutAt? separator xs = none ↔ separator ∉ xs where
  mp h mem := by
    obtain ⟨before, after, rfl, free⟩ := List.eq_append_cons_of_mem mem
    simp [cutAt?_append free] at h
  mpr free := by
    have other : xs.dropWhile (· != separator) = [] :=
      List.dropWhile_eq_nil_iff.mpr fun x mem => bne_iff_ne.mpr (ne_of_mem_of_not_mem mem free)
    simp [cutAt?, other]

end

-- `inner` is `text` without the blanks at its ends.
inductive Trimmed (text inner : List Char) : Prop
  | intro (front back : List Char) (whole : text = front ++ inner ++ back)
    (front_blank : ∀ c ∈ front, isBlank c = true) (back_blank : ∀ c ∈ back, isBlank c = true)
    (first : ∀ c ∈ inner.head?, isBlank c = false)
    (last : ∀ c ∈ inner.getLast?, isBlank c = false)

section

variable {p : Char → Bool} {front rest cs text inner : List Char}

theorem dropWhile_append_eq (all : ∀ c ∈ front, p c = true)
    (stop : ∀ c ∈ rest.head?, p c = false) : (front ++ rest).dropWhile p = rest := by
  rw [List.dropWhile_append_of_pos all]
  cases rest
  case nil         => rfl
  case cons c rest => exact List.dropWhile_cons_of_neg (by simp [stop c rfl])

theorem not_of_mem_head?_dropWhile {c : Char} (h : c ∈ (cs.dropWhile p).head?) : p c = false := by
  have stop := List.head?_dropWhile_not p cs
  rw [Option.mem_def.mp h] at stop
  exact stop

theorem exists_dropWhile (p : Char → Bool) (cs : List Char) :
    ∃ front, cs = front ++ cs.dropWhile p ∧ ∀ c ∈ front, p c = true :=
  ⟨cs.takeWhile p, List.takeWhile_append_dropWhile.symm, fun _ => List.mem_takeWhile_imp⟩

theorem trimmed_trimChars (text : List Char) : Trimmed text (trimChars text) := by
  obtain ⟨front, whole, front_blank⟩ := exists_dropWhile isBlank text
  obtain ⟨back, reversed, back_blank⟩ :=
    exists_dropWhile isBlank (text.dropWhile isBlank).reverse
  have rest : text.dropWhile isBlank = trimChars text ++ back.reverse := by
    rw [trimChars, ← List.reverse_append, ← reversed, List.reverse_reverse]
  refine .intro front back.reverse ?_ front_blank (by simpa using back_blank) ?_ ?_
  case refine_1 => rw [List.append_assoc, ← rest, ← whole]
  case refine_2 =>
    intro c mem
    have mem : c ∈ (text.dropWhile isBlank).head? := by
      rw [rest, List.head?_append, Option.mem_def.mp mem]
      rfl
    exact not_of_mem_head?_dropWhile mem
  case refine_3 =>
    intro c mem
    rw [trimChars, List.getLast?_reverse] at mem
    exact not_of_mem_head?_dropWhile mem

theorem toList_trim (text : String) : (trim text).toList = trimChars text.toList :=
  String.toList_ofList

theorem Trimmed.trimChars_eq (h : Trimmed text inner) : trimChars text = inner := by
  cases h
  case intro front back whole front_blank back_blank first last =>
    subst whole
    cases inner
    case nil =>
      have blank : ∀ c ∈ front ++ [] ++ back, isBlank c = true := by
        simpa [or_imp, forall_and] using ⟨front_blank, back_blank⟩
      rw [trimChars, List.dropWhile_eq_nil_iff.mpr blank]
      rfl
    case cons c inner =>
      have front_stop : ∀ d ∈ (c :: inner ++ back).head?, isBlank d = false := first
      have back_stop : ∀ d ∈ (c :: inner).reverse.head?, isBlank d = false := by
        rwa [List.head?_reverse]
      rw [trimChars, List.append_assoc, dropWhile_append_eq front_blank front_stop,
        List.reverse_append, dropWhile_append_eq (by simpa using back_blank) back_stop,
        List.reverse_reverse]

theorem trimmed_iff : Trimmed text inner ↔ trimChars text = inner where
  mp h  := h.trimChars_eq
  mpr h := h ▸ trimmed_trimChars text

end
end MetricCollector.Text
