import Mathlib.Data.List.Infix
import MetricCollector.Delivery.Backlog

namespace MetricCollector

-- An item that was taken, and its place among all that were published.
structure Taking (α : Type) where
  place : Nat
  item  : α

-- What is taken in order from its places is part of the whole.
theorem Taking.map_item_sublist {α : Type} {as : List α} {taken : List (Taking α)}
    (found : ∀ t ∈ taken, as[t.place]? = some t.item)
    (inOrder : taken.Pairwise (·.place < ·.place)) : (taken.map item).Sublist as := by
  have bound : ∀ t ∈ taken, t.place < as.length :=
    fun t mem => (List.getElem?_eq_some_iff.mp (found t mem)).1
  have places : (taken.pmap (fun t h => (⟨t.place, h⟩ : Fin as.length)) bound).Pairwise (· < ·) :=
    (List.pairwise_pmap ..).mpr (inOrder.imp fun less _ _ => less)
  have items : (taken.pmap (fun t h => (⟨t.place, h⟩ : Fin as.length)) bound).map (as[·]) =
      taken.map item := by
    rw [List.map_pmap, ← List.pmap_eq_map bound]
    exact List.pmap_congr_left taken fun t mem _ _ => (List.getElem?_eq_some_iff.mp (found t mem)).2
  exact items ▸ List.map_getElem_sublist places

namespace Backlog

variable {α : Type}

-- The place of the oldest item that waits, or of the next one that will be published.
def front (b : Backlog α) (published : List α) : Nat :=
  published.length - b.pending.length

-- Whatever is in front of those that wait was taken or is lost, and the losses are counted here as
-- long as nobody has been told about them.
structure Accounts (b : Backlog α) (published : List α) (taken : List (Taking α)) (lost : Nat) :
    Prop where
  room    : 0 < b.capacity
  bound   : b.pending.length ≤ b.capacity
  newest  : b.pending <:+ published
  found   : ∀ t ∈ taken, published[t.place]? = some t.item
  inOrder : taken.Pairwise (·.place < ·.place)
  before  : ∀ t ∈ taken, t.place < b.front published
  counted : taken.length + lost + b.missed = b.front published
  skipped : ∀ i < b.front published,
    (∃ t ∈ taken, t.place = i) ∨ i + b.capacity < published.length

namespace Accounts

variable {b : Backlog α} {published : List α} {taken : List (Taking α)} {lost : Nat} {a : α}

theorem withRoom (n : Nat) : (Backlog.withRoom n : Backlog α).Accounts [] [] 0 where
  room    := Nat.pos_of_isPowerOfTwo (Nat.isPowerOfTwo_nextPowerOfTwo n)
  bound   := Nat.zero_le _
  newest  := List.suffix_refl _
  found   := fun _ h => by cases h
  inOrder := .nil
  before  := fun _ h => by cases h
  counted := rfl
  skipped := fun _ h => by cases h

-- What was published once stays at its place.
theorem found_append (h : b.Accounts published taken lost) (more : List α) :
    ∀ t ∈ taken, (published ++ more)[t.place]? = some t.item := by
  intro t ht
  have found := h.found t ht
  rw [List.getElem?_append_left (List.getElem?_eq_some_iff.mp found).1]
  exact found

theorem length_pending_le (h : b.Accounts published taken lost) :
    b.pending.length ≤ published.length :=
  h.newest.length_le

theorem publish_room (h : b.Accounts published taken lost) (a : α)
    (room : b.pending.length < b.capacity) :
    (b.publish a).Accounts (published ++ [a]) taken lost := by
  have short := h.length_pending_le
  have front : front { b with pending := b.pending ++ [a] } (published ++ [a]) =
      b.front published := by
    simp only [Backlog.front, List.length_append, List.length_singleton]
    omega
  rw [publish, if_pos room]
  refine ⟨h.room, ?bound, ?newest, h.found_append [a], h.inOrder, front ▸ h.before,
    front ▸ h.counted, ?skipped⟩
  case bound   => simpa using Nat.succ_le_of_lt room
  case newest  => exact List.suffix_append_self_iff.mpr h.newest
  case skipped =>
    rw [front]
    intro i hi
    refine (h.skipped i hi).imp_right fun newer => ?_
    rw [List.length_append]
    exact Nat.lt_add_right _ newer

-- The oldest one makes room, and all that wait now are newer.
theorem publish_full (h : b.Accounts published taken lost) (a : α)
    (full : ¬ b.pending.length < b.capacity) :
    (b.publish a).Accounts (published ++ [a]) taken lost := by
  have short := h.length_pending_le
  have bound := h.bound
  have room := h.room
  have counted := h.counted
  have front : front { b with pending := b.pending.drop 1 ++ [a], missed := b.missed + 1 }
      (published ++ [a]) = b.front published + 1 := by
    simp only [Backlog.front, List.length_append, List.length_drop, List.length_singleton]
    omega
  rw [publish, if_neg full]
  refine ⟨h.room, ?bound, ?newest, h.found_append [a], h.inOrder, ?before, ?counted, ?skipped⟩
  case bound =>
    simp only [List.length_append, List.length_drop, List.length_singleton]
    omega
  case newest =>
    exact List.suffix_append_self_iff.mpr ((List.drop_suffix 1 b.pending).trans h.newest)
  case before => exact fun t ht => front ▸ Nat.lt_succ_of_lt (h.before t ht)
  case counted =>
    rw [front]
    simp only
    omega
  case skipped =>
    intro i hi
    rw [front] at hi
    rw [List.length_append, List.length_singleton]
    by_cases oldest : i = b.front published
    case pos =>
      right
      simp only [oldest, Backlog.front]
      omega
    case neg =>
      refine (h.skipped i (by omega)).imp_right fun newer => ?_
      simp only
      omega

theorem publish (h : b.Accounts published taken lost) (a : α) :
    (b.publish a).Accounts (published ++ [a]) taken lost := by
  by_cases room : b.pending.length < b.capacity
  case pos => exact h.publish_room a room
  case neg => exact h.publish_full a room

theorem close (h : b.Accounts published taken lost) : b.close.Accounts published taken lost :=
  ⟨h.room, h.bound, h.newest, h.found, h.inOrder, h.before, h.counted, h.skipped⟩

-- Somebody is told how many were lost.
theorem report (h : b.Accounts published taken lost) :
    Accounts { b with missed := 0 } published taken (lost + b.missed) :=
  ⟨h.room, h.bound, h.newest, h.found, h.inOrder, h.before,
    (Nat.add_assoc ..).symm.trans h.counted, h.skipped⟩

theorem getElem?_front (h : b.Accounts published taken lost) {as : List α}
    (pending : b.pending = a :: as) : published[b.front published]? = some a := by
  obtain ⟨gone, rfl⟩ := h.newest
  rw [Backlog.front, List.length_append, Nat.add_sub_cancel,
    List.getElem?_append_right (Nat.le_refl _), Nat.sub_self, pending]
  rfl

-- The oldest is taken.
theorem take (h : b.Accounts published taken lost) {as : List α} (pending : b.pending = a :: as) :
    Accounts { b with pending := as } published (taken ++ [⟨b.front published, a⟩]) lost := by
  have short := h.length_pending_le
  have bound := h.bound
  have counted := h.counted
  have head := h.getElem?_front pending
  have front : front { b with pending := as } published = b.front published + 1 := by
    simp only [Backlog.front, pending, List.length_cons] at short ⊢
    omega
  rw [pending, List.length_cons] at bound
  refine ⟨h.room, Nat.le_of_succ_le bound, ?newest, ?found, ?inOrder, ?before, ?counted, ?skipped⟩
  case newest => exact (List.suffix_cons a as).trans (pending ▸ h.newest)
  case found =>
    intro t ht
    cases List.mem_append.mp ht
    case inl ht => exact h.found t ht
    case inr ht => exact List.mem_singleton.mp ht ▸ head
  case inOrder =>
    refine List.pairwise_append.mpr ⟨h.inOrder, List.pairwise_singleton .., fun t ht t' ht' => ?_⟩
    exact List.mem_singleton.mp ht' ▸ h.before t ht
  case before =>
    intro t ht
    rw [front]
    cases List.mem_append.mp ht
    case inl ht => exact Nat.lt_succ_of_lt (h.before t ht)
    case inr ht => exact List.mem_singleton.mp ht ▸ Nat.lt_succ_self _
  case counted =>
    rw [front, List.length_append, List.length_singleton]
    simp only
    omega
  case skipped =>
    intro i hi
    rw [front] at hi
    by_cases oldest : i = b.front published
    case pos =>
      exact .inl ⟨_, List.mem_append_right _ (List.mem_singleton_self _), oldest.symm⟩
    case neg =>
      refine (h.skipped i (by omega)).imp_left ?_
      rintro ⟨t, ht, place⟩
      exact ⟨t, List.mem_append_left _ ht, place⟩

-- Where nothing is lost, everything up to what waits was taken.
theorem eq_append_pending (h : b.Accounts published taken 0) (told : b.missed = 0) :
    published = taken.map Taking.item ++ b.pending := by
  have counted := h.counted
  rw [told] at counted
  obtain ⟨front, rfl⟩ := h.newest
  have length : taken.length = front.length := by simpa [Backlog.front] using counted
  have found : ∀ t ∈ taken, front[t.place]? = some t.item := by
    intro t mem
    have before : t.place < front.length := by simpa [Backlog.front] using h.before t mem
    rw [← h.found t mem, List.getElem?_append_left before]
  have items := Taking.map_item_sublist found h.inOrder
  rw [items.eq_of_length (by simpa using length)]

end Accounts
end Backlog
end MetricCollector
