import MetricCollector.Collection.Ascending

namespace MetricCollector

-- A set is the ascending list of its elements, so that two sets with the same elements are equal.
structure OrderedSet (α : Type) [Ord α] where
  toList    : List α
  ascending : Ascending id toList

namespace OrderedSet

variable {α : Type} [Ord α]

@[ext]
theorem ext {s t : OrderedSet α} (h : s.toList = t.toList) : s = t := by
  cases s; cases t; cases h; rfl

def empty : OrderedSet α where
  toList    := []
  ascending := .nil

instance : Inhabited (OrderedSet α) := ⟨empty⟩

instance [DecidableEq α] : DecidableEq (OrderedSet α) := fun _ _ =>
  decidable_of_iff _ (OrderedSet.ext_iff).symm

def size (s : OrderedSet α) : Nat :=
  s.toList.length

def insert [Std.TransOrd α] (s : OrderedSet α) (x : α) : OrderedSet α where
  toList    := Ascending.place id x x id s.toList
  ascending := s.ascending.place_ascending rfl fun _ => rfl

def ofList [Std.TransOrd α] (xs : List α) : OrderedSet α :=
  xs.foldl insert empty

end OrderedSet
end MetricCollector
