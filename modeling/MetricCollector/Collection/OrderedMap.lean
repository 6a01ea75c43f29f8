import MetricCollector.Collection.Ascending

namespace MetricCollector

-- A map is the list of its entries in ascending key order, so that two maps with the same entries
-- are equal and every listing of a map comes out sorted.
structure OrderedMap (κ α : Type) [Ord κ] where
  entries   : List (κ × α)
  ascending : Ascending Prod.fst entries

namespace OrderedMap

variable {κ α β : Type} [Ord κ]

def empty : OrderedMap κ α where
  entries   := []
  ascending := .nil

instance : Inhabited (OrderedMap κ α) := ⟨empty⟩

instance [BEq κ] [BEq α] : BEq (OrderedMap κ α) := ⟨fun m n => m.entries == n.entries⟩

def size (m : OrderedMap κ α) : Nat :=
  m.entries.length

def isEmpty (m : OrderedMap κ α) : Bool :=
  m.entries.isEmpty

def keys (m : OrderedMap κ α) : List κ :=
  m.entries.map (·.1)

def find? (m : OrderedMap κ α) (k : κ) : Option α :=
  (m.entries.find? fun e => compare k e.1 == .eq).map (·.2)

def contains (m : OrderedMap κ α) (k : κ) : Bool :=
  (m.find? k).isSome

-- Replaces the value at `k` by `f` of it, where `f none` is the value of a new key.
def update [Std.TransOrd κ] (m : OrderedMap κ α) (k : κ) (f : Option α → α) : OrderedMap κ α where
  entries   := Ascending.place Prod.fst k (k, f none) (fun e => (e.1, f (some e.2))) m.entries
  ascending := m.ascending.place_ascending rfl fun _ => rfl

def insert [Std.TransOrd κ] (m : OrderedMap κ α) (k : κ) (v : α) : OrderedMap κ α :=
  m.update k fun _ => v

-- The map of a list of entries, of which the last for a key counts.
def ofList [Std.TransOrd κ] (es : List (κ × α)) : OrderedMap κ α :=
  es.foldl (fun m e => m.insert e.1 e.2) empty

def filter (m : OrderedMap κ α) (p : κ → Bool) : OrderedMap κ α where
  entries   := m.entries.filter (p ·.1)
  ascending := m.ascending.filter _

def map (m : OrderedMap κ α) (f : α → β) : OrderedMap κ β where
  entries   := m.entries.map fun e => (e.1, f e.2)
  ascending := List.pairwise_map.mpr (m.ascending.imp id)

def filterMap (m : OrderedMap κ α) (f : α → Option β) : OrderedMap κ β where
  entries   := m.entries.filterMap fun e => (f e.2).map (e.1, ·)
  ascending := by
    refine m.ascending.filterMap _ fun a a' h b hb b' hb' => ?_
    obtain ⟨_, _, rfl⟩ := Option.map_eq_some_iff.mp hb
    obtain ⟨_, _, rfl⟩ := Option.map_eq_some_iff.mp hb'
    exact h

end OrderedMap
end MetricCollector
