import Mathlib.Data.Finset.Card
import MetricCollector.Collection.OrderedMap.Lemmas

namespace MetricCollector.OrderedMap

variable {κ α : Type} [Ord κ]

theorem nodup_keys [Std.TransOrd κ] (m : OrderedMap κ α) : m.keys.Nodup := by
  refine List.pairwise_map.mpr (m.ascending.imp fun {a b} lt same => ?_)
  have eq : compare a.1 b.1 = .eq := same ▸ Std.ReflCmp.compare_self
  rw [eq] at lt
  cases lt

variable [DecidableEq κ]

def keySet (m : OrderedMap κ α) : Finset κ :=
  m.keys.toFinset

section

variable [Std.TransOrd κ]

theorem size_eq_card_keySet (m : OrderedMap κ α) : m.size = m.keySet.card := by
  rw [keySet, List.toFinset_card_of_nodup m.nodup_keys, keys, List.length_map, size]

variable [Std.LawfulEqOrd κ]

theorem mem_keySet_iff {m : OrderedMap κ α} {k : κ} : k ∈ m.keySet ↔ m.find? k ≠ none := by
  rw [keySet, List.mem_toFinset, mem_keys_iff]

theorem keySet_update (m : OrderedMap κ α) (k : κ) (f : Option α → α) :
    (m.update k f).keySet = Insert.insert k m.keySet := by
  ext k'
  rw [mem_keySet_iff, find?_update, Finset.mem_insert, mem_keySet_iff]
  split <;> simp_all

theorem keySet_filter (m : OrderedMap κ α) (p : κ → Bool) :
    (m.filter p).keySet = m.keySet.filter (p · = true) := by
  ext k
  rw [mem_keySet_iff, find?_filter, Finset.mem_filter, mem_keySet_iff]
  split <;> simp_all

theorem size_update (m : OrderedMap κ α) (k : κ) (f : Option α → α) :
    (m.update k f).size = m.size + if k ∈ m.keySet then 0 else 1 := by
  rw [size_eq_card_keySet, size_eq_card_keySet, keySet_update]
  split
  case isTrue known   => rw [Finset.insert_eq_of_mem known]; rfl
  case isFalse unseen => exact Finset.card_insert_of_notMem unseen

theorem size_filter_le (m : OrderedMap κ α) (p : κ → Bool) : (m.filter p).size ≤ m.size := by
  rw [size_eq_card_keySet, size_eq_card_keySet, keySet_filter]
  exact Finset.card_filter_le ..

end
end MetricCollector.OrderedMap
