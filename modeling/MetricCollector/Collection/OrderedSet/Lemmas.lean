import MetricCollector.Collection.OrderedSet

namespace MetricCollector.OrderedSet

variable {α : Type} [Ord α]

theorem mem_place_iff [Std.LawfulEqOrd α] {k x : α} {xs : List α} :
    x ∈ Ascending.place id k k id xs ↔ x = k ∨ x ∈ xs := by
  induction xs
  case nil => simp [Ascending.place]
  case cons y ys ih =>
    simp only [Ascending.place]
    split
    case _ => simp
    case _ same =>
      have : k = y := Std.LawfulEqOrd.eq_of_compare same
      simp [this]
    case _ => simp [ih, or_left_comm]

variable [Std.TransOrd α]

theorem nodup (s : OrderedSet α) : s.toList.Nodup := by
  refine s.ascending.imp fun {a b} lt same => ?_
  have eq : compare a b = .eq := same ▸ Std.ReflCmp.compare_self
  rw [id, id, eq] at lt
  cases lt

-- Of two elements only one can stand in front of the other.
theorem eq_of_mem_iff {s t : OrderedSet α} (h : ∀ x, x ∈ s.toList ↔ x ∈ t.toList) : s = t := by
  have perm : s.toList.Perm t.toList := (List.perm_ext_iff_of_nodup s.nodup t.nodup).mpr h
  refine ext (perm.eq_of_pairwise (fun a b _ _ lt gt => ?_) s.ascending t.ascending)
  have gt : compare a b = .gt := Std.OrientedCmp.gt_of_lt gt
  simp_all

variable [Std.LawfulEqOrd α]

theorem mem_insert_iff {s : OrderedSet α} {k x : α} :
    x ∈ (s.insert k).toList ↔ x = k ∨ x ∈ s.toList :=
  mem_place_iff

theorem mem_ofList_iff {xs : List α} {x : α} : x ∈ (ofList xs).toList ↔ x ∈ xs := by
  suffices h : ∀ s : OrderedSet α, x ∈ (xs.foldl insert s).toList ↔ x ∈ s.toList ∨ x ∈ xs by
    simpa [ofList, empty] using h empty
  induction xs
  case nil => simp
  case cons y ys ih =>
    intro s
    rw [List.foldl_cons, ih, mem_insert_iff, List.mem_cons, or_assoc, or_left_comm]

end MetricCollector.OrderedSet
