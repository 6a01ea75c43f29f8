namespace MetricCollector

variable {β κ : Type} [Ord κ]

-- No key occurs twice.
def Ascending (key : β → κ) (xs : List β) : Prop :=
  xs.Pairwise fun a b => compare (key a) (key b) = .lt

namespace Ascending

-- Puts `new` at the place of key `k`, or if an element with that key is there, changes it.
def place (key : β → κ) (k : κ) (new : β) (change : β → β) : List β → List β
  | []      => [new]
  | x :: xs => match compare k (key x) with
    | .lt => new :: x :: xs
    | .eq => change x :: xs
    | .gt => x :: place key k new change xs

variable {key : β → κ} {k : κ} {new : β} {change : β → β} {xs : List β}

theorem key_of_mem_place (hnew : key new = k) (hchange : ∀ x, key (change x) = key x) {y : β}
    (h : y ∈ place key k new change xs) : key y = k ∨ ∃ x ∈ xs, key x = key y := by
  induction xs with
  | nil => simp_all [place]
  | cons x xs ih =>
    simp only [place] at h
    split at h <;> simp only [List.mem_cons] at h
    · rcases h with rfl | rfl | h
      · exact .inl hnew
      · exact .inr ⟨_, .head _, rfl⟩
      · exact .inr ⟨_, .tail _ h, rfl⟩
    · rcases h with rfl | h
      · exact .inr ⟨_, .head _, (hchange _).symm⟩
      · exact .inr ⟨_, .tail _ h, rfl⟩
    · rcases h with rfl | h
      · exact .inr ⟨_, .head _, rfl⟩
      · exact (ih h).imp id fun ⟨z, hz, e⟩ => ⟨z, .tail _ hz, e⟩

theorem place_ascending [Std.TransOrd κ] (hnew : key new = k)
    (hchange : ∀ x, key (change x) = key x) (h : Ascending key xs) :
    Ascending key (place key k new change xs) := by
  induction xs with
  | nil => exact List.pairwise_singleton ..
  | cons x xs ih =>
    have ⟨hx, hxs⟩ := List.pairwise_cons.mp h
    simp only [place]
    split
    case _ hlt =>
      refine List.pairwise_cons.mpr ⟨fun y hy => ?_, h⟩
      rw [hnew]
      rcases List.mem_cons.mp hy with rfl | hy
      · exact hlt
      · exact Std.TransCmp.lt_trans hlt (hx y hy)
    case _ =>
      exact List.pairwise_cons.mpr ⟨fun y hy => (hchange x).symm ▸ hx y hy, hxs⟩
    case _ hgt =>
      refine List.pairwise_cons.mpr ⟨fun y hy => ?_, ih hxs⟩
      rcases key_of_mem_place hnew hchange hy with hk | ⟨z, hz, hk⟩
      · rw [hk]; exact Std.OrientedCmp.gt_iff_lt.mp hgt
      · rw [← hk]; exact hx z hz

end Ascending
end MetricCollector
