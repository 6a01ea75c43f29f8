import MetricCollector.Collection.OrderedSet

namespace MetricCollector

abbrev TagSet := OrderedSet String

-- A series is what observations accumulate under.
structure Series where
  name : String
  tags : TagSet
  deriving DecidableEq

namespace Series

instance : Inhabited Series := ⟨⟨"", .empty⟩⟩

-- By name, and then by the tags in order.
instance : Ord Series where
  compare := compareLex (compareOn name) (compareOn (·.tags.toList))

instance : Std.TransOrd Series :=
  inferInstanceAs (Std.TransCmp (compareLex (compareOn name) (compareOn (·.tags.toList))))

theorem eq_of_compare {a b : Series} (h : compare a b = .eq) : a = b := by
  have ⟨hn, ht⟩ := Ordering.then_eq_eq.mp (show (compareOn name a b).then _ = .eq from h)
  have hn : a.name = b.name := Std.LawfulEqCmp.eq_of_compare hn
  have ht : a.tags.toList = b.tags.toList := Std.LawfulEqCmp.eq_of_compare ht
  cases a; cases b
  simp_all [OrderedSet.ext_iff]

instance : Std.LawfulEqOrd Series where
  eq_of_compare := eq_of_compare

-- A series as reports show it: the name and, behind a hash, the tags.
def text (s : Series) : String :=
  match s.tags.toList with
  | []   => s.name
  | tags => s.name ++ "#" ++ String.intercalate "," tags

-- The series of a list, each once and in order.
def sorted (series : List Series) : List Series :=
  (OrderedSet.ofList series).toList

end Series
end MetricCollector
