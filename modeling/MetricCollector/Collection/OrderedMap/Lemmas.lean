import MetricCollector.Collection.OrderedMap

namespace MetricCollector.OrderedMap

variable {κ α β γ : Type} [Ord κ]

@[simp]
theorem find?_empty (k : κ) : (empty : OrderedMap κ α).find? k = none := rfl

-- Look-up in a list of entries.
def findIn (k : κ) (es : List (κ × α)) : Option α :=
  (es.find? fun e => compare k e.1 == .eq).map (·.2)

theorem find?_eq_findIn (m : OrderedMap κ α) (k : κ) : m.find? k = findIn k m.entries := rfl

theorem findIn_cons_eq {k : κ} {e : κ × α} {es : List (κ × α)} (h : compare k e.1 = .eq) :
    findIn k (e :: es) = some e.2 := by
  simp [findIn, h]

theorem findIn_cons_ne {k : κ} {e : κ × α} {es : List (κ × α)} (h : compare k e.1 ≠ .eq) :
    findIn k (e :: es) = findIn k es := by
  simp [findIn, h]

theorem findIn_eq_none {k : κ} {es : List (κ × α)} (h : ∀ e ∈ es, compare k e.1 ≠ .eq) :
    findIn k es = none := by
  simpa [findIn] using h

-- Below the first key nothing is found.
theorem findIn_eq_none_of_lt [Std.TransOrd κ] {k : κ} {es : List (κ × α)}
    (h : ∀ e ∈ es, compare k e.1 = .lt) : findIn k es = none :=
  findIn_eq_none fun e he => by simp [h e he]

theorem mem_of_find?_eq_some [Std.LawfulEqOrd κ] {m : OrderedMap κ α} {k : κ} {v : α}
    (h : m.find? k = some v) : (k, v) ∈ m.entries := by
  obtain ⟨e, he, rfl⟩ := Option.map_eq_some_iff.mp h
  have hk : k = e.1 := by simpa using List.find?_some he
  exact hk ▸ List.mem_of_find?_eq_some he

section

variable [Std.TransOrd κ]

theorem findIn_place [Std.LawfulEqOrd κ] (k k' : κ) (f : Option α → α) {es : List (κ × α)}
    (h : Ascending Prod.fst es) :
    findIn k' (Ascending.place Prod.fst k (k, f none) (fun e => (e.1, f (some e.2))) es) =
      if compare k' k = .eq then some (f (findIn k es)) else findIn k' es := by
  induction es with
  | nil =>
    simp only [Ascending.place]
    split
    case _ hk => exact findIn_cons_eq hk
    case _ hk => exact findIn_cons_ne hk
  | cons e es ih =>
    obtain ⟨he, hes⟩ := List.pairwise_cons.mp h
    simp only [Ascending.place]
    split
    case _ hlt =>
      have absent : findIn k (e :: es) = none := by
        refine findIn_eq_none_of_lt fun x hx => ?_
        rcases List.mem_cons.mp hx with rfl | hx
        · exact hlt
        · exact Std.TransCmp.lt_trans hlt (he x hx)
      rw [absent]
      split
      case _ hk => exact findIn_cons_eq hk
      case _ hk => exact findIn_cons_ne hk
    case _ heq =>
      obtain rfl := Std.LawfulEqOrd.eq_of_compare heq
      rw [findIn_cons_eq heq]
      split
      case _ hk => exact findIn_cons_eq hk
      case _ hk => simp only [findIn_cons_ne, hk, ne_eq, not_false_iff]
    case _ hgt =>
      have hne : compare k e.1 ≠ .eq := by simp [hgt]
      rw [findIn_cons_ne hne]
      by_cases hk : compare k' e.1 = .eq
      · obtain rfl := Std.LawfulEqOrd.eq_of_compare hk
        have : compare e.1 k ≠ .eq := by simp [Std.OrientedCmp.gt_iff_lt.mp hgt]
        rw [findIn_cons_eq hk, findIn_cons_eq hk, if_neg this]
      · rw [findIn_cons_ne hk, findIn_cons_ne hk, ih hes]

variable [Std.LawfulEqOrd κ] [DecidableEq κ]

theorem find?_update (m : OrderedMap κ α) (k k' : κ) (f : Option α → α) :
    (m.update k f).find? k' = if k' = k then some (f (m.find? k)) else m.find? k' := by
  have : compare k' k = .eq ↔ k' = k := Std.LawfulEqOrd.compare_eq_iff_eq
  have placed := findIn_place k k' f m.ascending
  simp only [this] at placed
  exact placed

theorem find?_insert (m : OrderedMap κ α) (k k' : κ) (v : α) :
    (m.insert k v).find? k' = if k' = k then some v else m.find? k' :=
  m.find?_update k k' fun _ => v

end

theorem find?_map (m : OrderedMap κ α) (f : α → β) (k : κ) :
    (m.map f).find? k = (m.find? k).map f := by
  simp only [find?, map, List.find?_map, Option.map_map]
  rfl

theorem find?_filter [Std.LawfulEqOrd κ] (m : OrderedMap κ α) (p : κ → Bool) (k : κ) :
    (m.filter p).find? k = if p k then m.find? k else none := by
  simp only [find?_eq_findIn, filter]
  induction m.entries with
  | nil => simp [findIn]
  | cons e es ih =>
    by_cases hk : compare k e.1 = .eq
    · obtain rfl := Std.LawfulEqOrd.eq_of_compare hk
      rw [findIn_cons_eq hk, List.filter_cons]
      split
      · exact findIn_cons_eq hk
      · rw [ih]; simp_all
    · rw [findIn_cons_ne hk, List.filter_cons]
      split
      · rw [findIn_cons_ne hk, ih]
      · exact ih

theorem filter_filter (m : OrderedMap κ α) (p q : κ → Bool) :
    (m.filter p).filter q = m.filter fun k => q k && p k := by
  simp only [filter, List.filter_filter]

theorem mem_entries_iff [Std.TransOrd κ] [Std.LawfulEqOrd κ] {m : OrderedMap κ α} {k : κ} {v : α} :
    (k, v) ∈ m.entries ↔ m.find? k = some v where
  mp h := by
    have asc := m.ascending
    rw [find?_eq_findIn]
    generalize m.entries = es at h asc
    induction es with
    | nil => simp at h
    | cons e es ih =>
      obtain ⟨he, hes⟩ := List.pairwise_cons.mp asc
      rcases List.mem_cons.mp h with rfl | h
      · exact findIn_cons_eq Std.ReflCmp.compare_self
      · have : compare k e.1 ≠ .eq := by
          simp [Std.OrientedCmp.gt_iff_lt.mpr (he _ h)]
        rw [findIn_cons_ne this]
        exact ih h hes
  mpr := mem_of_find?_eq_some

theorem contains_iff_mem_keys [Std.TransOrd κ] [Std.LawfulEqOrd κ] {m : OrderedMap κ α} {k : κ} :
    m.contains k = true ↔ k ∈ m.keys := by
  simp only [contains, keys, List.mem_map, Option.isSome_iff_exists]
  constructor
  · rintro ⟨v, h⟩
    exact ⟨_, mem_entries_iff.mpr h, rfl⟩
  · rintro ⟨⟨_, v⟩, h, rfl⟩
    exact ⟨v, mem_entries_iff.mp h⟩

theorem mem_keys_iff [Std.TransOrd κ] [Std.LawfulEqOrd κ] {m : OrderedMap κ α} {k : κ} :
    k ∈ m.keys ↔ m.find? k ≠ none := by
  rw [← contains_iff_mem_keys, contains, Option.isSome_iff_ne_none]

theorem keys_map (m : OrderedMap κ α) (f : α → β) : (m.map f).keys = m.keys := by
  simp [keys, map]

theorem find?_filterMap [Std.TransOrd κ] [Std.LawfulEqOrd κ] (m : OrderedMap κ α)
    (f : α → Option β) (k : κ) : (m.filterMap f).find? k = (m.find? k).bind f := by
  apply Option.ext
  intro b
  rw [← mem_entries_iff, Option.bind_eq_some_iff]
  simp only [filterMap, List.mem_filterMap, Option.map_eq_some_iff]
  constructor
  case mp =>
    rintro ⟨⟨k', a⟩, h, b', hb, he⟩
    cases he
    exact ⟨a, mem_entries_iff.mp h, hb⟩
  case mpr =>
    rintro ⟨a, h, hb⟩
    exact ⟨(k, a), mem_entries_iff.mpr h, b, hb, rfl⟩

@[ext]
theorem ext {m n : OrderedMap κ α} (h : m.entries = n.entries) : m = n := by
  cases m; cases n; cases h; rfl

theorem map_map (m : OrderedMap κ α) (f : α → β) (g : β → γ) :
    (m.map f).map g = m.map fun a => g (f a) :=
  ext (List.map_map ..)

theorem map_filter (m : OrderedMap κ α) (p : κ → Bool) (f : α → β) :
    (m.filter p).map f = (m.map f).filter p := by
  refine ext ?_
  simp only [map, filter, List.filter_map]
  rfl

theorem filterMap_filter (m : OrderedMap κ α) (p : κ → Bool) (f : α → Option β) :
    (m.filter p).filterMap f = (m.filterMap f).filter p := by
  refine ext ?_
  simp only [filterMap, filter, List.filterMap_filter, List.filter_filterMap]
  congr 1
  funext e
  cases f e.2 <;> cases kept : p e.1 <;> simp [Option.filter, kept]

theorem filterMap_map_eq_empty (m : OrderedMap κ α) {f : α → β} {g : β → Option γ}
    (h : ∀ a, g (f a) = none) : (m.map f).filterMap g = empty := by
  refine ext ?_
  simp [filterMap, map, h, empty]

theorem filter_eq_self {m : OrderedMap κ α} {p : κ → Bool} (h : ∀ k ∈ m.keys, p k = true) :
    m.filter p = m :=
  ext (List.filter_eq_self.mpr fun _ mem => h _ (List.mem_map_of_mem mem))

theorem filter_congr {m : OrderedMap κ α} {p q : κ → Bool} (h : ∀ k ∈ m.keys, p k = q k) :
    m.filter p = m.filter q :=
  ext (List.filter_congr fun _ mem => h _ (List.mem_map_of_mem mem))

theorem nodup_entries [Std.LawfulEqOrd κ] (m : OrderedMap κ α) : m.entries.Nodup := by
  refine m.ascending.imp fun {a b} lt same => ?_
  have eq : compare a.1 b.1 = .eq := same ▸ Std.ReflCmp.compare_self
  rw [eq] at lt
  cases lt

section

variable [Std.TransOrd κ] [Std.LawfulEqOrd κ] {m n : OrderedMap κ α}

-- Of two keys only one can stand in front of the other.
theorem eq_of_mem_entries_iff (h : ∀ e, e ∈ m.entries ↔ e ∈ n.entries) : m = n := by
  have perm : m.entries.Perm n.entries :=
    (List.perm_ext_iff_of_nodup m.nodup_entries n.nodup_entries).mpr h
  refine ext (perm.eq_of_pairwise (fun a b _ _ lt gt => ?_) m.ascending n.ascending)
  have gt : compare a.1 b.1 = .gt := Std.OrientedCmp.gt_of_lt gt
  simp_all

theorem eq_of_find?_eq (h : ∀ k, m.find? k = n.find? k) : m = n :=
  eq_of_mem_entries_iff fun (k, v) => by rw [mem_entries_iff, mem_entries_iff, h]

theorem keys_eq_of_mem_iff (h : ∀ k, k ∈ m.keys ↔ k ∈ n.keys) : m.keys = n.keys := by
  have same : m.map (fun _ => ()) = n.map fun _ => () := by
    refine eq_of_find?_eq fun k => ?_
    rw [find?_map, find?_map]
    have found := h k
    rw [mem_keys_iff, mem_keys_iff] at found
    cases hm : m.find? k <;> cases hn : n.find? k <;> simp_all
  rw [← keys_map m fun _ => (), same, keys_map]

-- Two maps are the same if a third one tells what is found in either of them.
theorem eq_of_told (tells : γ → α → Prop) {l : OrderedMap κ γ}
    (unique : ∀ x a b, tells x a → tells x b → a = b) (keys : m.keys = n.keys)
    (known : m.keys ⊆ l.keys)
    (hm : ∀ k a x, m.find? k = some a → l.find? k = some x → tells x a)
    (hn : ∀ k a x, n.find? k = some a → l.find? k = some x → tells x a) : m = n := by
  refine eq_of_find?_eq fun k => ?_
  have same : m.find? k ≠ none ↔ n.find? k ≠ none := by rw [← mem_keys_iff, keys, mem_keys_iff]
  cases found : m.find? k <;> cases found' : n.find? k
  case none.none => rfl
  case none.some | some.none => simp [found, found'] at same
  case some.some a b =>
    have mem : k ∈ m.keys := mem_keys_iff.mpr (by simp [found])
    obtain ⟨x, teller⟩ := Option.isSome_iff_exists.mp (contains_iff_mem_keys.mpr (known mem))
    exact congrArg some (unique x a b (hm k a x found teller) (hn k b x found' teller))

end

end MetricCollector.OrderedMap
