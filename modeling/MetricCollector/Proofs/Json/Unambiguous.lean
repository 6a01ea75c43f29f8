import MetricCollector.Json.Basic
import MetricCollector.Proofs.Collection.KeySet

namespace MetricCollector.Json

-- No object, however deep, has two members of one name.
inductive Unambiguous : Json → Prop
  | null : Unambiguous .null
  | bool (b : Bool) : Unambiguous (.bool b)
  | number (n : Numeral) : Unambiguous (.number n)
  | text (s : Option String) : Unambiguous (.text s)
  | array {items : List Json} (all : ∀ j ∈ items, Unambiguous j) : Unambiguous (.array items)
  | object {members : List (Option String × Json)} (names : (members.map (·.1)).Nodup)
    (all : ∀ m ∈ members, Unambiguous m.2) : Unambiguous (.object members)

-- The values of the members with this name.
def under (name : String) : Json → List Json
  | .object members => (members.filter (·.1 = some name)).map (·.2)
  | _               => []

-- What a path of names leads to, through every member with the next name.
def along : List String → Json → List Json
  | [], j            => [j]
  | name :: names, j => (j.under name).flatMap (along names)

section

variable {members : List (String × Json)}

theorem unambiguous_ofFloat (x : Float) : (ofFloat x).Unambiguous := by
  unfold ofFloat
  split
  case h_1 => exact .number _
  case h_2 => exact .null

theorem unambiguous_record (names : (members.map (·.1)).Nodup)
    (all : ∀ m ∈ members, m.2.Unambiguous) : (record members).Unambiguous := by
  refine .object ?_ (List.forall_mem_map.mpr all)
  have some_names := names.map (Option.some_injective _)
  rwa [List.map_map] at some_names ⊢

theorem under_record (members : List (String × Json)) (name : String) :
    (record members).under name = (members.filter (·.1 = name)).map (·.2) := by
  simp only [record, under, List.filter_map, List.map_map]
  congr 1
  exact List.filter_congr fun m _ => by simp

end

section

variable {κ α : Type} [Ord κ] [Std.TransOrd κ]
variable {name : κ → String} {value : α → Json} {m : OrderedMap κ α}

theorem unambiguous_ofMap (distinct : ∀ k ∈ m.keys, ∀ k' ∈ m.keys, name k = name k' → k = k')
    (all : ∀ v, (value v).Unambiguous) : (ofMap name value m).Unambiguous := by
  refine unambiguous_record ?_ (List.forall_mem_map.mpr fun e _ => all e.2)
  have names := (List.nodup_map_iff_inj_on m.nodup_keys).mpr distinct
  rw [OrderedMap.keys, List.map_map] at names
  rwa [List.map_map]

-- A key whose name no other key has is found under its name.
theorem under_ofMap [Std.LawfulEqOrd κ] {k : κ} {v : α} (found : m.find? k = some v)
    (alone : ∀ k' ∈ m.keys, name k' = name k → k' = k) :
    (ofMap name value m).under (name k) = [value v] := by
  have only : m.entries.filter (name ·.1 = name k) = [(k, v)] := by
    have nodup : m.entries.Nodup := .of_map _ m.nodup_keys
    refine List.perm_singleton.mp ((List.perm_ext_iff_of_nodup (nodup.filter _)
      (List.nodup_singleton _)).mpr fun e => ?_)
    rw [List.mem_filter, decide_eq_true_eq, List.mem_singleton]
    constructor
    case mp =>
      rintro ⟨mem, same⟩
      have key : e.1 = k := alone e.1 (List.mem_map_of_mem mem) same
      rw [show e = (e.1, e.2) from rfl, OrderedMap.mem_entries_iff, key, found] at mem
      exact Prod.ext key (Option.some.inj mem).symm
    case mpr =>
      rintro rfl
      exact ⟨OrderedMap.mem_entries_iff.mpr found, rfl⟩
  rw [ofMap, under_record, List.filter_map, List.map_map]
  exact congrArg (List.map _) only

end
end MetricCollector.Json
