import MetricCollector.Address.Reader
import MetricCollector.Proofs.Text.Digits

namespace MetricCollector

open Text (expect scanNumber scanNumber_toDigits)

theorem expect_cons (c : Char) (cs : List Char) : expect c (c :: cs) = some ((), cs) :=
  if_pos rfl

theorem expect_cons_of_ne {c d : Char} (h : c ≠ d) (cs : List Char) : expect c (d :: cs) = none :=
  if_neg h

namespace HostV4

variable {rest : List Char}

theorem octet?_toDigits (o : UInt8) (stop : ∀ c ∈ rest.head?, c.isDigit = false) :
    octet? (Nat.toDigits 10 o.toNat ++ rest) = some (o, rest) := by
  have digits := Decimal.areDigits_toDigits o.toNat
  have less : o.toNat < 256 := o.toNat_lt
  have short : (Nat.toDigits 10 o.toNat).length ≤ 3 :=
    (Nat.length_toDigits_le_iff (by decide) (by decide)).mpr (by omega)
  have leading : ¬((Nat.toDigits 10 o.toNat).head? = some '0' ∧
      1 < (Nat.toDigits 10 o.toNat).length) := by
    rintro ⟨zero, long⟩
    rw [Text.toDigits_eq_of_head? (by decide) (by decide) zero] at long
    exact absurd long (by decide)
  simp only [octet?, Text.takeWhile_append_eq digits stop]
  rw [if_neg (by rintro (long | zero) <;> [omega; exact leading zero]),
    scanNumber_toDigits less stop, Option.map_some]
  simp

theorem octet?_eq_none {c : Char} (other : c.isDigit = false) (cs : List Char) :
    octet? (c :: cs) = none := by
  simp [octet?, scanNumber, other]

theorem scan_chars (h : HostV4) (stop : ∀ c ∈ rest.head?, c.isDigit = false) :
    scan (h.chars ++ rest) = some (h, rest) := by
  obtain ⟨octets, complete⟩ := h
  match octets, complete with
  | [a, b, c, d], rfl =>
    have point (cs : List Char) : ∀ e ∈ ('.' :: cs).head?, e.isDigit = false := by
      rintro e mem
      obtain rfl : '.' = e := by simpa using mem
      decide
    have text : chars ⟨[a, b, c, d], rfl⟩ ++ rest =
        Nat.toDigits 10 a.toNat ++ '.' :: (Nat.toDigits 10 b.toNat ++ '.' ::
          (Nat.toDigits 10 c.toNat ++ '.' :: (Nat.toDigits 10 d.toNat ++ rest))) := by
      simp [chars, List.intercalate]
    rw [text, scan]
    simp only [octet?_toDigits _ (point _), octet?_toDigits _ stop, expect_cons,
      Option.bind_eq_bind, Option.bind_some]

-- The first character that is no digit has to be a point.
theorem scan_eq_none {cs : List Char} (h : ∀ c ∈ (cs.dropWhile Char.isDigit).head?, c ≠ '.') :
    scan cs = none := by
  rw [scan]
  cases first : octet? cs
  case none => rfl
  case some found =>
    obtain ⟨o, cs'⟩ := found
    have behind : cs' = cs.dropWhile Char.isDigit := by
      simp only [octet?, scanNumber] at first
      split at first
      · cases first
      · split at first
        · exact (congrArg Prod.snd (Option.some.inj first)).symm
        · cases first
    have none : expect '.' cs' = none := by
      rw [behind]
      cases left : cs.dropWhile Char.isDigit
      case nil => rfl
      case cons c ds => exact expect_cons_of_ne (h c (by rw [left]; rfl)).symm ds
    simp [none]

end HostV4

namespace HostV6

variable {rest : List Char}

-- What a group cannot be mistaken in front of: it goes on neither in the group, nor with a point.
def EndsGroup (rest : List Char) : Prop :=
  ∀ c ∈ rest.head?, Text.isHexDigit c = false ∧ c ≠ '.'

theorem endsGroup_cons {c : Char} (h : Text.isHexDigit c = false ∧ c ≠ '.') (cs : List Char) :
    EndsGroup (c :: cs) := by
  intro d mem
  obtain rfl : c = d := by simpa using mem
  exact h

theorem group?_toDigits (g : UInt16) (ends : EndsGroup rest) :
    group? (Nat.toDigits 16 g.toNat ++ rest) = some (g, rest) := by
  have digits : ∀ c ∈ Nat.toDigits 16 g.toNat, Text.isHexDigit c = true := fun c mem =>
    Text.isHexDigit_of_mem_toDigits mem
  have stop : ∀ c ∈ rest.head?, Text.isHexDigit c = false := fun c mem => (ends c mem).1
  have less : g.toNat < 65536 := g.toNat_lt
  have short : (Nat.toDigits 16 g.toNat).length ≤ 4 :=
    (Nat.length_toDigits_le_iff (by decide) (by decide)).mpr (by omega)
  simp only [group?, Text.takeWhile_append_eq digits stop, Text.dropWhile_append_eq digits stop]
  rw [if_neg (by rintro (none | long) <;> [exact Nat.toDigits_ne_nil none; omega]),
    Text.hexNumber_toDigits]
  simp

theorem isHexDigit_of_isDigit {c : Char} (digit : c.isDigit = true) :
    Text.isHexDigit c = true := by
  simp [Text.isHexDigit, Text.hexValue?, digit]

-- A group is not taken for the first octet of a host in version 4.
theorem scanV4_toDigits (g : UInt16) (ends : EndsGroup rest) :
    HostV4.scan (Nat.toDigits 16 g.toNat ++ rest) = none := by
  refine HostV4.scan_eq_none fun c mem => ?_
  rw [List.dropWhile_append] at mem
  split at mem
  case isTrue =>
    cases rest
    case nil => cases mem
    case cons d rest =>
      have ⟨hex, point⟩ := ends d rfl
      have other : ¬d.isDigit = true := fun digit => by simp [isHexDigit_of_isDigit digit] at hex
      rw [List.dropWhile_cons_of_neg other] at mem
      obtain rfl : d = c := by simpa using mem
      exact point
  case isFalse some =>
    have inside : c ∈ (Nat.toDigits 16 g.toNat).dropWhile Char.isDigit := by
      rw [List.head?_append] at mem
      cases left : (Nat.toDigits 16 g.toNat).dropWhile Char.isDigit
      case nil => simp [left] at some
      case cons d ds =>
        rw [left] at mem
        obtain rfl : d = c := by simpa using mem
        exact .head _
    rintro rfl
    have := Text.isHexDigit_of_mem_toDigits (List.dropWhile_subset _ inside)
    exact absurd this (by decide)

theorem group?_eq_none {c : Char} (other : Text.isHexDigit c = false) (cs : List Char) :
    group? (c :: cs) = none := by
  simp [group?, other]

-- Groups that stand behind others.
def behindChars (gs : List UInt16) : List Char :=
  gs.flatMap fun g => ':' :: Nat.toDigits 16 g.toNat

theorem groupsChars_cons (g : UInt16) (gs : List UInt16) :
    groupsChars (g :: gs) = Nat.toDigits 16 g.toNat ++ behindChars gs := by
  induction gs generalizing g
  case nil => simp [groupsChars, behindChars, List.intercalate]
  case cons g' gs ih =>
    have step : groupsChars (g :: g' :: gs) =
        Nat.toDigits 16 g.toNat ++ ':' :: groupsChars (g' :: gs) := by
      simp [groupsChars, List.intercalate]
    rw [step, ih, behindChars, behindChars, List.flatMap_cons, List.cons_append]

-- What can follow the groups of a host: the end of the host, or the mark of what was left out.
inductive EndsGroups : List Char → Prop
  | bracket (cs : List Char) : EndsGroups (']' :: cs)
  | scope (cs : List Char) : EndsGroups ('%' :: cs)
  | omitted (cs : List Char) : EndsGroups (':' :: ':' :: cs)

theorem EndsGroups.endsGroup (h : EndsGroups rest) : EndsGroup rest := by
  cases h <;> exact endsGroup_cons (by decide) _

theorem endsGroup_behindChars (gs : List UInt16) (h : EndsGroups rest) :
    EndsGroup (behindChars gs ++ rest) := by
  cases gs
  case nil  => exact h.endsGroup
  case cons => exact endsGroup_cons (by decide) _

-- Where no group follows, none is read.
theorem scanGroups_ends (h : EndsGroups rest) (room : Nat) (first : Bool) :
    scanGroups room first rest = ({ groups := [] }, rest) := by
  cases room
  case zero => rfl
  case succ room =>
    have group : behindColon first group? rest = none := by
      cases h <;> cases first <;>
        simp [behindColon, expect_cons, expect_cons_of_ne, group?_eq_none, Text.isHexDigit,
          Text.hexValue?]
    have host : behindColon first HostV4.scan rest = none := by
      cases h <;> cases first <;>
        simp [behindColon, expect_cons, expect_cons_of_ne, HostV4.scan,
          HostV4.octet?_eq_none (show Char.isDigit ':' = false by decide),
          HostV4.octet?_eq_none (show Char.isDigit ']' = false by decide),
          HostV4.octet?_eq_none (show Char.isDigit '%' = false by decide)]
    simp [scanGroups, group, host]

theorem scanGroups_cons {first : Bool} {front : List Char} {g : UInt16} (ends : EndsGroup rest)
    (read : ∀ {α : Type} (scan : Text.Scan α), behindColon first scan front =
      scan (Nat.toDigits 16 g.toNat ++ rest)) (room : Nat) :
    scanGroups (room + 1) first front =
      ({ (scanGroups room false rest).1 with
          groups := g :: (scanGroups room false rest).1.groups },
        (scanGroups room false rest).2) := by
  have none : (if room = 0 then none else behindColon first HostV4.scan front) = none := by
    rw [read, scanV4_toDigits g ends, ite_self]
  rw [scanGroups, none, read, group?_toDigits g ends]

theorem scanGroups_behindChars {gs : List UInt16} {room : Nat} (fit : gs.length ≤ room)
    (ends : EndsGroups rest) :
    scanGroups room false (behindChars gs ++ rest) = ({ groups := gs }, rest) := by
  induction gs generalizing room
  case nil => exact scanGroups_ends ends room false
  case cons g gs ih =>
    obtain ⟨room, rfl⟩ := Nat.exists_eq_add_of_lt (Nat.lt_of_lt_of_le (Nat.succ_pos _) fit)
    rw [Nat.zero_add] at fit ⊢
    have text : behindChars (g :: gs) ++ rest =
        ':' :: (Nat.toDigits 16 g.toNat ++ (behindChars gs ++ rest)) := by
      simp [behindChars]
    rw [text, scanGroups_cons (endsGroup_behindChars gs ends) (fun _ => rfl) room,
      ih (Nat.le_of_succ_le_succ fit)]

theorem scanGroups_groupsChars {gs : List UInt16} {room : Nat} (fit : gs.length ≤ room)
    (ends : EndsGroups rest) :
    scanGroups room true (groupsChars gs ++ rest) = ({ groups := gs }, rest) := by
  cases gs
  case nil => exact scanGroups_ends ends room true
  case cons g gs =>
    obtain ⟨room, rfl⟩ := Nat.exists_eq_add_of_lt (Nat.lt_of_lt_of_le (Nat.succ_pos _) fit)
    rw [Nat.zero_add] at fit ⊢
    rw [groupsChars_cons, List.append_assoc,
      scanGroups_cons (endsGroup_behindChars gs ends) (fun _ => rfl) room,
      scanGroups_behindChars (Nat.le_of_succ_le_succ fit) ends]

section runs

variable {gs : List UInt16} {run : Run}

-- Whether the groups of a run are zeros.
def Run.IsZero (gs : List UInt16) (run : Run) : Prop :=
  (gs.drop run.start).take run.length = List.replicate run.length 0

theorem Run.IsZero.grow (h : run.IsZero gs) (next : gs[run.start + run.length]? = some 0) :
    Run.IsZero gs { run with length := run.length + 1 } := by
  rw [IsZero, List.take_add_one, h, List.getElem?_drop, next, List.replicate_succ']
  rfl

-- The run that ends behind a zero group at `index`.
def Run.grown (run : Run) (index : Nat) : Run :=
  if run.length = 0 then ⟨index, 1⟩ else { run with length := run.length + 1 }

theorem grown_of_touches {index : Nat} (next : gs[index]? = some 0)
    (touches : run.length ≠ 0 → run.start + run.length = index) (h : run.IsZero gs) :
    (run.grown index).IsZero gs ∧
      (run.grown index).start + (run.grown index).length = index + 1 := by
  rw [Run.grown]
  split
  case isTrue =>
    have start : Run.IsZero gs ⟨index, 0⟩ := by simp [Run.IsZero]
    exact ⟨start.grow next, rfl⟩
  case isFalse some =>
    have ends := touches some
    exact ⟨h.grow (by rw [ends, next]), by simp only; omega⟩

-- While the groups are run through, the run that ends here and the longest one so far are zeros.
theorem isZero_longestRun {front back : List UInt16} {index : Nat} {here best : Run}
    (split : gs = front ++ back) (position : front.length = index)
    (touches : here.length ≠ 0 → here.start + here.length = index)
    (here_zero : here.IsZero gs) (best_zero : best.IsZero gs) :
    (longestRun back index here best).IsZero gs := by
  induction back generalizing front index here best
  case nil => exact best_zero
  case cons g back ih =>
    have next : gs[index]? = some g := by
      rw [split, ← position, List.getElem?_append_right le_rfl, Nat.sub_self]
      rfl
    have split' : gs = (front ++ [g]) ++ back := by rw [split, List.append_assoc]; rfl
    have position' : (front ++ [g]).length = index + 1 := by
      rw [List.length_append, position]
      rfl
    rw [longestRun]
    split
    case isTrue zero =>
      have ⟨zeros, ends⟩ := grown_of_touches (zero ▸ next) touches here_zero
      refine ih split' position' (fun _ => ends) zeros ?_
      change Run.IsZero gs (if best.length < (here.grown index).length then _ else best)
      split
      · exact zeros
      · exact best_zero
    case isFalse =>
      exact ih split' position' (fun none => absurd rfl none) (by simp [Run.IsZero]) best_zero

theorem isZero_longestRun_all (gs : List UInt16) :
    (longestRun gs 0 ⟨0, 0⟩ ⟨0, 0⟩).IsZero gs :=
  isZero_longestRun (List.nil_append gs).symm rfl (fun none => absurd rfl none)
    (by simp [Run.IsZero]) (by simp [Run.IsZero])

-- A run of zeros divides the groups into those before it, the zeros, and those behind it.
theorem Run.IsZero.restore (h : run.IsZero gs) :
    gs.take run.start ++ List.replicate run.length 0 ++ gs.drop (run.start + run.length) = gs := by
  rw [← h, List.append_assoc, ← List.drop_drop, List.take_append_drop, List.take_append_drop]

theorem Run.IsZero.add_le (h : run.IsZero gs) (some : run.length ≠ 0) :
    run.start + run.length ≤ gs.length := by
  have length := congrArg List.length h
  rw [List.length_take, List.length_drop, List.length_replicate] at length
  omega

end runs

theorem ofGroups?_groups (h : HostV6) : ofGroups? h.groups = some h :=
  dif_pos h.complete

theorem ofGroups?_eq_none {gs : List UInt16} (h : gs.length ≠ 8) : ofGroups? gs = none :=
  dif_neg h

theorem scan_compressed (h : HostV6) (ends : EndsGroups rest) :
    scan (compressed h.groups ++ rest) = some (h, rest) := by
  have complete := h.complete
  have zero := isZero_longestRun_all h.groups
  rw [compressed]
  generalize longestRun h.groups 0 ⟨0, 0⟩ ⟨0, 0⟩ = run at zero
  split
  case isTrue long =>
    have inside := zero.add_le (by omega)
    have restore := zero.restore
    have front : (h.groups.take run.start).length = run.start := by rw [List.length_take]; omega
    have back : (h.groups.drop (run.start + run.length)).length = 8 - (run.start + run.length) := by
      rw [List.length_drop, complete]
    have left : 8 - run.start - (8 - (run.start + run.length)) = run.length := by omega
    simp only [List.append_assoc, List.cons_append]
    rw [scan]
    have fit : (h.groups.take run.start).length ≤ 8 := by omega
    have few : (h.groups.take run.start).length ≠ 8 := by omega
    simp only [scanGroups_groupsChars fit (.omitted _), ofGroups?_eq_none few, expect_cons,
      Option.bind_eq_bind, Option.bind_some, Bool.false_eq_true, if_false]
    rw [scanGroups_groupsChars (by omega) ends]
    simp only [front, back, left, restore, ofGroups?_groups, Option.map_some]
  case isFalse =>
    rw [scan]
    simp only [scanGroups_groupsChars complete.le ends, ofGroups?_groups]

theorem toUInt16_octetsOf (g : UInt16) :
    ((g.toNat / 256).toUInt8.toNat * 256 + (g.toNat % 256).toUInt8.toNat).toUInt16 = g := by
  have less : g.toNat < 65536 := g.toNat_lt
  have high : (g.toNat / 256).toUInt8.toNat = g.toNat / 256 := Nat.mod_eq_of_lt (by omega)
  have low : (g.toNat % 256).toUInt8.toNat = g.toNat % 256 := Nat.mod_eq_of_lt (by omega)
  rw [high, low, Nat.mul_comm, Nat.div_add_mod]
  exact UInt16.ofNat_toNat

theorem mapped?_inv {h : HostV6} {host : HostV4} (mapped : h.mapped? = some host) :
    h.groups = [0, 0, 0, 0, 0, 0xFFFF] ++ host.groups := by
  unfold mapped? at mapped
  split at mapped
  case h_1 a b groups =>
    cases mapped
    have last : HostV4.groups ⟨octetsOf a ++ octetsOf b, rfl⟩ = [a, b] :=
      congrArg₂ (fun g g' => [g, g']) (toUInt16_octetsOf a) (toUInt16_octetsOf b)
    rw [groups, last]
    rfl
  case h_2 => cases mapped

-- The last two groups follow the others behind a colon, where a host in version 4 is looked for
-- first.
theorem scan_mapped {h : HostV6} {host : HostV4} (mapped : h.mapped? = some host)
    (stop : ∀ c ∈ rest.head?, c.isDigit = false) :
    scan ("::ffff:".toList ++ host.chars ++ rest) = some (h, rest) := by
  have groups := mapped?_inv mapped
  have two : host.groups.length = 2 := by
    have := congrArg List.length groups
    rw [h.complete, List.length_append, List.length_cons] at this
    simp only [List.length_cons, List.length_nil] at this
    omega
  have first : scanGroups 8 true ("::ffff:".toList ++ host.chars ++ rest) =
      ({ groups := [] }, "::ffff:".toList ++ host.chars ++ rest) :=
    scanGroups_ends (.omitted _) 8 true
  have text : "ffff:".toList ++ (host.chars ++ rest) =
      Nat.toDigits 16 (0xFFFF : UInt16).toNat ++ (':' :: (host.chars ++ rest)) := by rfl
  have tail : scanGroups 7 true ("ffff:".toList ++ (host.chars ++ rest)) =
      ({ groups := 0xFFFF :: host.groups, embedded := true }, rest) := by
    have last : scanGroups 6 false (':' :: (host.chars ++ rest)) =
        ({ groups := host.groups, embedded := true }, rest) := by
      simp [scanGroups, behindColon, expect_cons, host.scan_chars stop]
    rw [text, scanGroups_cons (endsGroup_cons (by decide) _) (fun _ => rfl) 6, last]
  have restored : ofGroups? ([] ++ List.replicate (8 - 0 - (0xFFFF :: host.groups).length) 0 ++
      0xFFFF :: host.groups) = some h := by
    rw [List.length_cons, two, ← ofGroups?_groups h, groups]
    rfl
  rw [scan, first]
  simp only [ofGroups?_eq_none (by decide : ([] : List UInt16).length ≠ 8)]
  have marks : "::ffff:".toList ++ host.chars ++ rest =
      ':' :: ':' :: ("ffff:".toList ++ (host.chars ++ rest)) := by simp
  simp only [marks, expect_cons, Option.bind_eq_bind, Option.bind_some, Bool.false_eq_true,
    if_false, List.length_nil, tail]
  simp only [Nat.sub_zero] at restored ⊢
  rw [restored, Option.map_some]

theorem scan_chars (h : HostV6) (ends : EndsGroups rest)
    (stop : ∀ c ∈ rest.head?, c.isDigit = false) : scan (h.chars ++ rest) = some (h, rest) := by
  rw [chars]
  split
  case h_1 host mapped => exact scan_mapped mapped stop
  case h_2             => exact scan_compressed h ends

end HostV6

namespace Address

theorem port?_toDigits (port : UInt16) :
    port? (':' :: Nat.toDigits 10 port.toNat) = some (port, []) := by
  have less : port.toNat < twoTo 16 := port.toNat_lt
  have read : scanNumber (twoTo 16) (Nat.toDigits 10 port.toNat ++ []) = some (port.toNat, []) :=
    scanNumber_toDigits less (by simp)
  rw [List.append_nil] at read
  simp [port?, expect_cons, read]

theorem scope?_scopeChars (scope : UInt32) (cs : List Char) :
    (scope? (scopeChars scope ++ ']' :: cs)).getD (0, scopeChars scope ++ ']' :: cs) =
      (scope, ']' :: cs) := by
  rw [scopeChars]
  split
  case isTrue none => simp [none, scope?, expect_cons_of_ne]
  case isFalse =>
    have less : scope.toNat < twoTo 32 := scope.toNat_lt
    have read : scanNumber (twoTo 32) (Nat.toDigits 10 scope.toNat ++ ']' :: cs) =
        some (scope.toNat, ']' :: cs) := scanNumber_toDigits less (by simp)
    simp [scope?, expect_cons, read]

theorem scanV4_bracket (cs : List Char) : scanV4 ('[' :: cs) = none := by
  rw [scanV4, HostV4.scan, HostV4.octet?_eq_none (by decide)]
  rfl

theorem readChars?_chars (a : Address) : readChars? a.chars = some a := by
  cases a
  case v4 host port =>
    have read : scanV4 (host.chars ++ ':' :: Nat.toDigits 10 port.toNat) =
        some (.v4 host port, []) := by
      rw [scanV4, host.scan_chars (by simp)]
      simp [port?_toDigits]
    rw [chars, readChars?, read]
    rfl
  case v6 host scope port =>
    have ends (cs : List Char) : HostV6.EndsGroups (scopeChars scope ++ ']' :: cs) := by
      rw [scopeChars]
      split
      · exact .bracket cs
      · exact .scope _
    have stop (cs : List Char) :
        ∀ c ∈ (scopeChars scope ++ ']' :: cs).head?, c.isDigit = false := by
      rw [scopeChars]
      split <;> simp
    have read : scanV6 (chars (.v6 host scope port)) = some (.v6 host scope port, []) := by
      rw [chars, scanV6]
      simp only [List.cons_append, List.append_assoc, expect_cons, Option.bind_eq_bind,
        Option.bind_some, host.scan_chars (ends _) (stop _), scope?_scopeChars, port?_toDigits]
    have other : scanV4 (chars (.v6 host scope port)) = none := scanV4_bracket _
    rw [readChars?, other, read]
    rfl

-- Every address is read back.
theorem read?_text (a : Address) : read? a.text = some a := by
  rw [read?, text, String.toList_ofList, readChars?_chars]

end Address
end MetricCollector
