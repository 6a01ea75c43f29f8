import MetricCollector.Proofs.Address.RoundTrip
import MetricCollector.Proofs.Outcome
import MetricCollector.Proofs.Text.Pieces

namespace MetricCollector

open Text (scanNumber scanNumber_eq_some_nil_iff toList_trim)

-- The digits of a port, which may start with zeros.
structure IsPort (ds : List Char) (port : UInt16) : Prop where
  nonempty : ds ≠ []
  digits   : Decimal.AreDigits ds
  value    : Decimal.digitsValue ds = port.toNat

-- Where to listen, if anywhere.
inductive Listens (text : String) : Option Address → Prop
  | nowhere (blank : Text.trim text = "") : Listens text none
  | everywhere {ds : List Char} {port : UInt16} (behind : (Text.trim text).toList = ':' :: ds)
    (isPort : IsPort ds port) : Listens text (some (.everywhere port))
  | there {a : Address} (read : Address.read? (Text.trim text) = some a) : Listens text (some a)

namespace Address

variable {ds : List Char} {port : UInt16} {a : Address} {a? : Option Address} {text : String}
  {e : InvalidListenAddress}

theorem port?_colon :
    port? (':' :: ds) = (scanNumber (twoTo 16) ds).map fun found => (found.1.toUInt16, found.2) := by
  simp only [port?, expect_cons, Option.bind_eq_bind, Option.bind_some]
  cases scanNumber (twoTo 16) ds <;> rfl

theorem port?_eq_some_iff : port? (':' :: ds) = some (port, []) ↔ IsPort ds port := by
  rw [port?_colon, Option.map_eq_some_iff]
  constructor
  case mp =>
    rintro ⟨⟨n, rest⟩, read, same⟩
    obtain ⟨rfl, rfl⟩ := Prod.mk.inj same
    obtain ⟨nonempty, digits, value, less⟩ := scanNumber_eq_some_nil_iff.mp read
    exact ⟨nonempty, digits, value.trans (Nat.mod_eq_of_lt less).symm⟩
  case mpr =>
    rintro ⟨nonempty, digits, value⟩
    have less : port.toNat < twoTo 16 := port.toNat_lt
    refine ⟨(port.toNat, []), scanNumber_eq_some_nil_iff.mpr ⟨nonempty, digits, value, less⟩, ?_⟩
    simp

-- A port behind the host of all interfaces.
theorem readChars?_everywhere : readChars? ("0.0.0.0".toList ++ ':' :: ds) = some a ↔
    ∃ port, a = .everywhere port ∧ IsPort ds port := by
  let host : HostV4 := ⟨[0, 0, 0, 0], rfl⟩
  have written : host.chars = "0.0.0.0".toList := by decide
  have four : scanV4 (host.chars ++ ':' :: ds) =
      (port? (':' :: ds)).map fun found => (.v4 host found.1, found.2) := by
    rw [scanV4, host.scan_chars (by simp)]
    cases read : port? (':' :: ds) <;> simp [read]
  have six : scanV6 (host.chars ++ ':' :: ds) = none := by
    rw [written]
    rfl
  simp only [← written, readChars?, four, six, Option.or_none, ← port?_eq_some_iff]
  cases port? (':' :: ds)
  case none => simp
  case some found =>
    obtain ⟨port, rest⟩ := found
    simp [everywhere, host, eq_comm, and_comm]

theorem readChars?_nil : readChars? [] = none := rfl

-- No address starts with a colon.
theorem readChars?_colon : readChars? (':' :: ds) = none := by
  have four : scanV4 (':' :: ds) = none := by
    rw [scanV4, HostV4.scan, HostV4.octet?_eq_none (by decide)]
    rfl
  have six : scanV6 (':' :: ds) = none := by
    rw [scanV6, expect_cons_of_ne (by decide)]
    rfl
  rw [readChars?, four, six]
  rfl

section shapes

variable {c : Char}

-- What is left of a text is nothing, or starts with a colon, or with something else.
theorem listens_iff_of_nil (inner : Text.trimChars text.toList = []) :
    Listens text a? ↔ a? = none := by
  rw [← toList_trim] at inner
  constructor
  case mp =>
    rintro (_ | ⟨behind, _⟩ | read)
    · rfl
    · cases inner.symm.trans behind
    · rw [read?, inner, readChars?_nil] at read
      cases read
  case mpr =>
    rintro rfl
    exact .nowhere (String.toList_eq_nil_iff.mp inner)

theorem listens_iff_of_colon (inner : Text.trimChars text.toList = ':' :: ds) :
    Listens text a? ↔ ∃ port, a? = some (.everywhere port) ∧ IsPort ds port := by
  rw [← toList_trim] at inner
  constructor
  case mp =>
    rintro (blank | ⟨behind, isPort⟩ | read)
    · simp [blank] at inner
    · cases inner.symm.trans behind
      exact ⟨_, rfl, isPort⟩
    · rw [read?, inner, readChars?_colon] at read
      cases read
  case mpr =>
    rintro ⟨port, rfl, isPort⟩
    exact .everywhere inner isPort

theorem listens_iff_of_other (inner : Text.trimChars text.toList = c :: ds) (other : c ≠ ':') :
    Listens text a? ↔ ∃ a, readChars? (c :: ds) = some a ∧ a? = some a := by
  rw [← toList_trim] at inner
  constructor
  case mp =>
    rintro (blank | ⟨behind, _⟩ | read)
    · simp [blank] at inner
    · cases inner.symm.trans behind
      exact absurd rfl other
    · rw [read?, inner] at read
      exact ⟨_, read, rfl⟩
  case mpr =>
    rintro ⟨a, read, rfl⟩
    rw [← inner] at read
    exact .there read

theorem readListen_of_nil (inner : Text.trimChars text.toList = []) :
    readListen text = .ok none := by
  rw [readListen, inner]

-- Anything else is an address, or refused without the blanks around it.
theorem readListen_of_cons (inner : Text.trimChars text.toList = c :: ds) :
    readListen text =
      ((readChars? (if c = ':' then "0.0.0.0".toList ++ c :: ds else c :: ds)).map some).elim
        (.error ⟨Text.trim text⟩) .ok := by
  simp only [readListen, Text.trim, inner, List.head?_cons, Option.some_inj]
  cases readChars? (if c = ':' then "0.0.0.0".toList ++ c :: ds else c :: ds) <;> rfl

end shapes

theorem readListen_eq_ok_iff : readListen text = .ok a? ↔ Listens text a? := by
  cases inner : Text.trimChars text.toList
  case nil =>
    rw [readListen_of_nil inner, listens_iff_of_nil inner, Except.ok.injEq, eq_comm]
  case cons c ds =>
    rw [readListen_of_cons inner, elim_eq_ok_iff, Option.map_eq_some_iff]
    split
    case isTrue colon =>
      subst colon
      rw [listens_iff_of_colon inner]
      simp only [readChars?_everywhere]
      constructor
      case mp =>
        rintro ⟨_, ⟨port, rfl, isPort⟩, rfl⟩
        exact ⟨port, rfl, isPort⟩
      case mpr =>
        rintro ⟨port, rfl, isPort⟩
        exact ⟨_, ⟨port, rfl, isPort⟩, rfl⟩
    case isFalse other =>
      rw [listens_iff_of_other inner other]
      exact exists_congr fun a => and_congr_right' eq_comm

theorem eq_trim_of_readListen (refused : readListen text = .error e) : e = ⟨Text.trim text⟩ := by
  cases inner : Text.trimChars text.toList
  case nil =>
    rw [readListen_of_nil inner] at refused
    cases refused
  case cons c ds =>
    rw [readListen_of_cons inner, elim_eq_error_iff] at refused
    exact refused.2

end Address
end MetricCollector
