import Mathlib.Data.Nat.Notation
import Mathlib.Tactic.ByContra
import Mathlib.Tactic.SplitIfs
import MetricCollector.Text.Utf8

namespace MetricCollector.Text.Utf8

-- A byte that stands behind the first one of a character.
def IsTail (b : UInt8) : Prop :=
  0x80 ≤ b.toNat ∧ b.toNat ≤ 0xBF

-- How bytes spell a character. The second byte rules out numbers that fewer bytes spell, surrogates
-- and numbers above 0x10FFFF.
inductive Spells : List UInt8 → ℕ → Prop
  | one {a : UInt8} (high : a.toNat < 0x80) : Spells [a] a.toNat
  | two {a b : UInt8} (low : 0xC2 ≤ a.toNat) (high : a.toNat ≤ 0xDF) (hb : IsTail b) :
    Spells [a, b] ((a.toNat - 0xC0) * 0x40 + (b.toNat - 0x80))
  | three {a b c : UInt8} (low : 0xE0 ≤ a.toNat) (high : a.toNat ≤ 0xEF)
      (overlong : a.toNat = 0xE0 → 0xA0 ≤ b.toNat) (surrogate : a.toNat = 0xED → b.toNat ≤ 0x9F)
      (hb : IsTail b) (hc : IsTail c) :
    Spells [a, b, c] (((a.toNat - 0xE0) * 0x40 + (b.toNat - 0x80)) * 0x40 + (c.toNat - 0x80))
  | four {a b c d : UInt8} (low : 0xF0 ≤ a.toNat) (high : a.toNat ≤ 0xF4)
      (overlong : a.toNat = 0xF0 → 0x90 ≤ b.toNat) (large : a.toNat = 0xF4 → b.toNat ≤ 0x8F)
      (hb : IsTail b) (hc : IsTail c) (hd : IsTail d) :
    Spells [a, b, c, d] ((((a.toNat - 0xF0) * 0x40 + (b.toNat - 0x80)) * 0x40 +
      (c.toNat - 0x80)) * 0x40 + (d.toNat - 0x80))

namespace Spells

variable {a : UInt8} {bytes : List UInt8} {n m : ℕ}

theorem of_eq (h : Spells bytes n) (same : n = m) : Spells bytes m :=
  same ▸ h

theorem isValidChar (h : Spells bytes n) : n.isValidChar := by
  cases h <;> simp only [Nat.isValidChar, IsTail] at * <;> omega

theorem utf8EncodeChar_eq (h : Spells bytes n) : String.utf8EncodeChar (Char.ofNat n) = bytes := by
  have number : (Char.ofNat n).val.toNat = n := by
    rw [Char.ofNat, dif_pos h.isValidChar]
    rfl
  have byte {a : UInt8} {k : ℕ} (same : k = a.toNat) : UInt8.ofNat k = a :=
    same ▸ UInt8.ofNat_toNat
  simp only [String.utf8EncodeChar, number]
  cases h
  case one => rw [if_pos (by omega), UInt8.ofNat_toNat]
  case two =>
    simp only [IsTail] at *
    rw [if_neg (by omega), if_pos (by omega)]
    simp only [List.cons.injEq, and_true]
    exact ⟨byte (by omega), byte (by omega)⟩
  case three =>
    simp only [IsTail] at *
    rw [if_neg (by omega), if_neg (by omega), if_pos (by omega)]
    simp only [List.cons.injEq, and_true]
    exact ⟨byte (by omega), byte (by omega), byte (by omega)⟩
  case four =>
    simp only [IsTail] at *
    rw [if_neg (by omega), if_neg (by omega), if_neg (by omega)]
    simp only [List.cons.injEq, and_true]
    exact ⟨byte (by omega), byte (by omega), byte (by omega), byte (by omega)⟩

end Spells

theorem spells_utf8EncodeChar (c : Char) : Spells (String.utf8EncodeChar c) c.toNat := by
  have valid : c.val.toNat.isValidChar := c.valid
  rw [Nat.isValidChar] at valid
  rw [show c.toNat = c.val.toNat from rfl]
  simp only [String.utf8EncodeChar]
  generalize c.val.toNat = n at valid
  have byte (k : ℕ) (h : k < 256) : (UInt8.ofNat k).toNat = k := by
    rw [UInt8.toNat_ofNat', Nat.mod_eq_of_lt h]
  split_ifs with one two three
  case pos =>
    have a := byte n (by omega)
    exact (Spells.one (by omega)).of_eq a
  case pos =>
    have a := byte (n / 64 % 32 + 192) (by omega)
    have b := byte (n % 64 + 128) (by omega)
    exact (Spells.two (by omega) (by omega) ⟨by omega, by omega⟩).of_eq (by omega)
  case pos =>
    have a := byte (n / 4096 % 16 + 224) (by omega)
    have b := byte (n / 64 % 64 + 128) (by omega)
    have c := byte (n % 64 + 128) (by omega)
    exact (Spells.three (by omega) (by omega) (by omega) (by omega) ⟨by omega, by omega⟩
      ⟨by omega, by omega⟩).of_eq (by omega)
  case neg =>
    have a := byte (n / 262144 % 8 + 240) (by omega)
    have b := byte (n / 4096 % 64 + 128) (by omega)
    have c := byte (n / 64 % 64 + 128) (by omega)
    have d := byte (n % 64 + 128) (by omega)
    exact (Spells.four (by omega) (by omega) (by omega) (by omega) ⟨by omega, by omega⟩
      ⟨by omega, by omega⟩ ⟨by omega, by omega⟩).of_eq (by omega)

-- Whether the next byte may be `b`.
def Pending.Admits (p : Pending) (b : UInt8) : Prop :=
  p.low ≤ b.toNat ∧ b.toNat ≤ p.high

theorem IsTail.admits {b : UInt8} (h : IsTail b) {code owed : ℕ} :
    (Pending.mk code owed 0x80 0xBF).Admits b := h

section steps

variable {a b : UInt8} {bytes rest : List UInt8} {p : Pending} {n : ℕ}

theorem lead_one (high : a.toNat < 0x80) : lead a = ([.char (Char.ofNat a.toNat)], none) := by
  simp only [lead, if_pos high]

theorem lead_two (low : 0xC2 ≤ a.toNat) (high : a.toNat ≤ 0xDF) :
    lead a = ([], some ⟨a.toNat - 0xC0, 1, 0x80, 0xBF⟩) := by
  simp only [lead]
  rw [if_neg (by omega), if_pos ⟨low, high⟩]

theorem lead_three (low : 0xE0 ≤ a.toNat) (high : a.toNat ≤ 0xEF) :
    ∃ p, lead a = ([], some p) ∧ p.code = a.toNat - 0xE0 ∧ p.owed = 2 ∧ ∀ b, p.Admits b ↔
      IsTail b ∧ (a.toNat = 0xE0 → 0xA0 ≤ b.toNat) ∧ (a.toNat = 0xED → b.toNat ≤ 0x9F) := by
  simp only [lead, Pending.Admits, IsTail]
  rw [if_neg (by omega), if_neg (by omega)]
  split_ifs with first surrogate range
  case pos => exact ⟨_, rfl, by dsimp only; omega, rfl, fun b => by dsimp only; omega⟩
  case pos => exact ⟨_, rfl, by dsimp only; omega, rfl, fun b => by dsimp only; omega⟩
  case pos => exact ⟨_, rfl, rfl, rfl, fun b => by dsimp only; omega⟩
  all_goals omega

theorem lead_four (low : 0xF0 ≤ a.toNat) (high : a.toNat ≤ 0xF4) :
    ∃ p, lead a = ([], some p) ∧ p.code = a.toNat - 0xF0 ∧ p.owed = 3 ∧ ∀ b, p.Admits b ↔
      IsTail b ∧ (a.toNat = 0xF0 → 0x90 ≤ b.toNat) ∧ (a.toNat = 0xF4 → b.toNat ≤ 0x8F) := by
  simp only [lead, Pending.Admits, IsTail]
  rw [if_neg (by omega), if_neg (by omega), if_neg (by omega), if_neg (by omega),
    if_neg (by omega)]
  split_ifs with first range last
  case pos => exact ⟨_, rfl, by dsimp only; omega, rfl, fun b => by dsimp only; omega⟩
  case pos => exact ⟨_, rfl, rfl, rfl, fun b => by dsimp only; omega⟩
  case pos => exact ⟨_, rfl, by dsimp only; omega, rfl, fun b => by dsimp only; omega⟩
  case neg => omega

theorem lead_other (low : 0x80 ≤ a.toNat) (range : a.toNat < 0xC2 ∨ 0xF4 < a.toNat) :
    lead a = ([.gap], none) := by
  simp only [lead]
  split_ifs <;> first | rfl | omega

theorem pieces_cons (a : UInt8) (rest : List UInt8) :
    pieces (a :: rest) = (lead a).1 ++ piecesAfter (lead a).2 rest := rfl

-- The last byte of a character.
theorem piecesAfter_last (admits : p.Admits b) (owed : p.owed = 1) (rest : List UInt8) :
    piecesAfter (some p) (b :: rest) =
      .char (Char.ofNat (p.code * 0x40 + (b.toNat - 0x80))) :: pieces rest := by
  have inside : p.low ≤ b.toNat ∧ b.toNat ≤ p.high := admits
  simp only [piecesAfter, continuation, if_pos inside, if_pos (show p.owed ≤ 1 by omega)]
  rfl

theorem piecesAfter_inner (admits : p.Admits b) {owed : ℕ} (more : p.owed = owed + 2)
    (rest : List UInt8) : piecesAfter (some p) (b :: rest) =
      piecesAfter (some ⟨p.code * 0x40 + (b.toNat - 0x80), owed + 1, 0x80, 0xBF⟩) rest := by
  have inside : p.low ≤ b.toNat ∧ b.toNat ≤ p.high := admits
  simp only [piecesAfter, continuation, if_pos inside, if_neg (show ¬p.owed ≤ 1 by omega)]
  rw [more]
  rfl

-- What a character is read from is followed by the rest as if nothing had been in front of it.
theorem Spells.pieces_append (h : Spells bytes n) (rest : List UInt8) :
    pieces (bytes ++ rest) = .char (Char.ofNat n) :: pieces rest := by
  cases h <;> rw [List.cons_append, pieces_cons]
  case one high =>
    rw [lead_one high]
    rfl
  case two low high hb =>
    rw [lead_two low high, List.cons_append, piecesAfter_last hb.admits rfl]
    rfl
  case three low high overlong surrogate hb hc =>
    obtain ⟨p, lead, code, owed, admits⟩ := lead_three low high
    rw [lead, List.cons_append, List.cons_append,
      piecesAfter_inner ((admits _).mpr ⟨hb, overlong, surrogate⟩) owed,
      piecesAfter_last hc.admits rfl, code]
    rfl
  case four low high overlong large hb hc hd =>
    obtain ⟨p, lead, code, owed, admits⟩ := lead_four low high
    rw [lead, List.cons_append, List.cons_append, List.cons_append,
      piecesAfter_inner ((admits _).mpr ⟨hb, overlong, large⟩) owed,
      piecesAfter_inner hc.admits rfl, piecesAfter_last hd.admits rfl, code]
    rfl

-- Where no gap is left, what is pending is continued.
theorem exists_admits (whole : .gap ∉ piecesAfter (some p) bytes) :
    ∃ b rest, bytes = b :: rest ∧ p.Admits b := by
  cases bytes
  case nil => simp [piecesAfter] at whole
  case cons b rest =>
    refine ⟨b, rest, rfl, ?_⟩
    by_contra other
    have outside : ¬(p.low ≤ b.toNat ∧ b.toNat ≤ p.high) := other
    have gap : (continuation p b).1 = .gap :: (lead b).1 := by
      simp only [continuation, if_neg outside]
    simp [piecesAfter, gap] at whole

theorem exists_spells (whole : .gap ∉ pieces (a :: bytes)) :
    ∃ front rest n, a :: bytes = front ++ rest ∧ Spells front n := by
  rw [pieces_cons] at whole
  have range : a.toNat < 0x80 ∨ (0xC2 ≤ a.toNat ∧ a.toNat ≤ 0xDF) ∨
      (0xE0 ≤ a.toNat ∧ a.toNat ≤ 0xEF) ∨ (0xF0 ≤ a.toNat ∧ a.toNat ≤ 0xF4) ∨
      (0x80 ≤ a.toNat ∧ (a.toNat < 0xC2 ∨ 0xF4 < a.toNat)) := by
    omega
  rcases range with high | ⟨low, high⟩ | ⟨low, high⟩ | ⟨low, high⟩ | ⟨low, other⟩
  · exact ⟨[a], bytes, _, rfl, .one high⟩
  · rw [lead_two low high] at whole
    obtain ⟨b, rest, rfl, hb⟩ := exists_admits whole
    exact ⟨[a, b], rest, _, rfl, .two low high hb⟩
  · obtain ⟨p, lead, _, owed, admits⟩ := lead_three low high
    rw [lead] at whole
    obtain ⟨b, rest, rfl, hb⟩ := exists_admits whole
    rw [piecesAfter_inner hb owed] at whole
    obtain ⟨c, rest, rfl, hc⟩ := exists_admits whole
    obtain ⟨hb, overlong, surrogate⟩ := (admits b).mp hb
    exact ⟨[a, b, c], rest, _, rfl, .three low high overlong surrogate hb hc⟩
  · obtain ⟨p, lead, _, owed, admits⟩ := lead_four low high
    rw [lead] at whole
    obtain ⟨b, rest, rfl, hb⟩ := exists_admits whole
    rw [piecesAfter_inner hb owed] at whole
    obtain ⟨c, rest, rfl, hc⟩ := exists_admits whole
    rw [List.nil_append, piecesAfter_inner hc rfl] at whole
    obtain ⟨d, rest, rfl, hd⟩ := exists_admits whole
    obtain ⟨hb, overlong, large⟩ := (admits b).mp hb
    exact ⟨[a, b, c, d], rest, _, rfl, .four low high overlong large hb hc hd⟩
  · simp [lead_other low other] at whole

end steps

section texts

variable {bytes : List UInt8} {text : String}

theorem pieces_flatMap (cs : List Char) :
    pieces (cs.flatMap String.utf8EncodeChar) = cs.map .char := by
  induction cs
  case nil => rfl
  case cons c cs ih =>
    rw [List.flatMap_cons, (spells_utf8EncodeChar c).pieces_append, ih, Char.ofNat_toNat]
    rfl

-- Character by character, each of which takes at least one byte.
theorem exists_flatMap_eq (whole : .gap ∉ pieces bytes) :
    ∃ cs : List Char, cs.flatMap String.utf8EncodeChar = bytes := by
  induction size : bytes.length using Nat.strongRecOn generalizing bytes
  case ind size ih =>
    subst size
    cases bytes
    case nil => exact ⟨[], rfl⟩
    case cons a bytes =>
      obtain ⟨front, rest, n, parts, spells⟩ := exists_spells whole
      rw [parts, spells.pieces_append, List.mem_cons, not_or] at whole
      have shorter : rest.length < (a :: bytes).length := by
        have some : front.length ≠ 0 := by
          cases spells <;> simp
        rw [parts, List.length_append]
        omega
      obtain ⟨cs, chars⟩ := ih rest.length shorter whole.2 rfl
      refine ⟨Char.ofNat n :: cs, ?_⟩
      rw [List.flatMap_cons, chars, spells.utf8EncodeChar_eq, parts]

theorem pieces_eq_map_iff {cs : List Char} :
    pieces bytes = cs.map .char ↔ cs.flatMap String.utf8EncodeChar = bytes := by
  constructor
  case mp =>
    intro read
    have whole : .gap ∉ pieces bytes := by simp [read]
    obtain ⟨cs', rfl⟩ := exists_flatMap_eq whole
    rw [pieces_flatMap, List.map_inj_right fun _ _ => Piece.char.inj] at read
    rw [read]
  case mpr =>
    rintro rfl
    exact pieces_flatMap cs

theorem mapM_char?_eq_some_iff {ps : List Piece} {cs : List Char} :
    ps.mapM Piece.char? = some cs ↔ ps = cs.map .char := by
  induction ps generalizing cs
  case nil => cases cs <;> simp
  case cons p ps ih =>
    rw [List.mapM_cons]
    cases p
    case gap => cases cs <;> simp [Piece.char?]
    case char c =>
      cases cs
      case nil       => simp [Piece.char?, Option.bind_eq_some_iff]
      case cons d cs => simpa [Piece.char?, Option.bind_eq_some_iff, ih] using and_comm

theorem decode?_eq_some_iff : decode? bytes = some text ↔ text.toUTF8 = bytes.toByteArray := by
  have encoded : text.toUTF8 = (text.toList.flatMap String.utf8EncodeChar).toByteArray :=
    String.utf8Encode_toList.symm
  rw [encoded, List.toByteArray_inj, ← pieces_eq_map_iff, ← mapM_char?_eq_some_iff, decode?,
    Option.map_eq_some_iff]
  constructor
  case mp =>
    rintro ⟨cs, read, rfl⟩
    rwa [String.toList_ofList]
  case mpr => exact fun read => ⟨_, read, String.ofList_toList⟩

theorem flatMap_of_decode? (h : decode? bytes = some text) :
    text.toList.flatMap String.utf8EncodeChar = bytes := by
  have encoded : text.toUTF8 = (text.toList.flatMap String.utf8EncodeChar).toByteArray :=
    String.utf8Encode_toList.symm
  rw [decode?_eq_some_iff, encoded, List.toByteArray_inj] at h
  exact h

theorem decode?_eq_none_iff : decode? bytes = none ↔ ¬bytes.toByteArray.IsValidUTF8 := by
  rw [Option.eq_none_iff_forall_ne_some]
  constructor
  case mp  => exact fun unread valid => unread ⟨_, valid⟩ (decode?_eq_some_iff.mpr rfl)
  case mpr =>
    intro invalid text read
    exact invalid (decode?_eq_some_iff.mp read ▸ text.isValidUTF8)

end texts
end MetricCollector.Text.Utf8
