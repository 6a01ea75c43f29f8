import MetricCollector.Console.Web
import MetricCollector.Proofs.Text.Digits
import MetricCollector.Proofs.Text.Pieces
import MetricCollector.Proofs.Text.Utf8

namespace MetricCollector

namespace Query

-- A byte as it may always be sent.
def percent (b : UInt8) : List Char :=
  ['%', Nat.digitChar (b.toNat / 16), Nat.digitChar (b.toNat % 16)]

-- A text as it may always be sent.
def encode (text : String) : List Char :=
  (text.toList.flatMap String.utf8EncodeChar).flatMap percent

theorem decodeBytes_percent (b : UInt8) (rest : List Char) :
    decodeBytes (percent b ++ rest) = b :: decodeBytes rest := by
  have less := b.toNat_lt
  have high := Text.hexValue?_digitChar (b.toNat / 16) (by omega)
  have low := Text.hexValue?_digitChar (b.toNat % 16) (by omega)
  have number : Text.hexNumber [Nat.digitChar (b.toNat / 16), Nat.digitChar (b.toNat % 16)] =
      b.toNat := by
    simp only [Text.hexNumber, List.foldl_cons, List.foldl_nil, high, low, Option.getD_some]
    omega
  simp [percent, decodeBytes, Text.isHexDigit, high, low, number]

theorem decodeBytes_flatMap_percent (bytes : List UInt8) :
    decodeBytes (bytes.flatMap percent) = bytes := by
  induction bytes
  case nil             => rfl
  case cons b bytes ih => rw [List.flatMap_cons, decodeBytes_percent, ih]

theorem decode_encode (text : String) : decode (encode text) = text := by
  rw [decode, encode, decodeBytes_flatMap_percent, Text.Utf8.decodeLossy, Text.Utf8.pieces_flatMap,
    List.map_map]
  have shown : Text.Utf8.Piece.shown ∘ Text.Utf8.Piece.char = id := rfl
  rw [shown, List.map_id, String.ofList_toList]

-- A text that is sent does not end the parameter that it is the value of.
theorem separator_not_mem_encode (text : String) : '&' ∉ encode text := by
  have digit : ∀ n < 16, '&' ≠ Nat.digitChar n := by decide
  intro mem
  obtain ⟨b, _, mem⟩ := List.mem_flatMap.mp mem
  have less := b.toNat_lt
  simp [percent, digit (b.toNat / 16) (by omega), digit (b.toNat % 16) (by omega)] at mem

end Query

namespace Web

-- Whatever the beginning of a name is, it can be asked for.
theorem exists_start?_eq (start : String) : ∃ query, start? query = .ok (some start) := by
  refine ⟨"prefix=".toList ++ Query.encode start, ?_⟩
  have separate : '&' ∉ "prefix=".toList ++ Query.encode start := by
    rw [List.mem_append, not_or]
    exact ⟨by decide, Query.separator_not_mem_encode start⟩
  have whole : Text.Pieces '&' ("prefix=".toList ++ Query.encode start)
      ["prefix=".toList ++ Query.encode start] := ⟨by simp, by simp, by simpa using separate⟩
  have parameter : Query.parameter ("prefix=".toList ++ Query.encode start) =
      (startParameter, start) := by
    have cut : Text.cutAt? '=' ("prefix".toList ++ '=' :: Query.encode start) = _ :=
      Text.cutAt?_append (by decide)
    have name : Query.decode "prefix".toList = startParameter := by decide +kernel
    show Query.parameter ("prefix".toList ++ '=' :: Query.encode start) = _
    rw [Query.parameter, cut]
    simp only [name, Query.decode_encode]
  have parameters : Query.parameters ("prefix=".toList ++ Query.encode start) =
      [(startParameter, start)] := by
    rw [Query.parameters, whole.splitOn_eq, ← parameter]
    rfl
  rw [start?, parameters]
  simp

end Web
end MetricCollector
