import LoxScan.Proofs.Source.Place

/-!
# Bytes of a text

In UTF-8 a byte below 128 stands for one character and is never part of
another. So a text without line feeds has no line feed among its bytes,
wherever those are cut.

No character starts with the bytes of another, either, so the bytes of a
leading text show that text (`prefix_of_extract`).
-/

namespace LoxScan.Text

theorem toNat_of_mem_utf8EncodeChar {c : Char} {b : UInt8} (hb : b.toNat < 128)
    (h : b ∈ String.utf8EncodeChar c) : c.toNat = b.toNat := by
  -- the bytes of longer characters have their highest bit set
  have hlong : ∀ n, 128 ≤ n → n < 256 → b ≠ UInt8.ofNat n := by
    rintro n hn hn' rfl
    rw [UInt8.toNat_ofNat'] at hb
    omega
  unfold String.utf8EncodeChar at h
  dsimp only at h
  split at h
  case isTrue hv =>
    rw [List.mem_singleton.mp h, UInt8.toNat_ofNat']
    show c.val.toNat = _
    omega
  split at h
  case isTrue =>
    simp only [List.mem_cons, List.not_mem_nil, or_false] at h
    rcases h with h | h <;> exact absurd h (hlong _ (by omega) (by omega))
  split at h
  case isTrue =>
    simp only [List.mem_cons, List.not_mem_nil, or_false] at h
    rcases h with h | h | h <;> exact absurd h (hlong _ (by omega) (by omega))
  case isFalse =>
    simp only [List.mem_cons, List.not_mem_nil, or_false] at h
    rcases h with h | h | h | h <;> exact absurd h (hlong _ (by omega) (by omega))

theorem toUTF8_eq (s : String) :
    s.toUTF8 = (s.toList.flatMap String.utf8EncodeChar).toByteArray :=
  String.utf8Encode_toList.symm

/-- A byte below 128 is a character of the text. -/
theorem exists_of_getElem_toUTF8 {s : String} {i : Nat} (hi : i < s.toUTF8.size)
    (h : s.toUTF8[i].toNat < 128) : ∃ c ∈ s.toList, c.toNat = s.toUTF8[i].toNat := by
  have hmem : s.toUTF8[i] ∈ s.toList.flatMap String.utf8EncodeChar := by
    simp only [toUTF8_eq, List.getElem_toByteArray]
    exact List.getElem_mem _
  obtain ⟨c, hc, hb⟩ := List.mem_flatMap.mp hmem
  exact ⟨c, hc, toNat_of_mem_utf8EncodeChar h hb⟩

theorem size_utf8Encode (cs : List Char) : cs.utf8Encode.size = byteLength cs := by
  rw [← String.toByteArray_ofList, String.size_toByteArray, ← byteLength_toList,
    String.toList_ofList]

theorem toUTF8_eq_append {s : String} {before rest : List Char} (h : s.toList = before ++ rest) :
    s.toUTF8 = before.utf8Encode ++ rest.utf8Encode := by
  rw [← List.utf8Encode_append, ← h, String.utf8Encode_toList]
  rfl

/-- A text with the same bytes at its start has the same characters
there. -/
theorem prefix_of_extract {cs rest : List Char} {s t : String} (hs : s.toList = cs ++ rest)
    (h : t.toUTF8.extract 0 (byteLength cs) = s.toUTF8.extract 0 (byteLength cs)) :
    cs <+: t.toList := by
  have hfront : s.toUTF8.extract 0 (byteLength cs) = cs.utf8Encode := by
    rw [toUTF8_eq_append hs, ByteArray.extract_append_eq_left (size_utf8Encode cs).symm]
  have hsplit : cs.utf8Encode ++ t.toUTF8.extract (byteLength cs) t.toUTF8.size
      = t.toList.utf8Encode := by
    have hle : byteLength cs ≤ t.toUTF8.size := by
      rw [← size_utf8Encode, ← hfront, ← h, ByteArray.size_extract]
      omega
    rw [← hfront, ← h, ByteArray.extract_append_extract, Nat.min_eq_left (Nat.zero_le _),
      Nat.max_eq_right hle, ByteArray.extract_zero_size, String.utf8Encode_toList]
    rfl
  exact List.isPrefix_of_utf8Encode_append_eq_utf8Encode _ hsplit

end LoxScan.Text
