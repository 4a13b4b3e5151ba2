import LedgerSandbox.Bytes

/-!
# The bytes of a text

UTF-8 keeps ASCII apart: a byte below 0x80 stands for the character of that number
wherever it occurs, and is never a part of another character. Whether a text holds
an ASCII character can therefore be read off its bytes (`exists_char_of_mem_encodeUtf8`).
-/

namespace LedgerSandbox

/-- The encoding of a text is that of its characters, one after the other. -/
theorem encodeUtf8_eq_flatMap (text : String) :
    encodeUtf8 text = text.toList.flatMap String.utf8EncodeChar := by
  rw [encodeUtf8, Bytes.ofByteArray, String.toUTF8_eq_toByteArray, ← String.utf8Encode_toList,
    List.utf8Encode, List.toList_data_toByteArray]

/-- An ASCII byte in the encoding of a character is that character. -/
theorem toNat_eq_of_mem_utf8EncodeChar {c : Char} {b : UInt8}
    (h : b ∈ String.utf8EncodeChar c) (hb : b.toNat < 0x80) : c.toNat = b.toNat := by
  -- Every byte of a longer encoding has its top bit set.
  have high : ∀ n p q, n < q → q + p ≤ 0x100 → 0x80 ≤ p → b ≠ UInt8.ofNat (n + p) := by
    intro n p q hn hq hp heq
    rw [heq, UInt8.toNat_ofNat', Nat.mod_eq_of_lt (by omega)] at hb
    omega
  unfold String.utf8EncodeChar at h
  dsimp only at h
  split at h
  · rename_i hsmall
    rw [List.mem_singleton] at h
    subst h
    rw [UInt8.toNat_ofNat', Nat.mod_eq_of_lt (by omega)]
    rfl
  · exfalso
    split at h
    · simp only [List.mem_cons, List.not_mem_nil, or_false] at h
      rcases h with h | h
      · exact high _ 0xc0 0x20 (Nat.mod_lt _ (by omega)) (by omega) (by omega) h
      · exact high _ 0x80 0x40 (Nat.mod_lt _ (by omega)) (by omega) (by omega) h
    · split at h
      · simp only [List.mem_cons, List.not_mem_nil, or_false] at h
        rcases h with h | h | h
        · exact high _ 0xe0 0x10 (Nat.mod_lt _ (by omega)) (by omega) (by omega) h
        all_goals exact high _ 0x80 0x40 (Nat.mod_lt _ (by omega)) (by omega) (by omega) h
      · simp only [List.mem_cons, List.not_mem_nil, or_false] at h
        rcases h with h | h | h | h
        · exact high _ 0xf0 0x08 (Nat.mod_lt _ (by omega)) (by omega) (by omega) h
        all_goals exact high _ 0x80 0x40 (Nat.mod_lt _ (by omega)) (by omega) (by omega) h

/-- An ASCII byte in the encoding of a text is one of its characters. -/
theorem exists_char_of_mem_encodeUtf8 {text : String} {b : UInt8}
    (h : b ∈ encodeUtf8 text) (hb : b.toNat < 0x80) : ∃ c ∈ text.toList, c.toNat = b.toNat := by
  rw [encodeUtf8_eq_flatMap] at h
  obtain ⟨c, hc, hbc⟩ := List.mem_flatMap.mp h
  exact ⟨c, hc, toNat_eq_of_mem_utf8EncodeChar hbc hb⟩

/-- A text holds an ASCII character just if its encoding holds the byte of this number. -/
theorem ascii_mem_encodeUtf8_iff {text : String} {c : Char} (h : c.toNat < 0x80) :
    UInt8.ofNat c.toNat ∈ encodeUtf8 text ↔ c ∈ text.toList := by
  have hbyte : (UInt8.ofNat c.toNat).toNat = c.toNat := by
    rw [UInt8.toNat_ofNat', Nat.mod_eq_of_lt (by omega)]
  constructor
  · intro hmem
    obtain ⟨d, hd, hdc⟩ := exists_char_of_mem_encodeUtf8 hmem (by rwa [hbyte])
    rw [hbyte] at hdc
    rwa [← Char.toNat_inj.mp hdc]
  · intro hmem
    have hsmall : c.val.toNat ≤ 127 := Nat.le_of_lt_succ h
    rw [encodeUtf8_eq_flatMap]
    refine List.mem_flatMap.mpr ⟨c, hmem, ?_⟩
    unfold String.utf8EncodeChar
    dsimp only
    rw [if_pos hsmall]
    exact List.mem_cons_self

end LedgerSandbox
