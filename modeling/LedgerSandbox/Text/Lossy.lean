import LedgerSandbox.Bytes

/-!
# Reading damaged text

`decodeLossy` reads any byte string as a text: well-formed UTF-8 is read as it
stands, and each *maximal subpart* of an ill-formed sequence (the longest start
of a character that the bytes still allow, at least one byte) becomes one
replacement character U+FFFD.
-/

namespace LedgerSandbox.Text

/-- What the first byte of a multi-byte character asks of the bytes after it. -/
structure Lead where
  /-- How many bytes follow. -/
  tails : Nat
  /-- The bits of the code point that the first byte holds. -/
  bits : Nat
  /-- The least and the greatest value of the second byte. -/
  low : UInt8
  high : UInt8

/-- The multi-byte characters that a byte can start. The narrower bounds of the
second byte keep out overlong forms, surrogates and code points past U+10FFFF. -/
def Lead.ofByte? (b : UInt8) : Option Lead :=
  if b < 0xC2 then none
  else if b < 0xE0 then some ⟨1, b.toNat - 0xC0, 0x80, 0xBF⟩
  else if b = 0xE0 then some ⟨2, 0, 0xA0, 0xBF⟩
  else if b = 0xED then some ⟨2, 0xD, 0x80, 0x9F⟩
  else if b < 0xF0 then some ⟨2, b.toNat - 0xE0, 0x80, 0xBF⟩
  else if b = 0xF0 then some ⟨3, 0, 0x90, 0xBF⟩
  else if b < 0xF4 then some ⟨3, b.toNat - 0xF0, 0x80, 0xBF⟩
  else if b = 0xF4 then some ⟨3, 4, 0x80, 0x8F⟩
  else none

/-- Takes the bytes that continue a character, the first of them within the given
bounds: the code point if all are there, and the bytes left over. -/
def takeTails : (tails bits : Nat) → (low high : UInt8) → Bytes → Option Nat × Bytes
  | 0, bits, _, _, rest => (some bits, rest)
  | _ + 1, _, _, _, [] => (none, [])
  | n + 1, bits, low, high, b :: rest =>
    if low ≤ b ∧ b ≤ high then takeTails n (bits * 64 + b.toNat % 64) 0x80 0xBF rest
    else (none, b :: rest)

theorem length_takeTails_le (tails bits : Nat) (low high : UInt8) (bytes : Bytes) :
    (takeTails tails bits low high bytes).2.length ≤ bytes.length := by
  induction tails generalizing bits low high bytes with
  | zero => simp [takeTails]
  | succ n ih =>
    cases bytes with
    | nil => simp [takeTails]
    | cons b rest =>
      simp only [takeTails]
      split
      · exact Nat.le_trans (ih ..) (by simp)
      · simp

/-- U+FFFD, which stands for bytes that are no character. -/
def replacementChar : Char := '\uFFFD'

/-- The characters of a byte string, damaged parts replaced. -/
def lossyChars : Bytes → List Char
  | [] => []
  | b :: rest =>
    if b < 0x80 then Char.ofNat b.toNat :: lossyChars rest
    else match Lead.ofByte? b with
      | none => replacementChar :: lossyChars rest
      | some lead =>
        let taken := takeTails lead.tails lead.bits lead.low lead.high rest
        (taken.1.map Char.ofNat).getD replacementChar :: lossyChars taken.2
termination_by bytes => bytes.length
decreasing_by
  · simp
  · simp
  · exact Nat.lt_succ_of_le (length_takeTails_le ..)

/-- Any byte string as a text, damaged parts replaced. -/
def decodeLossy (bytes : Bytes) : String := String.ofList (lossyChars bytes)

end LedgerSandbox.Text
