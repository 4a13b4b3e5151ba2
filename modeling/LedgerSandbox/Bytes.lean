/-!
# Byte strings

Keys, values, arguments, bytecode and submissions are plain byte strings. A
byte string is a list of bytes, so that `<` is the bytewise lexicographic
order in which a ledger keeps its keys, and a text is stored as its UTF-8
encoding (`encodeUtf8`, read back by `decodeUtf8?`).
-/

namespace LedgerSandbox

/-- A byte string, compared bytewise. -/
abbrev Bytes := List UInt8

namespace Bytes

/-- The bytes of a packed array. -/
def ofByteArray (packed : ByteArray) : Bytes := packed.data.toList

/-- The packed array of a byte string. -/
def toByteArray (bytes : Bytes) : ByteArray := ⟨bytes.toArray⟩

@[simp] theorem ofByteArray_toByteArray (bytes : Bytes) :
    ofByteArray (toByteArray bytes) = bytes := by
  simp [ofByteArray, toByteArray]

@[simp] theorem toByteArray_ofByteArray (packed : ByteArray) :
    toByteArray (ofByteArray packed) = packed := by
  simp [ofByteArray, toByteArray]

end Bytes

/-- The UTF-8 encoding of a text. -/
def encodeUtf8 (text : String) : Bytes := Bytes.ofByteArray text.toUTF8

/-- The text a byte string encodes, if it is well-formed UTF-8. -/
def decodeUtf8? (bytes : Bytes) : Option String := String.fromUTF8? bytes.toByteArray

/-- Reading back an encoded text gives the text. -/
@[simp] theorem decodeUtf8?_encodeUtf8 (text : String) :
    decodeUtf8? (encodeUtf8 text) = some text := by
  have h : (encodeUtf8 text).toByteArray = text.toUTF8 := by simp [encodeUtf8]
  rw [decodeUtf8?, h, String.fromUTF8?, String.toUTF8_eq_toByteArray,
    dif_pos text.isValidUTF8]
  rfl

/-- A byte string that reads as a text is the encoding of that text. -/
theorem encodeUtf8_of_decodeUtf8? {bytes : Bytes} {text : String}
    (h : decodeUtf8? bytes = some text) : encodeUtf8 text = bytes := by
  unfold decodeUtf8? String.fromUTF8? at h
  split at h
  · cases h
    simp [encodeUtf8, String.fromUTF8, String.toUTF8]
  · cases h

/-- Two texts with the same encoding are the same text. -/
theorem encodeUtf8_injective {a b : String} (h : encodeUtf8 a = encodeUtf8 b) : a = b := by
  have := decodeUtf8?_encodeUtf8 a
  rw [h, decodeUtf8?_encodeUtf8] at this
  exact (Option.some.inj this).symm

end LedgerSandbox
