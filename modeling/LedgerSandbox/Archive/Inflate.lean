/-!
# Inflating

The decompressor of the DEFLATE format: a stream of blocks, each stored or coded
with two Huffman codes, one for bytes and lengths and one for distances back
into the data written so far.

A code must use up all bit patterns unless it has at most one symbol, so that
most damaged code tables are noticed at once. All loops run on a budget, the
number of bits in the data: each step reads a bit at least.
-/

namespace LedgerSandbox.Archive

/-- Why compressed data cannot be inflated. -/
inductive InflateFault where
  /-- The data ends before the last block does. -/
  | truncated
  /-- The data is no sequence of blocks. -/
  | malformed
deriving DecidableEq

/-- A position in a stream of bits, which fill each byte from the lowest bit on. -/
structure BitStream where
  data : ByteArray
  /-- The number of bits already read. -/
  position : Nat

namespace BitStream

/-- An action that reads bits. -/
abbrev Reader := StateT BitStream (Except InflateFault)

/-- The next bit. -/
def bit : Reader Nat := fun s =>
  let i := s.position / 8
  if h : i < s.data.size then
    .ok ((s.data[i].toNat >>> (s.position % 8)) % 2, { s with position := s.position + 1 })
  else .error .truncated

/-- A number of the given width, the lowest bit first. -/
def bits : Nat → Reader Nat
  | 0 => return 0
  | n + 1 => do
    let low ← bit
    let high ← bits n
    return low + 2 * high

/-- Skips to the next whole byte. -/
def align : Reader Unit := modify fun s => { s with position := (s.position + 7) / 8 * 8 }

/-- The next bytes, as they are. -/
def bytes (count : Nat) : Reader ByteArray := fun s =>
  let start := s.position / 8
  if start + count ≤ s.data.size then
    .ok (s.data.extract start (start + count), { s with position := (start + count) * 8 })
  else .error .truncated

end BitStream

open BitStream (Reader)

/-- A canonical Huffman code. Codes of one length are consecutive numbers, in the
order of their symbols. -/
structure HuffmanCode where
  /-- The number of codes of length 1, 2, … -/
  counts : List Nat
  /-- The symbols in the order of their codes. -/
  symbols : Array Nat

namespace HuffmanCode

/-- The longest code. -/
def maxLength : Nat := 15

/-- The bit patterns left unused by the given counts of codes, as a number of patterns
of the greatest length; `none` if there are more codes than patterns. -/
def unused : (counts : List Nat) → (left : Nat) → Option Nat
  | [], left => some left
  | count :: rest, left => if 2 * left < count then none else unused rest (2 * left - count)

/-- The code with the given code length for each symbol; 0 stands for no code. -/
def ofLengths (lengths : Array Nat) : Except InflateFault HuffmanCode :=
  let byLength := (List.range maxLength).map fun l =>
    (List.range lengths.size).filter fun symbol => lengths[symbol]?.getD 0 = l + 1
  let counts := byLength.map List.length
  let symbols := byLength.flatten.toArray
  match unused counts 1 with
  | none => .error .malformed
  | some left =>
    if left ≠ 0 ∧ 1 < symbols.size then .error .malformed else .ok ⟨counts, symbols⟩

/-- Reads on in a code: `code` are the bits so far, `first` the first code of their
length and `index` the place of its symbol. -/
def decodeFrom (symbols : Array Nat) : (counts : List Nat) → (code first index : Nat) → Reader Nat
  | [], _, _, _ => throw .malformed
  | count :: rest, code, first, index => do
    let code := code + (← BitStream.bit)
    if code < first + count then
      match symbols[index + (code - first)]? with
      | some symbol => return symbol
      | none => throw .malformed
    else decodeFrom symbols rest (2 * code) (2 * (first + count)) (index + count)

/-- The next symbol. -/
def decode (h : HuffmanCode) : Reader Nat := decodeFrom h.symbols h.counts 0 0 0

end HuffmanCode

/-- The least length or distance of a symbol, and the number of extra bits. -/
abbrev Extent := Nat × Nat

/-- The lengths of the symbols from 257 on. -/
def lengthExtents : Array Extent := #[
  (3, 0), (4, 0), (5, 0), (6, 0), (7, 0), (8, 0), (9, 0), (10, 0), (11, 1), (13, 1), (15, 1),
  (17, 1), (19, 2), (23, 2), (27, 2), (31, 2), (35, 3), (43, 3), (51, 3), (59, 3), (67, 4),
  (83, 4), (99, 4), (115, 4), (131, 5), (163, 5), (195, 5), (227, 5), (258, 0)]

/-- The distances of the symbols of the distance code. -/
def distanceExtents : Array Extent := #[
  (1, 0), (2, 0), (3, 0), (4, 0), (5, 1), (7, 1), (9, 2), (13, 2), (17, 3), (25, 3), (33, 4),
  (49, 4), (65, 5), (97, 5), (129, 6), (193, 6), (257, 7), (385, 7), (513, 8), (769, 8),
  (1025, 9), (1537, 9), (2049, 10), (3073, 10), (4097, 11), (6145, 11), (8193, 12), (12289, 12),
  (16385, 13), (24577, 13)]

/-- Reads the length or distance that a symbol starts. -/
def readExtent (extents : Array Extent) (symbol : Nat) : Reader Nat := do
  match extents[symbol]? with
  | none => throw .malformed
  | some (least, extra) => return least + (← BitStream.bits extra)

/-- The byte that stands a distance back from the end of the output. -/
def byteBack (output : ByteArray) (distance : Nat) : UInt8 :=
  if h : output.size - distance < output.size then output[output.size - distance] else 0

/-- Appends bytes that stand a distance back, which may overlap with the bytes
appended. -/
def copyBack (output : ByteArray) (distance : Nat) : Nat → ByteArray
  | 0 => output
  | n + 1 => copyBack (output.push (byteBack output distance)) distance n

/-- Inflates a coded block: appends to `output` until the block ends or more than
`limit` bytes are written. -/
def inflateCoded (literals distances : HuffmanCode) (limit : Nat) :
    (budget : Nat) → ByteArray → Reader ByteArray
  | 0, _ => throw .truncated
  | budget + 1, output => do
    if limit < output.size then return output
    let symbol ← literals.decode
    if symbol < 256 then
      inflateCoded literals distances limit budget (output.push (UInt8.ofNat symbol))
    else if symbol = 256 then return output
    else
      let length ← readExtent lengthExtents (symbol - 257)
      let distance ← readExtent distanceExtents (← distances.decode)
      if output.size < distance then throw .malformed
      inflateCoded literals distances limit budget (copyBack output distance length)

/-- Inflates a stored block. -/
def inflateStored (output : ByteArray) : Reader ByteArray := do
  BitStream.align
  let length ← BitStream.bits 16
  let inverted ← BitStream.bits 16
  if length + inverted ≠ 0xFFFF then throw .malformed
  return output ++ (← BitStream.bytes length)

/-- The lengths of the fixed code of bytes and lengths. -/
def fixedLiteralLengths : Array Nat :=
  (List.replicate 144 8 ++ List.replicate 112 9 ++ List.replicate 24 7 ++
    List.replicate 8 8).toArray

/-- The lengths of the fixed distance code. -/
def fixedDistanceLengths : Array Nat := (List.replicate 32 5).toArray

/-- The order in which the lengths of the code for code lengths are given. -/
def lengthOrder : List Nat := [16, 17, 18, 0, 8, 7, 9, 6, 10, 5, 11, 4, 12, 3, 13, 2, 14, 1, 15]

/-- Reads code lengths up to the given number, with runs that must not reach past it. -/
def readLengths (code : HuffmanCode) (total : Nat) :
    (budget : Nat) → Array Nat → Reader (Array Nat)
  | 0, _ => throw .truncated
  | budget + 1, lengths => do
    -- A run may have gone past the number of lengths announced.
    if total ≤ lengths.size then
      if lengths.size = total then return lengths else throw .malformed
    let symbol ← code.decode
    if symbol < 16 then readLengths code total budget (lengths.push symbol)
    else
      let (value, count) ←
        if symbol = 16 then
          match lengths.back? with
          | none => throw .malformed
          | some last => do pure (last, 3 + (← BitStream.bits 2))
        else if symbol = 17 then do pure (0, 3 + (← BitStream.bits 3))
        else do pure (0, 11 + (← BitStream.bits 7))
      readLengths code total budget (lengths ++ Array.replicate count value)

/-- Reads the lengths of the code for code lengths. -/
def readOrdered : List Nat → Array Nat → Reader (Array Nat)
  | [], lengths => return lengths
  | symbol :: rest, lengths => do
    readOrdered rest (lengths.setIfInBounds symbol (← BitStream.bits 3))

/-- Reads the two codes of a block that brings its own. -/
def readCodes : Reader (HuffmanCode × HuffmanCode) := do
  let literalCount := 257 + (← BitStream.bits 5)
  let distanceCount := 1 + (← BitStream.bits 5)
  let orderCount := 4 + (← BitStream.bits 4)
  if 286 < literalCount ∨ 30 < distanceCount then throw .malformed
  let ordered ← readOrdered (lengthOrder.take orderCount) (Array.replicate 19 0)
  let code ← HuffmanCode.ofLengths ordered
  let total := literalCount + distanceCount
  let lengths ← readLengths code total (total + 1) #[]
  let literals ← HuffmanCode.ofLengths (lengths.extract 0 literalCount)
  let distances ← HuffmanCode.ofLengths (lengths.extract literalCount total)
  return (literals, distances)

/-- Inflates blocks up to the last one, or until more than `limit` bytes are written. -/
def inflateBlocks (limit bitCount : Nat) : (budget : Nat) → ByteArray → Reader ByteArray
  | 0, _ => throw .truncated
  | budget + 1, output => do
    let isLast := (← BitStream.bit) = 1
    let output ←
      match ← BitStream.bits 2 with
      | 0 => inflateStored output
      | 1 =>
        inflateCoded (← HuffmanCode.ofLengths fixedLiteralLengths)
          (← HuffmanCode.ofLengths fixedDistanceLengths) limit (bitCount + 1) output
      | 2 =>
        let (literals, distances) ← readCodes
        inflateCoded literals distances limit (bitCount + 1) output
      | _ => throw .malformed
    if isLast ∨ limit < output.size then return output
    else inflateBlocks limit bitCount budget output

/-- Inflates data. What follows the last block is ignored, and so is the rest of the
data once more than `limit` bytes are written. -/
def inflate (limit : Nat) (data : ByteArray) : Except InflateFault ByteArray := do
  let bitCount := 8 * data.size
  let (output, _) ← inflateBlocks limit bitCount (bitCount + 1) ByteArray.empty ⟨data, 0⟩
  return output

end LedgerSandbox.Archive
