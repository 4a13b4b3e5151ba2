import LedgerSandbox.Bytes
import LedgerSandbox.Wasm.Fault

/-!
# Reading the binary format

Readers take what they need from the front of a byte string and leave the rest.
Here are the readers that everything else is built from: numbers of variable
length, names, repeated items, and parts of a declared length.
-/

namespace LedgerSandbox.Wasm

/-- An action that reads from the front of a byte string. -/
abbrev Reader := StateT Bytes (Except Fault)

namespace Reader

/-- The next byte. -/
def byte : Reader UInt8 := fun input =>
  match input with
  | b :: rest => .ok (b, rest)
  | [] => .error .unexpectedEnd

/-- The next byte, which is left in place. -/
def peek : Reader UInt8 := fun input =>
  match input with
  | b :: _ => .ok (b, input)
  | [] => .error .unexpectedEnd

/-- The given number of bytes. -/
def bytes (count : Nat) : Reader Bytes := fun input =>
  let (taken, rest) := input.splitAt count
  if taken.length = count then .ok (taken, rest) else .error .unexpectedEnd

/-- Whether nothing is left. -/
def atEnd : Reader Bool := fun input => .ok (input.isEmpty, input)

/-- An unsigned number in groups of seven bits, the lowest first: at most `more` groups
that announce another one, and a last group, of which `lastBits` bits count if it is
the last that is possible. -/
def unsigned : (more lastBits : Nat) → Reader Nat
  | 0, lastBits => do
    let b := (← byte).toNat
    if b < 1 <<< lastBits then return b else throw .malformedInteger
  | n + 1, lastBits => do
    let b := (← byte).toNat
    if b < 128 then return b else return b - 128 + 128 * (← unsigned n lastBits)

/-- A signed number in groups of seven bits. -/
def signed : (more lastBits : Nat) → Reader Int
  | 0, lastBits => do
    let b := (← byte).toNat
    let half := 1 <<< (lastBits - 1)
    if b < half then return b
    else if 128 - half ≤ b ∧ b < 128 then return (b : Int) - 128
    else throw .malformedInteger
  | n + 1, lastBits => do
    let b := (← byte).toNat
    if b < 64 then return b
    else if b < 128 then return (b : Int) - 128
    else return (b : Int) - 128 + 128 * (← signed n lastBits)

/-- An unsigned 32-bit number. -/
def u32 : Reader Nat := unsigned 4 4

/-- A signed 32-bit number. -/
def s32 : Reader Int := signed 4 4

/-- A signed 33-bit number. -/
def s33 : Reader Int := signed 4 5

/-- A signed 64-bit number. -/
def s64 : Reader Int := signed 9 1

/-- The given number of items. -/
def times {α : Type} (item : Reader α) : Nat → Reader (List α)
  | 0 => return []
  | n + 1 => do
    let first ← item
    let rest ← times item n
    return first :: rest

/-- Items, with their number in front. -/
def many {α : Type} (item : Reader α) : Reader (List α) := do times item (← u32)

/-- The longest name, in bytes. -/
def maxNameLength : Nat := 100000

/-- A name. -/
def name : Reader String := do
  let length ← u32
  if maxNameLength < length then throw .malformedName
  match decodeUtf8? (← bytes length) with
  | some text => return text
  | none => throw .malformedName

/-- Applies a reader to all of the given bytes. -/
def onAll {α : Type} (reader : Reader α) (input : Bytes) : Except Fault α := do
  let (value, rest) ← reader input
  if rest.isEmpty then return value else throw .trailingBytes

/-- A part with its length in front, which its reader must use up. -/
def part {α : Type} (reader : Reader α) : Reader α := do
  let content ← bytes (← u32)
  match onAll reader content with
  | .ok value => return value
  | .error fault => throw fault

end Reader

end LedgerSandbox.Wasm
