import LedgerSandbox.Host.Error
import LedgerSandbox.Wasm.Types

/-!
# Access to guest memory

Guests name the bytes they pass by an address and a length in their linear
memory. Every access first checks that the range lies within the memory
(`validateRange`); a write that fails the check writes nothing.

Sizes and lengths are 64-bit words, and the check must not be fooled by a sum
that wraps around.
-/

namespace LedgerSandbox.GuestMemory

/-- The sum of two words, unless it does not fit a word. -/
def checkedAdd (a b : UInt64) : Option UInt64 :=
  let sum := a + b
  if sum < a then none else some sum

/-- The exclusive end of the range of `length` bytes at `address`, if the range lies
within a memory of `size` bytes. -/
def validateRange (size : UInt64) (address : UInt32) (length : UInt64) :
    Except HostError UInt64 :=
  match checkedAdd address.toUInt64 length with
  | none => throw .badPointer
  | some stop => if size < stop then throw .badPointer else pure stop

/-- The size of a memory in bytes. -/
def size (memory : ByteArray) : UInt64 := UInt64.ofNat memory.size

/-- The `length` bytes at `address`. -/
def read (memory : ByteArray) (address length : UInt32) : Except HostError Bytes := do
  let stop ← validateRange (size memory) address length.toUInt64
  return Bytes.ofByteArray (memory.extract address.toNat stop.toNat)

/-- The memory with bytes stored from an index on. Bytes past its end are dropped. -/
def store (memory : ByteArray) (index : Nat) : Bytes → ByteArray
  | [] => memory
  | b :: rest =>
    store (if h : index < memory.size then memory.set index b h else memory) (index + 1) rest

/-- Checks that data written at `address` stays within the memory. -/
def checkWrite (memory : ByteArray) (address : UInt32) (data : Bytes) : Except HostError Unit := do
  let _ ← validateRange (size memory) address (UInt64.ofNat data.length)

/-- The memory with data written at `address`. -/
def write (memory : ByteArray) (address : UInt32) (data : Bytes) :
    Except HostError ByteArray := do
  checkWrite memory address data
  return store memory address.toNat data

/-- An argument of a host call as an address, length or index. An `i32` is read as
unsigned; an `i64` counts only if it fits 32 bits. -/
def argument? : Wasm.Value → Option UInt32
  | .i32 word => some word
  | .i64 word => if word ≤ 0xFFFFFFFF then some word.toUInt32 else none
  | _ => none

end LedgerSandbox.GuestMemory
