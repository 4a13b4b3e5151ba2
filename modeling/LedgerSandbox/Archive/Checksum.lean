/-!
# CRC-32

The cyclic redundancy check of archives: the remainder of the data modulo the
polynomial `0xEDB88320` (bits reversed), with initial value and result inverted.
-/

namespace LedgerSandbox.Archive

/-- Shifts the remainder by the given number of bits. -/
def crcShift (remainder : UInt32) : Nat → UInt32
  | 0 => remainder
  | n + 1 =>
    let shifted := remainder >>> 1
    crcShift (if remainder &&& 1 = 1 then shifted ^^^ 0xEDB88320 else shifted) n

/-- The remainder after one more byte. -/
def crcByte (remainder : UInt32) (b : UInt8) : UInt32 :=
  crcShift (remainder ^^^ b.toUInt32) 8

/-- The CRC-32 of data. -/
def crc32 (data : ByteArray) : UInt32 := ~~~ data.foldl crcByte 0xFFFFFFFF

end LedgerSandbox.Archive
