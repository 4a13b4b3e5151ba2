import LedgerSandbox.Bytes
import LedgerSandbox.Text.Quoted

/-!
# Hexadecimal submissions

Two digits per byte, in upper or lower case, without anything between them.
-/

namespace LedgerSandbox.Submission.Hex

/-- Why a text is not hexadecimal. -/
inductive Fault where
  | oddLength
  /-- A byte that is no digit, and its index. -/
  | notDigit (byte : UInt8) (index : Nat)
deriving DecidableEq

/-- What a fault says. The byte is shown as the Latin-1 character that it stands for. -/
def Fault.message : Fault → String
  | .oddLength => "Odd number of digits"
  | .notDigit byte index =>
    s!"Invalid character {Text.quotedChar (Char.ofNat byte.toNat)} at position {index}"

/-- The value of a digit. -/
def digit? (b : UInt8) : Option UInt8 :=
  if 0x30 ≤ b && b ≤ 0x39 then some (b - 0x30)
  else if 0x41 ≤ b && b ≤ 0x46 then some (b - 0x37)
  else if 0x61 ≤ b && b ≤ 0x66 then some (b - 0x57)
  else none

/-- Reads digits in pairs, of which the first stands at the given index. -/
def decodeFrom (index : Nat) : Bytes → Except Fault Bytes
  | [] => return []
  | [_] => throw .oddLength
  | a :: b :: rest =>
    match digit? a, digit? b with
    | none, _ => throw (.notDigit a index)
    | some _, none => throw (.notDigit b (index + 1))
    | some high, some low => do
      let bytes ← decodeFrom (index + 2) rest
      return (16 * high + low) :: bytes

/-- The bytes that a hexadecimal text stands for. -/
def decode (text : Bytes) : Except Fault Bytes :=
  if text.length % 2 = 1 then throw .oddLength else decodeFrom 0 text

end LedgerSandbox.Submission.Hex
