import LedgerSandbox.Wasm.Instruction
import LedgerSandbox.Wasm.Trap

/-!
# Integer arithmetic

The integer instructions on words of any width. Sums, differences and products
wrap; shifts and rotations take their distance modulo the width; division stops
the guest when it has no result.
-/

namespace LedgerSandbox.Wasm

/-- The result of an operation on one integer. -/
def IntUnary.eval {n : Nat} (a : BitVec n) : IntUnary → BitVec n
  | .clz => a.clz
  | .ctz => a.ctz
  | .popcnt => a.cpop
  | .extendLow bits => (a.truncate bits).signExtend n

/-- The result of an operation on two integers. -/
def IntBinary.eval {n : Nat} (a b : BitVec n) : IntBinary → Except Trap (BitVec n)
  | .add => .ok (a + b)
  | .sub => .ok (a - b)
  | .mul => .ok (a * b)
  | .divS =>
    if b = 0 then .error .divideByZero
    else if a = BitVec.intMin n ∧ b = BitVec.allOnes n then .error .integerOverflow
    else .ok (a.sdiv b)
  | .divU => if b = 0 then .error .divideByZero else .ok (a / b)
  | .remS => if b = 0 then .error .divideByZero else .ok (a.srem b)
  | .remU => if b = 0 then .error .divideByZero else .ok (a % b)
  | .and => .ok (a &&& b)
  | .or => .ok (a ||| b)
  | .xor => .ok (a ^^^ b)
  | .shl => .ok (a <<< (b.toNat % n))
  | .shrS => .ok (a.sshiftRight (b.toNat % n))
  | .shrU => .ok (a >>> (b.toNat % n))
  | .rotl => .ok (a.rotateLeft b.toNat)
  | .rotr => .ok (a.rotateRight b.toNat)

/-- Whether a comparison holds. -/
def IntCompare.eval {n : Nat} (a b : BitVec n) : IntCompare → Bool
  | .eq => a = b
  | .ne => a ≠ b
  | .ltS => a.slt b
  | .ltU => a < b
  | .gtS => b.slt a
  | .gtU => b < a
  | .leS => a.sle b
  | .leU => a ≤ b
  | .geS => b.sle a
  | .geU => b ≤ a

end LedgerSandbox.Wasm
