import LedgerSandbox.Wasm.FloatingPoint
import LedgerSandbox.Wasm.Integer

/-!
# Arithmetic on values

The arithmetic instructions on values as they stand among the operands. An operand
of the wrong type leaves the guest stuck.
-/

namespace LedgerSandbox.Wasm

namespace Value

/-- The bits of a number, with zeros in front. -/
def bits : Value → UInt64
  | i32 word | f32 word => word.toUInt64
  | i64 word | f64 word => word
  | _ => 0

/-- An integer of a width. -/
def ofInt (w : Width) (n : Int) : Value :=
  match w with
  | .w32 => i32 (UInt32.ofInt n)
  | .w64 => i64 (UInt64.ofInt n)

/-- A floating-point number of a width. -/
def ofFloatBits (w : Width) (bits : UInt64) : Value :=
  match w with
  | .w32 => f32 bits.toUInt32
  | .w64 => f64 bits

/-- The value with the given bits as an integer of a width. -/
def ofWord (w : Width) (bits : UInt64) : Value :=
  match w with
  | .w32 => i32 bits.toUInt32
  | .w64 => i64 bits

end Value

/-- An integer operand in 64 bits. -/
def widen (isSigned : Bool) : Value → UInt64
  | .i32 word => if isSigned then word.toInt32.toInt64.toUInt64 else word.toUInt64
  | value => value.bits

/-- The result of an instruction on one operand. -/
def Unary.eval (op : Unary) (a : Value) : Except Trap Value :=
  if a.type ≠ op.source then .error .stuck
  else match op with
    | .eqz _ => .ok (.ofBool (a.bits = 0))
    | .int .w32 op => .ok (.i32 ⟨op.eval a.bits.toUInt32.toBitVec⟩)
    | .int .w64 op => .ok (.i64 ⟨op.eval a.bits.toBitVec⟩)
    | .float w op => .ok (.ofFloatBits w (op.eval w a.bits))
    | .wrap => .ok (.i32 a.bits.toUInt32)
    | .extend isSigned => .ok (.i64 (widen isSigned a))
    | .truncate source target isSigned saturate =>
      (truncateFloat source target isSigned saturate a.bits).map (.ofInt target)
    | .convert _ target isSigned =>
      .ok (.ofFloatBits target (convertInteger target isSigned (widen isSigned a)))
    | .demote => .ok (.ofFloatBits .w32 (Width.ofFloat .w32 (Width.toFloat .w64 a.bits)))
    | .promote => .ok (.ofFloatBits .w64 (Width.ofFloat .w64 (Width.toFloat .w32 a.bits)))
    | .bitsOfFloat w => .ok (.ofWord w a.bits)
    | .floatOfBits w => .ok (.ofFloatBits w a.bits)

/-- The result of an instruction on two operands. -/
def Binary.eval (op : Binary) (a b : Value) : Except Trap Value :=
  if a.type ≠ op.source ∨ b.type ≠ op.source then .error .stuck
  else match op with
    | .int .w32 op =>
      (op.eval a.bits.toUInt32.toBitVec b.bits.toUInt32.toBitVec).map fun word => .i32 ⟨word⟩
    | .int .w64 op => (op.eval a.bits.toBitVec b.bits.toBitVec).map fun word => .i64 ⟨word⟩
    | .intCompare .w32 op =>
      .ok (.ofBool (op.eval a.bits.toUInt32.toBitVec b.bits.toUInt32.toBitVec))
    | .intCompare .w64 op => .ok (.ofBool (op.eval a.bits.toBitVec b.bits.toBitVec))
    | .float w op => .ok (.ofFloatBits w (op.eval w a.bits b.bits))
    | .floatCompare w op => .ok (.ofBool (op.eval w a.bits b.bits))

end LedgerSandbox.Wasm
