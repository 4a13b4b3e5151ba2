import LedgerSandbox.Wasm.Instruction
import LedgerSandbox.Wasm.Trap

/-!
# Floating-point arithmetic

Numbers of both widths are computed with as 64-bit numbers. Rounding the result of
one operation to 32 bits gives the 32-bit result exactly, since the wider format
has more than twice the precision.

A result that is not a number is always the canonical one, so that it does not
depend on the operands. Sign operations work on bits and keep them.
-/

namespace LedgerSandbox.Wasm

/-- The bits of a floating-point number of one width. -/
abbrev FloatBits := UInt64

namespace Width

/-- The sign bit of floating-point numbers. -/
def signBit : Width → FloatBits
  | w32 => 0x80000000
  | w64 => 0x8000000000000000

/-- The canonical value that is not a number. -/
def canonicalNaN : Width → FloatBits
  | w32 => 0x7FC00000
  | w64 => 0x7FF8000000000000

/-- The number that bits stand for. -/
def toFloat (w : Width) (bits : FloatBits) : Float :=
  match w with
  | w32 => (Float32.ofBits bits.toUInt32).toFloat
  | w64 => Float.ofBits bits

/-- The bits of a result, rounded to the width. -/
def ofFloat (w : Width) (x : Float) : FloatBits :=
  if x.isNaN then w.canonicalNaN
  else match w with
    | w32 => x.toFloat32.toBits.toUInt64
    | w64 => x.toBits

end Width

/-- A number whose distance from its neighbours is one; adding it rounds to integers. -/
def integerGrid : Float := 4503599627370496.0

/-- The integer next to a number, the even one of two that are equally near. -/
def nearestInteger (x : Float) : Float :=
  if x.abs < integerGrid then
    if x < 0 then (x - integerGrid) + integerGrid else (x + integerGrid) - integerGrid
  else x

/-- Gives a result the sign of the operand, so that a zero keeps it. -/
def withSignOf (w : Width) (a result : FloatBits) : FloatBits :=
  (result &&& ~~~ w.signBit) ||| (a &&& w.signBit)

/-- The result of rounding an operand to an integer. -/
def roundWith (w : Width) (a : FloatBits) (round : Float → Float) : FloatBits :=
  let x := w.toFloat a
  if x.isNaN then w.canonicalNaN else withSignOf w a (w.ofFloat (round x))

/-- The result of an operation on one floating-point number. -/
def FloatUnary.eval (w : Width) (a : FloatBits) : FloatUnary → FloatBits
  | .abs => a &&& ~~~ w.signBit
  | .neg => a ^^^ w.signBit
  | .ceil => roundWith w a Float.ceil
  | .floor => roundWith w a Float.floor
  | .trunc => roundWith w a fun x => if x < 0 then x.ceil else x.floor
  | .nearest => roundWith w a nearestInteger
  | .sqrt => w.ofFloat (w.toFloat a).sqrt

/-- The result of an operation on two floating-point numbers. -/
def FloatBinary.eval (w : Width) (a b : FloatBits) : FloatBinary → FloatBits
  | .add => w.ofFloat (w.toFloat a + w.toFloat b)
  | .sub => w.ofFloat (w.toFloat a - w.toFloat b)
  | .mul => w.ofFloat (w.toFloat a * w.toFloat b)
  | .div => w.ofFloat (w.toFloat a / w.toFloat b)
  | .min =>
    let x := w.toFloat a
    let y := w.toFloat b
    if x.isNaN || y.isNaN then w.canonicalNaN
    else if x < y then a else if y < x then b else a ||| b
  | .max =>
    let x := w.toFloat a
    let y := w.toFloat b
    if x.isNaN || y.isNaN then w.canonicalNaN
    else if x < y then b else if y < x then a else a &&& b
  | .copysign => withSignOf w b a

/-- Whether a comparison holds. -/
def FloatCompare.eval (w : Width) (a b : FloatBits) (op : FloatCompare) : Bool :=
  let x := w.toFloat a
  let y := w.toFloat b
  match op with
  | .eq => x == y
  | .ne => !(x == y)
  | .lt => x < y
  | .gt => y < x
  | .le => x ≤ y
  | .ge => y ≤ x

/-- The integer part of a finite 64-bit number, read off its bits: the fraction with
its leading bit, shifted by the exponent. -/
def integerPart (bits : FloatBits) : Int :=
  let exponent := (bits >>> 52).toNat % 2048
  let significand := (bits &&& 0x000FFFFFFFFFFFFF ||| 0x0010000000000000).toNat
  let magnitude : Nat :=
    if exponent < 1023 then 0
    else if 1075 ≤ exponent then significand <<< (exponent - 1075)
    else significand >>> (1075 - exponent)
  if bits &&& Width.w64.signBit = 0 then (magnitude : Int) else -(magnitude : Int)

/-- The least and the greatest integer of a width. -/
def integerRange (w : Width) (isSigned : Bool) : Int × Int :=
  match w, isSigned with
  | .w32, true => (-0x80000000, 0x7FFFFFFF)
  | .w32, false => (0, 0xFFFFFFFF)
  | .w64, true => (-0x8000000000000000, 0x7FFFFFFFFFFFFFFF)
  | .w64, false => (0, 0xFFFFFFFFFFFFFFFF)

/-- The integer part of a number as an integer of a width. A number out of its range
stops the guest, or gives the end of the range next to it. -/
def truncateFloat (source target : Width) (isSigned saturate : Bool) (a : FloatBits) :
    Except Trap Int :=
  let x := source.toFloat a
  let (least, greatest) := integerRange target isSigned
  if x.isNaN then
    if saturate then .ok 0 else .error .invalidConversion
  else
    let n :=
      if x.isInf then (if x < 0 then least - 1 else greatest + 1) else integerPart x.toBits
    if saturate then .ok (max least (min greatest n))
    else if n < least ∨ greatest < n then .error .integerOverflow
    else .ok n

/-- The floating-point number next to an integer. -/
def convertInteger (target : Width) (isSigned : Bool) (n : UInt64) : FloatBits :=
  match target, isSigned with
  | .w32, true => n.toInt64.toFloat32.toBits.toUInt64
  | .w32, false => n.toFloat32.toBits.toUInt64
  | .w64, true => n.toInt64.toFloat.toBits
  | .w64, false => n.toFloat.toBits

end LedgerSandbox.Wasm
