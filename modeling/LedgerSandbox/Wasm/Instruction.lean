import LedgerSandbox.Wasm.Types

/-!
# Instructions

The instructions of function bodies and constant expressions. Blocks hold the
code inside them, so a body is a tree; type indices are resolved when bytecode is
read, so an instruction shows the types it works with.

Arithmetic instructions are grouped by what they do (`Unary`, `Binary`), with the
width of their operands as a parameter. There are none on vectors and no calls in
tail position: the binary format names what is left out.
-/

namespace LedgerSandbox.Wasm

/-- The width of a number. -/
inductive Width where
  | w32
  | w64
deriving DecidableEq

namespace Width

/-- The number of bits. -/
def bits : Width → Nat
  | w32 => 32
  | w64 => 64

/-- The type of integers of this width. -/
def int : Width → ValType
  | w32 => .i32
  | w64 => .i64

/-- The type of floating-point numbers of this width. -/
def float : Width → ValType
  | w32 => .f32
  | w64 => .f64

end Width

/-- Operations on one integer. -/
inductive IntUnary where
  | clz
  | ctz
  | popcnt
  /-- Copies the sign bit of the low 8, 16 or 32 bits into the bits above. -/
  | extendLow (bits : Nat)
deriving DecidableEq

/-- Operations on two integers. -/
inductive IntBinary where
  | add
  | sub
  | mul
  | divS
  | divU
  | remS
  | remU
  | and
  | or
  | xor
  | shl
  | shrS
  | shrU
  | rotl
  | rotr
deriving DecidableEq

/-- Comparisons of two integers, signed (`S`) or unsigned (`U`). -/
inductive IntCompare where
  | eq
  | ne
  | ltS
  | ltU
  | gtS
  | gtU
  | leS
  | leU
  | geS
  | geU
deriving DecidableEq

/-- Operations on one floating-point number. -/
inductive FloatUnary where
  | abs
  | neg
  | ceil
  | floor
  | trunc
  | nearest
  | sqrt
deriving DecidableEq

/-- Operations on two floating-point numbers. -/
inductive FloatBinary where
  | add
  | sub
  | mul
  | div
  | min
  | max
  | copysign
deriving DecidableEq

/-- Comparisons of two floating-point numbers. -/
inductive FloatCompare where
  | eq
  | ne
  | lt
  | gt
  | le
  | ge
deriving DecidableEq

/-- Arithmetic on one operand. -/
inductive Unary where
  | eqz (w : Width)
  | int (w : Width) (op : IntUnary)
  | float (w : Width) (op : FloatUnary)
  /-- The low half of a 64-bit integer. -/
  | wrap
  /-- A 32-bit integer in 64 bits. -/
  | extend (isSigned : Bool)
  /-- The integer part of a floating-point number. -/
  | truncate (source target : Width) (isSigned saturate : Bool)
  /-- The floating-point number next to an integer. -/
  | convert (source target : Width) (isSigned : Bool)
  | demote
  | promote
  /-- The bits of a floating-point number as an integer. -/
  | bitsOfFloat (w : Width)
  /-- The bits of an integer as a floating-point number. -/
  | floatOfBits (w : Width)
deriving DecidableEq

/-- Arithmetic on two operands. -/
inductive Binary where
  | int (w : Width) (op : IntBinary)
  | intCompare (w : Width) (op : IntCompare)
  | float (w : Width) (op : FloatBinary)
  | floatCompare (w : Width) (op : FloatCompare)
deriving DecidableEq

namespace Unary

/-- The type of the operand. -/
def source : Unary → ValType
  | eqz w | int w _ => w.int
  | float w _ => w.float
  | wrap => .i64
  | extend _ => .i32
  | truncate s _ _ _ => s.float
  | convert s _ _ => s.int
  | demote => .f64
  | promote => .f32
  | bitsOfFloat w => w.float
  | floatOfBits w => w.int

/-- The type of the result. -/
def target : Unary → ValType
  | eqz _ => .i32
  | int w _ => w.int
  | float w _ => w.float
  | wrap => .i32
  | extend _ => .i64
  | truncate _ t _ _ => t.int
  | convert _ t _ => t.float
  | demote => .f32
  | promote => .f64
  | bitsOfFloat w => w.int
  | floatOfBits w => w.float

end Unary

namespace Binary

/-- The type of both operands. -/
def source : Binary → ValType
  | int w _ | intCompare w _ => w.int
  | float w _ | floatCompare w _ => w.float

/-- The type of the result. -/
def target : Binary → ValType
  | int w _ => w.int
  | float w _ => w.float
  | intCompare _ _ | floatCompare _ _ => .i32

end Binary

/-- How an instruction addresses memory. -/
structure MemArg where
  /-- The alignment that the code promises, as a power of two. -/
  align : Nat
  /-- What is added to the address. -/
  offset : Nat
deriving DecidableEq

/-- A value as it lies in memory: its type, the number of bytes it takes there, and
whether the highest of their bits is a sign. -/
structure Layout where
  type : ValType
  bytes : Nat
  isSigned : Bool
deriving DecidableEq

/-- An instruction. -/
inductive Instr where
  | unreachable
  | nop
  | block (type : FuncType) (body : List Instr)
  | loop (type : FuncType) (body : List Instr)
  | ifElse (type : FuncType) (yes no : List Instr)
  | br (depth : Nat)
  | brIf (depth : Nat)
  | brTable (depths : List Nat) (default : Nat)
  | ret
  | call (index : Nat)
  | callIndirect (type : FuncType) (table : Nat)
  | drop
  | select
  | selectOf (types : List ValType)
  | localGet (index : Nat)
  | localSet (index : Nat)
  | localTee (index : Nat)
  | globalGet (index : Nat)
  | globalSet (index : Nat)
  | tableGet (table : Nat)
  | tableSet (table : Nat)
  | tableInit (segment table : Nat)
  | elemDrop (segment : Nat)
  | tableCopy (target source : Nat)
  | tableGrow (table : Nat)
  | tableSize (table : Nat)
  | tableFill (table : Nat)
  | load (layout : Layout) (arg : MemArg)
  | store (layout : Layout) (arg : MemArg)
  | memorySize
  | memoryGrow
  | memoryInit (segment : Nat)
  | dataDrop (segment : Nat)
  | memoryCopy
  | memoryFill
  | const (value : Value)
  | refNull (type : ValType)
  | refIsNull
  | refFunc (index : Nat)
  | unary (op : Unary)
  | binary (op : Binary)

/-- A sequence of instructions. -/
abbrev Code := List Instr

end LedgerSandbox.Wasm
