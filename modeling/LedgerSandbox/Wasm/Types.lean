/-!
# WebAssembly types and values

The types that a module declares, and the values that its code computes with.
Integers are kept as unsigned words, floating-point numbers as their bit
patterns, and references as indices into the instance they come from.
-/

namespace LedgerSandbox.Wasm

/-- The type of a value. -/
inductive ValType where
  | i32
  | i64
  | f32
  | f64
  | v128
  | funcref
  | externref
deriving DecidableEq

namespace ValType

/-- Whether values of the type are integers. -/
def isInteger : ValType → Bool
  | i32 | i64 => true
  | _ => false

/-- Whether values of the type are floating-point numbers. -/
def isFloat : ValType → Bool
  | f32 | f64 => true
  | _ => false

/-- Whether values of the type are references. -/
def isReference : ValType → Bool
  | funcref | externref => true
  | _ => false

end ValType

/-- The type of a function. -/
structure FuncType where
  params : List ValType
  results : List ValType
deriving DecidableEq

/-- The size that a memory or table starts with, and the size it may grow to. -/
structure Limits where
  min : Nat
  max : Option Nat
deriving DecidableEq

/-- The type of a table. -/
structure TableType where
  element : ValType
  limits : Limits
deriving DecidableEq

/-- The type of a global. -/
structure GlobalType where
  content : ValType
  isMutable : Bool
deriving DecidableEq

/-- The type of something that a module imports. -/
inductive ExternType where
  | func (type : FuncType)
  | table (type : TableType)
  | memory (limits : Limits)
  | global (type : GlobalType)
deriving DecidableEq

/-- Something that a module asks its host for. -/
structure Import where
  /-- The namespace. -/
  moduleName : String
  /-- The name within the namespace. -/
  field : String
  type : ExternType
deriving DecidableEq

/-- A value. -/
inductive Value where
  | i32 (word : UInt32)
  | i64 (word : UInt64)
  | f32 (bits : UInt32)
  | f64 (bits : UInt64)
  | v128 (low high : UInt64)
  /-- A function, or null. -/
  | funcref (index : Option Nat)
  /-- Something of the host's, or null. -/
  | externref (index : Option Nat)
deriving DecidableEq

namespace Value

/-- The type of a value. -/
def type : Value → ValType
  | i32 _ => .i32
  | i64 _ => .i64
  | f32 _ => .f32
  | f64 _ => .f64
  | v128 _ _ => .v128
  | funcref _ => .funcref
  | externref _ => .externref

/-- The value that variables of a type start with: zero or null. -/
def default : ValType → Value
  | .i32 => i32 0
  | .i64 => i64 0
  | .f32 => f32 0
  | .f64 => f64 0
  | .v128 => v128 0 0
  | .funcref => funcref none
  | .externref => externref none

/-- A condition as a value: 1 or 0. -/
def ofBool (b : Bool) : Value := i32 (if b then 1 else 0)

end Value

end LedgerSandbox.Wasm
