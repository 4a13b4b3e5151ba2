/-!
# Why bytecode is rejected

The reasons for which bytecode is not read as a module, or the module is not
accepted.
-/

namespace LedgerSandbox.Wasm

/-- Why bytecode is rejected. -/
inductive Fault where
  /-- The bytecode, or a part of it with a declared length, ends too early. -/
  | unexpectedEnd
  /-- Bytes are left over where a part should end. -/
  | trailingBytes
  /-- The bytecode does not start with magic number and version. -/
  | badHeader
  /-- A number takes more bits than its type has. -/
  | malformedInteger
  /-- A name is not valid UTF-8, or too long. -/
  | malformedName
  /-- A byte stands for nothing where it occurs. -/
  | unknownByte (byte : UInt8)
  /-- Sections are out of order, or occur twice. -/
  | misplacedSection
  /-- Two sections disagree on a number of items. -/
  | inconsistentCounts
  /-- An index points to nothing. -/
  | unknownIndex (index : Nat)
  /-- Code uses values of other types than are there. -/
  | typeMismatch
  /-- An expression is not constant. -/
  | notConstant
  /-- A memory or table has impossible sizes, or there are too many of something. -/
  | badLimits
  /-- An instruction promises more alignment than its data has. -/
  | badAlignment
  /-- A global that does not change is assigned to. -/
  | immutableGlobal
  /-- A function is referred to without having been declared for that. -/
  | undeclaredReference
  /-- Two exports have one name. -/
  | duplicateExport
  /-- Floating-point types and instructions are not allowed. -/
  | floatsDisabled
deriving DecidableEq

/-- What a fault says. -/
def Fault.message : Fault → String
  | .unexpectedEnd => "unexpected end of bytecode"
  | .trailingBytes => "unexpected bytes after the end of a part"
  | .badHeader => "magic number or version is missing"
  | .malformedInteger => "integer representation too long"
  | .malformedName => "malformed name"
  | .unknownByte byte => s!"byte {byte.toNat} has no meaning here"
  | .misplacedSection => "section out of order"
  | .inconsistentCounts => "sections have inconsistent lengths"
  | .unknownIndex index => s!"unknown index {index}"
  | .typeMismatch => "type mismatch"
  | .notConstant => "constant expression required"
  | .badLimits => "size out of bounds"
  | .badAlignment => "alignment must not be larger than natural"
  | .immutableGlobal => "global is immutable"
  | .undeclaredReference => "undeclared function reference"
  | .duplicateExport => "duplicate export name"
  | .floatsDisabled => "floating-point support is disabled"

/-- The item of an array with the given index, or the fault that there is none. -/
def itemAt {α : Type} (items : Array α) (index : Nat) : Except Fault α :=
  match items[index]? with
  | some item => .ok item
  | none => .error (.unknownIndex index)

end LedgerSandbox.Wasm
