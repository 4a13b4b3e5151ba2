/-!
# Traps

Why a guest is stopped.
-/

namespace LedgerSandbox.Wasm

/-- Why a guest is stopped. -/
inductive Trap where
  | callStackExhausted
  | memoryOutOfBounds
  | tableOutOfBounds
  /-- An indirect call finds no function. -/
  | uninitializedElement
  | indirectCallMismatch
  | integerOverflow
  | divideByZero
  | invalidConversion
  | unreachable
  | outOfFuel
  | deadlineExceeded
  /-- An operand is missing or of the wrong type, which validation rules out. -/
  | stuck
deriving DecidableEq

/-- What a trap says. -/
def Trap.message : Trap → String
  | .callStackExhausted => "wasm trap: call stack exhausted"
  | .memoryOutOfBounds => "wasm trap: out of bounds memory access"
  | .tableOutOfBounds => "wasm trap: undefined element: out of bounds table access"
  | .uninitializedElement => "wasm trap: uninitialized element"
  | .indirectCallMismatch => "wasm trap: indirect call type mismatch"
  | .integerOverflow => "wasm trap: integer overflow"
  | .divideByZero => "wasm trap: integer divide by zero"
  | .invalidConversion => "wasm trap: invalid conversion to integer"
  | .unreachable => "wasm trap: wasm `unreachable` instruction executed"
  | .outOfFuel => "fuel exhausted (instruction limit)"
  | .deadlineExceeded => "deadline exceeded"
  | .stuck => "wasm trap: operand mismatch"

end LedgerSandbox.Wasm
