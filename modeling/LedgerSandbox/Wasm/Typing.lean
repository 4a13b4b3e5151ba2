import LedgerSandbox.Wasm.Fault
import LedgerSandbox.Wasm.Module

/-!
# Typing of code

Code is checked against the types of the operands that it takes and leaves. After
an instruction that never goes on, the operands are unknown: whatever is taken
then fits. A block sees the operands that its type says and no others.
-/

namespace LedgerSandbox.Wasm

/-- What code may refer to. -/
structure Context where
  functions : Array FuncType
  tables : Array TableType
  hasMemory : Bool
  globals : Array GlobalType
  /-- The types of the element segments. -/
  elements : Array ValType
  /-- The number of data segments, if it is declared. -/
  dataCount : Option Nat
  /-- The functions that references may be made to. -/
  referable : List Nat
  allowFloats : Bool
  locals : Array ValType := #[]
  /-- The operands that a branch to each enclosing block carries, innermost first. -/
  labels : List (List ValType) := []
  /-- The results of the function. -/
  results : List ValType := []

/-- The types of the operands at a place in code; `none` is a type that may be any. -/
structure Operands where
  /-- The operands known to be there, the topmost first. -/
  known : List (Option ValType)
  /-- Whether there may be any others below them, since the place is never reached. -/
  isUnreachable : Bool

namespace Operands

/-- The operands of the given types, the last of them on top. -/
def ofTypes (types : List ValType) : Operands := ⟨(types.map some).reverse, false⟩

/-- The operands at a place that is never reached. -/
def unreachable : Operands := ⟨[], true⟩

/-- Takes the topmost operand. -/
def popAny (ops : Operands) : Except Fault (Option ValType × Operands) :=
  match ops.known with
  | type :: rest => .ok (type, { ops with known := rest })
  | [] => if ops.isUnreachable then .ok (none, ops) else .error .typeMismatch

/-- Takes an operand of the given type. -/
def pop (type : ValType) (ops : Operands) : Except Fault Operands := do
  let (found, rest) ← ops.popAny
  if found = none ∨ found = some type then return rest else throw .typeMismatch

/-- Takes operands of the given types, the last of them first. -/
def popMany (types : List ValType) (ops : Operands) : Except Fault Operands :=
  types.reverse.foldlM (fun ops type => ops.pop type) ops

/-- Puts an operand on top. -/
def push (type : Option ValType) (ops : Operands) : Operands :=
  { ops with known := type :: ops.known }

/-- Puts operands on top. -/
def pushMany (types : List ValType) (ops : Operands) : Operands :=
  types.foldl (fun ops type => ops.push (some type)) ops

/-- Takes operands and puts results in their place. -/
def apply (params results : List ValType) (ops : Operands) : Except Fault Operands := do
  return (← ops.popMany params).pushMany results

/-- Checks that the operands are those at the end of a block with the given results. -/
def finish (results : List ValType) (ops : Operands) : Except Fault Unit := do
  let rest ← ops.popMany results
  if rest.known.isEmpty then return else throw .typeMismatch

end Operands

namespace Context

/-- Refuses a floating-point type where these are not allowed. -/
def checkFloat (c : Context) (type : ValType) : Except Fault Unit :=
  if type.isFloat ∧ ¬ c.allowFloats then throw .floatsDisabled else pure ()

/-- The operands that a branch carries. -/
def label (c : Context) (depth : Nat) : Except Fault (List ValType) :=
  match c.labels[depth]? with
  | some types => .ok types
  | none => .error (.unknownIndex depth)

/-- Refuses access to memory where there is none. -/
def checkMemory (c : Context) : Except Fault Unit :=
  if c.hasMemory then pure () else throw (.unknownIndex 0)

/-- Checks how an instruction accesses memory. -/
def checkAccess (c : Context) (layout : Layout) (arg : MemArg) : Except Fault Unit := do
  c.checkMemory
  c.checkFloat layout.type
  if layout.bytes < 1 <<< arg.align then throw .badAlignment

/-- Refuses a data segment that is not declared ahead of the code. -/
def checkData (c : Context) (segment : Nat) : Except Fault Unit :=
  match c.dataCount with
  | some count => if segment < count then pure () else throw (.unknownIndex segment)
  | none => throw (.unknownIndex segment)

/-- The context inside a block, given the operands that a branch to it carries. -/
def inside (c : Context) (label : List ValType) : Context := { c with labels := label :: c.labels }

end Context

/-- The common type of two operands that a plain selection chooses from. -/
def selectType (a b : Option ValType) : Except Fault (Option ValType) := do
  let isPlain (type : Option ValType) : Bool :=
    match type with
    | some type => !type.isReference
    | none => true
  if !isPlain a || !isPlain b then throw .typeMismatch
  match a, b with
  | none, type => return type
  | some a, none => return some a
  | some a, some b => if a = b then return some a else throw .typeMismatch

mutual

/-- The operands after an instruction. -/
def Instr.check (c : Context) (ops : Operands) : Instr → Except Fault Operands
  | .unreachable => return .unreachable
  | .nop => return ops
  | .block type body => do
    type.results.forM c.checkFloat
    let rest ← ops.popMany type.params
    (← checkCode (c.inside type.results) (.ofTypes type.params) body).finish type.results
    return rest.pushMany type.results
  | .loop type body => do
    type.results.forM c.checkFloat
    let rest ← ops.popMany type.params
    (← checkCode (c.inside type.params) (.ofTypes type.params) body).finish type.results
    return rest.pushMany type.results
  | .ifElse type yes no => do
    type.results.forM c.checkFloat
    let rest ← (← ops.pop .i32).popMany type.params
    (← checkCode (c.inside type.results) (.ofTypes type.params) yes).finish type.results
    -- A branch that is left out is empty: then the parameters have to be the results.
    (← checkCode (c.inside type.results) (.ofTypes type.params) no).finish type.results
    return rest.pushMany type.results
  | .br depth => do
    let _ ← ops.popMany (← c.label depth)
    return .unreachable
  | .brIf depth => do
    let types ← c.label depth
    (← ops.pop .i32).apply types types
  | .brTable depths default => do
    let rest ← ops.pop .i32
    let types ← c.label default
    depths.forM fun depth => do
      let others ← c.label depth
      if others.length ≠ types.length then throw .typeMismatch
      let _ ← rest.popMany others
    let _ ← rest.popMany types
    return .unreachable
  | .ret => do
    let _ ← ops.popMany c.results
    return .unreachable
  | .call index => do
    let type ← itemAt c.functions index
    ops.apply type.params type.results
  | .callIndirect type table => do
    if (← itemAt c.tables table).element ≠ .funcref then throw .typeMismatch
    (← ops.pop .i32).apply type.params type.results
  | .drop => return (← ops.popAny).2
  | .select => do
    let (a, rest) ← (← ops.pop .i32).popAny
    let (b, rest) ← rest.popAny
    return rest.push (← selectType a b)
  | .selectOf types =>
    match types with
    | [type] => do
      c.checkFloat type
      ops.apply [type, type, .i32] [type]
    | _ => throw .typeMismatch
  | .localGet index => do ops.apply [] [← itemAt c.locals index]
  | .localSet index => do ops.apply [← itemAt c.locals index] []
  | .localTee index => do
    let type ← itemAt c.locals index
    ops.apply [type] [type]
  | .globalGet index => do ops.apply [] [(← itemAt c.globals index).content]
  | .globalSet index => do
    let type ← itemAt c.globals index
    if !type.isMutable then throw .immutableGlobal
    ops.apply [type.content] []
  | .tableGet table => do ops.apply [.i32] [(← itemAt c.tables table).element]
  | .tableSet table => do ops.apply [.i32, (← itemAt c.tables table).element] []
  | .tableInit segment table => do
    if (← itemAt c.tables table).element ≠ (← itemAt c.elements segment) then throw .typeMismatch
    ops.apply [.i32, .i32, .i32] []
  | .elemDrop segment => do
    let _ ← itemAt c.elements segment
    return ops
  | .tableCopy target source => do
    if (← itemAt c.tables target).element ≠ (← itemAt c.tables source).element then
      throw .typeMismatch
    ops.apply [.i32, .i32, .i32] []
  | .tableGrow table => do ops.apply [(← itemAt c.tables table).element, .i32] [.i32]
  | .tableSize table => do
    let _ ← itemAt c.tables table
    ops.apply [] [.i32]
  | .tableFill table => do ops.apply [.i32, (← itemAt c.tables table).element, .i32] []
  | .load layout arg => do
    c.checkAccess layout arg
    ops.apply [.i32] [layout.type]
  | .store layout arg => do
    c.checkAccess layout arg
    ops.apply [.i32, layout.type] []
  | .memorySize => do
    c.checkMemory
    ops.apply [] [.i32]
  | .memoryGrow => do
    c.checkMemory
    ops.apply [.i32] [.i32]
  | .memoryInit segment => do
    c.checkMemory
    c.checkData segment
    ops.apply [.i32, .i32, .i32] []
  | .dataDrop segment => do
    c.checkData segment
    return ops
  | .memoryCopy | .memoryFill => do
    c.checkMemory
    ops.apply [.i32, .i32, .i32] []
  | .const value => do
    c.checkFloat value.type
    ops.apply [] [value.type]
  | .refNull type => ops.apply [] [type]
  | .refIsNull => do
    let (type, rest) ← ops.popAny
    match type with
    | some type => if !type.isReference then throw .typeMismatch
    | none => pure ()
    return rest.push (some .i32)
  | .refFunc index => do
    let _ ← itemAt c.functions index
    if index ∉ c.referable then throw .undeclaredReference
    ops.apply [] [.funcref]
  | .unary op => do
    c.checkFloat op.source
    c.checkFloat op.target
    ops.apply [op.source] [op.target]
  | .binary op => do
    c.checkFloat op.source
    ops.apply [op.source, op.source] [op.target]

/-- The operands after a sequence of instructions. -/
def checkCode (c : Context) (ops : Operands) : Code → Except Fault Operands
  | [] => return ops
  | i :: rest => do checkCode c (← i.check c ops) rest

end

end LedgerSandbox.Wasm
