import LedgerSandbox.Wasm.Section
import LedgerSandbox.Wasm.Typing

/-!
# Validation of modules

A module is accepted if all its indices point to something, its code is well typed,
its constant expressions are constant, and its sizes are possible. Floating-point
types and instructions can be ruled out as a whole, wherever they occur.
-/

namespace LedgerSandbox.Wasm

/-- The most pages that a memory can have. -/
def maxPages : Nat := 65536

/-- The most elements that a table can have. -/
def maxTableSize : Nat := 0xFFFFFFFF

/-- The most elements that a table may start with. -/
def maxTableStart : Nat := 10000000

/-- The most tables that a module may have. -/
def maxTables : Nat := 100

namespace Limits

/-- Refuses sizes that start above the greatest allowed, or above their own maximum. -/
def check (limits : Limits) (greatest : Nat) : Except Fault Unit :=
  if greatest < limits.min ∨ greatest < limits.max.getD 0 ∨
      limits.max.any (· < limits.min) then throw .badLimits
  else pure ()

end Limits

namespace Module

/-- The functions that a constant expression refers to. -/
def referencesIn (code : Code) : List Nat :=
  code.filterMap fun i => match i with
    | .refFunc index => some index
    | _ => none

/-- The functions that occur outside of code, and that references may be made to. -/
def referable (m : Module) : List Nat :=
  (m.elements.flatMap fun segment => segment.items.flatMap referencesIn) ++
  (m.globals.flatMap fun global => referencesIn global.init) ++
  m.exports.filterMap fun e => match e.target with
    | .func index => some index
    | _ => none

/-- What code outside of functions may refer to. -/
def context (m : Module) (allowFloats : Bool) : Context where
  functions := m.allFunctions.toArray
  tables := m.allTables.toArray
  hasMemory := !m.allMemories.isEmpty
  globals := m.allGlobals.toArray
  elements := (m.elements.map (·.type)).toArray
  dataCount := m.dataCount
  referable := m.referable
  allowFloats

/-- Whether an instruction may stand in a constant expression. Of the globals, it may
read those that are imported and do not change. -/
def isConstant (m : Module) : Instr → Bool
  | .const _ | .refNull _ | .refFunc _ => true
  | .globalGet index => m.importedGlobals[index]?.any (!·.isMutable)
  | .binary (.int _ op) => op = .add || op = .sub || op = .mul
  | _ => false

/-- Checks a constant expression for a value of the given type. -/
def checkConstant (m : Module) (c : Context) (type : ValType) (code : Code) :
    Except Fault Unit := do
  if !code.all m.isConstant then throw .notConstant
  (← checkCode c (.ofTypes []) code).finish [type]

/-- Checks the body of a function. -/
def checkBody (c : Context) (type : FuncType) (body : Body) : Except Fault Unit := do
  body.locals.forM c.checkFloat
  let c := { c with
    locals := (type.params ++ body.locals).toArray
    labels := [type.results]
    results := type.results }
  (← checkCode c (.ofTypes []) body.code).finish type.results

/-- Checks the place that a segment is copied to. -/
def checkOffset (m : Module) (c : Context) (mode : SegmentMode) (checkIndex : Nat → Except Fault Unit) :
    Except Fault Unit :=
  match mode with
  | .active index offset => do
    checkIndex index
    m.checkConstant c .i32 offset
  | _ => pure ()

/-- Checks an element segment. -/
def checkElements (m : Module) (c : Context) (segment : ElementSegment) : Except Fault Unit := do
  m.checkOffset c segment.mode fun table => do
    if (← itemAt c.tables table).element ≠ segment.type then throw .typeMismatch
  segment.items.forM (m.checkConstant c segment.type)

/-- Checks a data segment. -/
def checkData (m : Module) (c : Context) (segment : DataSegment) : Except Fault Unit :=
  m.checkOffset c segment.mode fun memory => do
    if memory ≠ 0 then throw (.unknownIndex memory)
    c.checkMemory

/-- Checks that an export points to something. -/
def checkExport (m : Module) (e : Export) : Except Fault Unit :=
  let check (index count : Nat) : Except Fault Unit :=
    if index < count then pure () else throw (.unknownIndex index)
  match e.target with
  | .func index => check index m.allFunctions.length
  | .table index => check index m.allTables.length
  | .memory index => check index m.allMemories.length
  | .global index => check index m.allGlobals.length

/-- Checks the function that runs at the start: it takes and gives nothing. -/
def checkStart (c : Context) (index : Nat) : Except Fault Unit := do
  let type ← itemAt c.functions index
  if type.params.isEmpty && type.results.isEmpty then return else throw .typeMismatch

/-- Checks a module. -/
def validate (m : Module) (allowFloats : Bool) : Except Fault Unit := do
  let c := m.context allowFloats
  m.types.toList.forM fun type => (type.params ++ type.results).forM c.checkFloat
  m.allTables.forM fun table => do
    table.limits.check maxTableSize
    if maxTableStart < table.limits.min then throw .badLimits
  m.allMemories.forM fun limits => limits.check maxPages
  if 1 < m.allMemories.length ∨ maxTables < m.allTables.length then throw .badLimits
  m.allGlobals.forM fun type => c.checkFloat type.content
  m.globals.forM fun global => m.checkConstant c global.type.content global.init
  m.exports.forM m.checkExport
  if !(m.exports.map (·.name)).Nodup then throw .duplicateExport
  m.start.forM (checkStart c)
  m.elements.forM (m.checkElements c)
  m.data.forM (m.checkData c)
  (m.functions.toList.zip m.bodies).forM fun (type, body) => checkBody c type body

end Module

/-- Reads bytecode as a module and checks it. -/
def validateBytecode (allowFloats : Bool) (bytecode : Bytes) : Except Fault Module := do
  let m ← Module.decode bytecode
  m.validate allowFloats
  return m

end LedgerSandbox.Wasm
