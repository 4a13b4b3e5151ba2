import LedgerSandbox.Wasm.Module
import LedgerSandbox.Wasm.Opcode

/-!
# The binary format of modules

A module is a header followed by sections, each with its kind and its length.
Sections of the kinds that make up a module occur once at most and in a fixed
order; custom sections may stand anywhere and are skipped.
-/

namespace LedgerSandbox.Wasm

open Reader

/-- The kinds of sections in the order in which they must occur. -/
def sectionOrder : List UInt8 := [1, 2, 3, 4, 5, 6, 7, 8, 9, 12, 10, 11]

/-- The magic number and the version. -/
def moduleHeader : Bytes := [0x00, 0x61, 0x73, 0x6D, 0x01, 0x00, 0x00, 0x00]

/-- The most parameters or results of a function. -/
def maxArity : Nat := 1000

/-- The most variables of a function. -/
def maxLocals : Nat := 50000

/-- A function type. -/
def readFuncType : Reader FuncType := do
  let b ← byte
  if b ≠ 0x60 then throw (.unknownByte b)
  let params ← many readValType
  let results ← many readValType
  if maxArity < params.length ∨ maxArity < results.length then throw .badLimits
  return ⟨params, results⟩

/-- The sizes of a memory or table. Shared and 64-bit memories are not known. -/
def readLimits : Reader Limits := do
  match ← byte with
  | 0 => return ⟨← u32, none⟩
  | 1 =>
    let min ← u32
    return ⟨min, some (← u32)⟩
  | b => throw (.unknownByte b)

/-- A table type. -/
def readTableType : Reader TableType := do
  let element ← readRefType
  return ⟨element, ← readLimits⟩

/-- The type of a global. -/
def readGlobalType : Reader GlobalType := do
  let content ← readValType
  match ← byte with
  | 0 => return ⟨content, false⟩
  | 1 => return ⟨content, true⟩
  | b => throw (.unknownByte b)

/-- An import. -/
def readImport (types : Array FuncType) : Reader Import := do
  let moduleName ← name
  let field ← name
  let type ← match ← byte with
    | 0 => do pure (.func (← itemAt types (← u32)))
    | 1 => do pure (.table (← readTableType))
    | 2 => do pure (.memory (← readLimits))
    | 3 => do pure (.global (← readGlobalType))
    | b => throw (.unknownByte b)
  return ⟨moduleName, field, type⟩

/-- A global. -/
def readGlobal (types : Array FuncType) : Reader Global := do
  let type ← readGlobalType
  return ⟨type, ← readCode types⟩

/-- An export. -/
def readExport : Reader Export := do
  let name ← name
  let kind ← byte
  let index ← u32
  match kind with
  | 0 => return ⟨name, .func index⟩
  | 1 => return ⟨name, .table index⟩
  | 2 => return ⟨name, .memory index⟩
  | 3 => return ⟨name, .global index⟩
  | b => throw (.unknownByte b)

/-- The items of an element segment that lists functions. -/
def readFunctionItems : Reader (List Code) := do
  return (← many u32).map fun index => [.refFunc index]

/-- The kind of items that a segment of functions announces, always zero. -/
def readElementKind : Reader Unit := do
  let b ← byte
  if b ≠ 0 then throw (.unknownByte b)

/-- An element segment. -/
def readElement (types : Array FuncType) : Reader ElementSegment := do
  let code := readCode types
  match ← u32 with
  | 0 =>
    let offset ← code
    return ⟨.funcref, ← readFunctionItems, .active 0 offset⟩
  | 1 =>
    readElementKind
    return ⟨.funcref, ← readFunctionItems, .passive⟩
  | 2 =>
    let table ← u32
    let offset ← code
    readElementKind
    return ⟨.funcref, ← readFunctionItems, .active table offset⟩
  | 3 =>
    readElementKind
    return ⟨.funcref, ← readFunctionItems, .declarative⟩
  | 4 =>
    let offset ← code
    return ⟨.funcref, ← many code, .active 0 offset⟩
  | 5 =>
    let type ← readRefType
    return ⟨type, ← many code, .passive⟩
  | 6 =>
    let table ← u32
    let offset ← code
    let type ← readRefType
    return ⟨type, ← many code, .active table offset⟩
  | 7 =>
    let type ← readRefType
    return ⟨type, ← many code, .declarative⟩
  | _ => throw .malformedInteger

/-- A data segment. -/
def readData (types : Array FuncType) : Reader DataSegment := do
  let content : Reader Bytes := do bytes (← u32)
  match ← u32 with
  | 0 =>
    let offset ← readCode types
    return ⟨← content, .active 0 offset⟩
  | 1 => return ⟨← content, .passive⟩
  | 2 =>
    let memory ← u32
    let offset ← readCode types
    return ⟨← content, .active memory offset⟩
  | _ => throw .malformedInteger

/-- Groups of variables of one type, expanded. -/
def readLocals : (groups count : Nat) → Reader (List ValType)
  | 0, _ => return []
  | n + 1, count => do
    let size ← u32
    let type ← readValType
    if maxLocals < count + size then throw .badLimits
    return List.replicate size type ++ (← readLocals n (count + size))

/-- The body of a function. -/
def readBody (types : Array FuncType) : Reader Body := do
  let locals ← readLocals (← u32) 0
  return ⟨locals, ← readCode types⟩

/-- Adds the section of a kind to the module read so far. -/
def readSection (m : Module) (kind : UInt8) : Reader Module := do
  let types := m.types
  match kind with
  | 1 => return { m with types := (← many readFuncType).toArray }
  | 2 => return { m with imports := ← many (readImport types) }
  | 3 =>
    let functions ← many do itemAt types (← u32)
    return { m with functions := functions.toArray }
  | 4 => return { m with tables := ← many readTableType }
  | 5 => return { m with memories := ← many readLimits }
  | 6 => return { m with globals := ← many (readGlobal types) }
  | 7 => return { m with exports := ← many readExport }
  | 8 => return { m with start := some (← u32) }
  | 9 => return { m with elements := ← many (readElement types) }
  | 12 => return { m with dataCount := some (← u32) }
  | 10 => return { m with bodies := ← many (part (readBody types)) }
  | 11 => return { m with data := ← many (readData types) }
  | b => throw (.unknownByte b)

/-- Reads sections to the end of the bytecode. `remaining` are the kinds that may still
occur. Every section takes a byte at least, which bounds their number. -/
def readSections : (budget : Nat) → (remaining : List UInt8) → Module → Reader Module
  | 0, _, m => return m
  | budget + 1, remaining, m => do
    if ← atEnd then return m
    let kind ← byte
    if kind = 0 then
      -- Of a custom section, only the name is read.
      part do
        let _ ← name
        set ([] : Bytes)
      readSections budget remaining m
    else
      match remaining.dropWhile (· ≠ kind) with
      | [] => throw .misplacedSection
      | _ :: later =>
        let m ← part (readSection m kind)
        readSections budget later m

/-- The module that bytecode holds. -/
def Module.decode (bytecode : Bytes) : Except Fault Module := do
  let reader : Reader Module := do
    if (← bytes moduleHeader.length) ≠ moduleHeader then throw .badHeader
    readSections bytecode.length sectionOrder {}
  let m ← reader.onAll bytecode
  if m.functions.size ≠ m.bodies.length then throw .inconsistentCounts
  match m.dataCount with
  | some count => if count ≠ m.data.length then throw .inconsistentCounts
  | none => pure ()
  return m

end LedgerSandbox.Wasm
