import LedgerSandbox.Bytes
import LedgerSandbox.Wasm.Instruction

/-!
# Modules

What bytecode declares. Functions, tables, memories and globals each have an index
space, in which the imported ones come first.
-/

namespace LedgerSandbox.Wasm

/-- A global with the expression for its first value. -/
structure Global where
  type : GlobalType
  init : Code

/-- What an export gives access to: an index in one of the index spaces. -/
inductive ExportTarget where
  | func (index : Nat)
  | table (index : Nat)
  | memory (index : Nat)
  | global (index : Nat)
deriving DecidableEq

/-- A named export. -/
structure Export where
  name : String
  target : ExportTarget
deriving DecidableEq

/-- When a segment is copied into its table or memory: at the start, at the place
given by an expression, or when an instruction asks for it. -/
inductive SegmentMode where
  | active (index : Nat) (offset : Code)
  | passive
  /-- Never: the segment only declares the functions in it. -/
  | declarative

/-- References to fill a table with. -/
structure ElementSegment where
  type : ValType
  items : List Code
  mode : SegmentMode

/-- Bytes to fill a memory with. -/
structure DataSegment where
  bytes : Bytes
  mode : SegmentMode

/-- The code of a function. -/
structure Body where
  /-- The types of the variables beside the parameters. -/
  locals : List ValType
  code : Code

/-- A module. -/
structure Module where
  types : Array FuncType := #[]
  imports : List Import := []
  /-- The types of the functions that the module defines. -/
  functions : Array FuncType := #[]
  tables : List TableType := []
  memories : List Limits := []
  globals : List Global := []
  exports : List Export := []
  start : Option Nat := none
  elements : List ElementSegment := []
  /-- The number of data segments, if it is declared ahead of the code. -/
  dataCount : Option Nat := none
  bodies : List Body := []
  data : List DataSegment := []

namespace Module

/-- The types of the imported functions. -/
def importedFunctions (m : Module) : List FuncType :=
  m.imports.filterMap fun i => match i.type with
    | .func type => some type
    | _ => none

/-- The types of the imported globals. -/
def importedGlobals (m : Module) : List GlobalType :=
  m.imports.filterMap fun i => match i.type with
    | .global type => some type
    | _ => none

/-- The types of all functions. -/
def allFunctions (m : Module) : List FuncType := m.importedFunctions ++ m.functions.toList

/-- The types of all tables. -/
def allTables (m : Module) : List TableType :=
  (m.imports.filterMap fun i => match i.type with
    | .table type => some type
    | _ => none) ++ m.tables

/-- The sizes of all memories. -/
def allMemories (m : Module) : List Limits :=
  (m.imports.filterMap fun i => match i.type with
    | .memory limits => some limits
    | _ => none) ++ m.memories

/-- The types of all globals. -/
def allGlobals (m : Module) : List GlobalType := m.importedGlobals ++ m.globals.map (·.type)

/-- What is exported under a name. -/
def export? (m : Module) (name : String) : Option ExportTarget :=
  (m.exports.find? (·.name = name)).map (·.target)

end Module

end LedgerSandbox.Wasm
