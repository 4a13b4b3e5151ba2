import LedgerSandbox.Wasm.Machine
import LedgerSandbox.Wasm.Validation

/-!
# Instances

Making an instance of a module: its memory, tables and globals get their first
values, and the active segments are copied into them in order. The configured
bounds on memory and tables apply to the first sizes and to all growth.
-/

namespace LedgerSandbox.Wasm

/-- Why there is no instance of a module. -/
inductive InstanceFault where
  /-- A memory or table would be larger than allowed from the start. -/
  | tooLarge
  /-- A segment does not fit where it goes. -/
  | trapped (trap : Trap)
deriving DecidableEq

/-- The value of a constant expression, given the operands so far. -/
def constantFrom (globals : Array Value) : Code → List Value → Value
  | [], stack => stack.head?.getD (.i32 0)
  | i :: rest, stack =>
    match i, stack with
    | .const value, stack => constantFrom globals rest (value :: stack)
    | .globalGet index, stack =>
      constantFrom globals rest (globals[index]?.getD (.i32 0) :: stack)
    | .refNull type, stack => constantFrom globals rest (.default type :: stack)
    | .refFunc index, stack => constantFrom globals rest (.funcref (some index) :: stack)
    | .binary op, b :: a :: stack =>
      constantFrom globals rest ((op.eval a b).toOption.getD (.i32 0) :: stack)
    | _, stack => constantFrom globals rest stack

/-- The value of a constant expression. -/
def constant (globals : Array Value) (code : Code) : Value := constantFrom globals code []

namespace Module

/-- The functions of an instance. -/
def instanceFunctions (m : Module) : Array Function :=
  let imported := m.importedFunctions.mapIdx fun slot type => Function.imported slot type
  let defined := (m.functions.toList.zip m.bodies).map fun (type, body) =>
    Function.defined type (body.locals.map Value.default) body.code
  (imported ++ defined).toArray

/-- The size up to which something may grow: its own maximum within the bound. -/
def growthLimit (limits : Limits) (bound : Nat) : Nat := min (limits.max.getD bound) bound

/-- The store of an instance before the segments are copied. -/
def freshStore (m : Module) (imported : List Value) (memoryPages tableSize : Nat) : Store :=
  let globals := m.globals.foldl
    (fun (values : Array Value) global => values.push (constant values global.init))
    imported.toArray
  { memory := m.memories.head?.map fun limits =>
      .ofPages limits.min (growthLimit limits (min memoryPages maxPages))
    tables := (m.tables.map fun type => {
      elements := Array.replicate type.limits.min (.default type.element)
      limit := growthLimit type.limits tableSize }).toArray
    globals
    elements := (m.elements.map fun segment => match segment.mode with
      | .passive => segment.items.map (constant globals)
      | _ => []).toArray
    data := (m.data.map fun segment => match segment.mode with
      | .passive => segment.bytes.toByteArray
      | _ => .empty).toArray }

/-- Copies an active element segment. -/
def copyElements (s : Store) (segment : ElementSegment) : Except Trap Store :=
  match segment.mode with
  | .active index offset => do
    let t ← s.table index
    let values := segment.items.map (constant s.globals)
    return s.setTable index (← t.write (constant s.globals offset).bits.toNat values)
  | _ => return s

/-- Copies an active data segment. -/
def copyData (s : Store) (segment : DataSegment) : Except Trap Store :=
  match segment.mode with
  | .active _ offset =>
    let bytes := segment.bytes.toByteArray
    let target := (constant s.globals offset).bits.toNat
    s.onMemory (·.init bytes target 0 bytes.size)
  | _ => return s

/-- The store of an instance, given the values of the imported globals and the bounds on
memory and tables. -/
def instantiate (m : Module) (imported : List Value) (memoryPages tableSize : Nat) :
    Except InstanceFault Store :=
  if m.memories.any (memoryPages < ·.min) || m.tables.any (tableSize < ·.limits.min) then
    .error .tooLarge
  else
    let filled := do
      let s ← m.elements.foldlM copyElements (m.freshStore imported memoryPages tableSize)
      m.data.foldlM copyData s
    filled.mapError .trapped

end Module

end LedgerSandbox.Wasm
