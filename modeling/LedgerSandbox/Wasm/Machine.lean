import LedgerSandbox.Wasm.Arithmetic
import LedgerSandbox.Wasm.Store

/-!
# The machine

A machine runs the code of one instance. `Machine.step` performs one instruction;
`run` repeats it, within a budget of steps, and serves the calls that leave the
instance through a host given by the caller. The machine knows nothing of what the
host does except for the values and the memory that it gets back.

Code is run as it was read: a frame holds the instructions still to do, and a label
for each block around them. A branch drops labels and goes on where the last one
says.
-/

namespace LedgerSandbox.Wasm

/-- A function of an instance. -/
inductive Function where
  /-- A function of the host's, with its place among the imported functions. -/
  | imported (slot : Nat) (type : FuncType)
  /-- A function with code, and the first values of its own variables. -/
  | defined (type : FuncType) (locals : List Value) (code : Code)

/-- The type of a function. -/
def Function.type : Function → FuncType
  | imported _ type => type
  | defined type _ _ => type

/-- A block around the code that runs. -/
structure Label where
  /-- How many operands a branch to the block carries. -/
  arity : Nat
  /-- The operands below those of the block. -/
  below : List Value
  /-- Where a branch to the block goes on. -/
  target : Code
  /-- What follows the block. -/
  after : Code

/-- A function that runs. -/
structure Frame where
  locals : Array Value
  /-- How many results the function has. -/
  arity : Nat
  /-- The blocks around the code, innermost first. -/
  labels : List Label
  /-- The instructions still to do in the innermost block. -/
  code : Code
  /-- The operands, topmost first. -/
  stack : List Value

/-- An instance that runs. -/
structure Machine where
  functions : Array Function
  store : Store
  frame : Frame
  /-- The functions that wait for a call to return, innermost first. -/
  callers : List Frame
  /-- How many functions wait. -/
  depth : Nat

/-- The most functions that may wait. -/
def maxDepth : Nat := 8192

/-- What one step comes to. -/
inductive Event where
  /-- The machine goes on. -/
  | running (m : Machine)
  /-- The machine calls the host; the results are to be put on its operands. -/
  | calling (slot : Nat) (args : List Value) (m : Machine)
  /-- The first function has returned. -/
  | finished (results : List Value) (store : Store)
  | trapped (trap : Trap)

namespace Machine

/-- The machine with other operands. -/
def withStack (m : Machine) (stack : List Value) : Machine :=
  { m with frame := { m.frame with stack } }

/-- The machine with results on top of the operands. -/
def resume (m : Machine) (results : List Value) : Machine :=
  m.withStack (results.reverse ++ m.frame.stack)

/-- Returns from the function that runs. -/
def leaveFunction (m : Machine) : Event :=
  let results := m.frame.stack.take m.frame.arity
  match m.callers with
  | [] => .finished results.reverse m.store
  | caller :: callers =>
    .running { m with
      frame := { caller with stack := results ++ caller.stack }
      callers
      depth := m.depth - 1 }

/-- Goes on after the end of a block, or of the function. -/
def leaveBlock (m : Machine) : Event :=
  match m.frame.labels with
  | label :: labels => .running { m with frame := { m.frame with labels, code := label.after } }
  | [] => m.leaveFunction

/-- Branches to the block at the given depth, or returns if it is the function. -/
def branch (m : Machine) (depth : Nat) : Event :=
  match m.frame.labels.drop depth with
  | label :: labels =>
    .running { m with frame := { m.frame with
      labels
      code := label.target
      stack := m.frame.stack.take label.arity ++ label.below } }
  | [] => m.leaveFunction

/-- Enters a block that takes `params` operands. -/
def enter (m : Machine) (params arity : Nat) (target code : Code) : Machine :=
  let label := { arity, below := m.frame.stack.drop params, target, after := m.frame.code }
  { m with frame := { m.frame with labels := label :: m.frame.labels, code } }

/-- Calls a function with the operands on top as its arguments. -/
def call (m : Machine) (f : Function) : Event :=
  let count := f.type.params.length
  let args := (m.frame.stack.take count).reverse
  let m := m.withStack (m.frame.stack.drop count)
  match f with
  | .imported slot _ => .calling slot args m
  | .defined type locals code =>
    if maxDepth ≤ m.depth then .trapped .callStackExhausted
    else .running { m with
      frame := {
        locals := (args ++ locals).toArray
        arity := type.results.length
        labels := []
        code
        stack := [] }
      callers := m.frame :: m.callers
      depth := m.depth + 1 }

/-- Calls the function with the given index. -/
def callIndex (m : Machine) (index : Nat) : Event :=
  match m.functions[index]? with
  | some f => m.call f
  | none => .trapped .stuck

/-- Calls the function that a table element refers to, which must have the given type. -/
def callIndirect (m : Machine) (type : FuncType) (table : Nat) : Event :=
  match m.frame.stack with
  | .i32 element :: rest =>
    match (do (← m.store.table table).get element.toNat) with
    | .error trap => .trapped trap
    | .ok (.funcref (some index)) =>
      match m.functions[index]? with
      | some f =>
        if f.type = type then (m.withStack rest).call f else .trapped .indirectCallMismatch
      | none => .trapped .stuck
    | .ok _ => .trapped .uninitializedElement
  | _ => .trapped .stuck

end Machine

namespace Layout

/-- The value that bytes in memory stand for. -/
def decode (layout : Layout) (word : UInt64) : Value :=
  let unused := UInt64.ofNat (64 - 8 * layout.bytes)
  let word :=
    if layout.isSigned then ((word <<< unused).toInt64 >>> unused.toInt64).toUInt64 else word
  match layout.type with
  | .i32 => .i32 word.toUInt32
  | .i64 => .i64 word
  | .f32 => .f32 word.toUInt32
  | .f64 => .f64 word
  | type => .default type

end Layout

/-- The result of an instruction that grows something: the size before, or −1. -/
def growthResult : Option Nat → Value
  | some size => .i32 (UInt32.ofNat size)
  | none => .i32 0xFFFFFFFF

namespace Machine

/-- Performs an instruction on variables. -/
def onVariables (m : Machine) (i : Instr) : Except Trap Machine :=
  match i, m.frame.stack with
  | .localGet index, stack =>
    match m.frame.locals[index]? with
    | some value => .ok (m.withStack (value :: stack))
    | none => .error .stuck
  | .localSet index, value :: stack =>
    .ok { m with frame := { m.frame with
      locals := m.frame.locals.setIfInBounds index value, stack } }
  | .localTee index, value :: _ =>
    .ok { m with frame := { m.frame with locals := m.frame.locals.setIfInBounds index value } }
  | .globalGet index, stack =>
    match m.store.globals[index]? with
    | some value => .ok (m.withStack (value :: stack))
    | none => .error .stuck
  | .globalSet index, value :: stack =>
    .ok { m with
      store := { m.store with globals := m.store.globals.setIfInBounds index value }
      frame := { m.frame with stack } }
  | _, _ => .error .stuck

/-- Performs an instruction on the memory. -/
def onMemory (m : Machine) (i : Instr) : Except Trap Machine :=
  match i, m.frame.stack with
  | .load layout arg, .i32 address :: stack => do
    match m.store.memory with
    | some memory =>
      let word ← memory.load (address.toNat + arg.offset) layout.bytes
      return m.withStack (layout.decode word :: stack)
    | none => throw .stuck
  | .store layout arg, value :: .i32 address :: stack =>
    -- The machine is taken apart, so that the memory can be changed in place.
    match m with
    | ⟨functions, store, frame, callers, depth⟩ =>
      match store.onMemory (·.store (address.toNat + arg.offset) layout.bytes value.bits) with
      | .ok store => .ok ⟨functions, store, { frame with stack }, callers, depth⟩
      | .error trap => .error trap
  | .memorySize, stack =>
    match m.store.memory with
    | some memory => .ok (m.withStack (.i32 (UInt32.ofNat memory.pages) :: stack))
    | none => .error .stuck
  | .memoryGrow, .i32 delta :: stack =>
    match m.store.memory with
    | some memory =>
      let size := memory.pages
      match memory.grow? delta.toNat with
      | some memory =>
        .ok { m with
          store := { m.store with memory := some memory }
          frame := { m.frame with stack := growthResult (some size) :: stack } }
      | none => .ok (m.withStack (growthResult none :: stack))
    | none => .error .stuck
  | .memoryInit segment, .i32 count :: .i32 source :: .i32 target :: stack => do
    let bytes := m.store.data[segment]?.getD .empty
    let store ← m.store.onMemory (·.init bytes target.toNat source.toNat count.toNat)
    return { m with store, frame := { m.frame with stack } }
  | .dataDrop segment, _ =>
    .ok { m with store := { m.store with data := m.store.data.setIfInBounds segment .empty } }
  | .memoryCopy, .i32 count :: .i32 source :: .i32 target :: stack => do
    let store ← m.store.onMemory (·.move target.toNat source.toNat count.toNat)
    return { m with store, frame := { m.frame with stack } }
  | .memoryFill, .i32 count :: .i32 value :: .i32 target :: stack =>
    match m with
    | ⟨functions, store, frame, callers, depth⟩ =>
      match store.onMemory (·.fill target.toNat count.toNat value.toUInt8) with
      | .ok store => .ok ⟨functions, store, { frame with stack }, callers, depth⟩
      | .error trap => .error trap
  | _, _ => .error .stuck

/-- Performs an instruction on a table. -/
def onTables (m : Machine) (i : Instr) : Except Trap Machine :=
  match i, m.frame.stack with
  | .tableGet table, .i32 index :: stack => do
    let value ← (← m.store.table table).get index.toNat
    return m.withStack (value :: stack)
  | .tableSet table, value :: .i32 index :: stack => do
    let t ← (← m.store.table table).write index.toNat [value]
    return { m with store := m.store.setTable table t, frame := { m.frame with stack } }
  | .tableInit segment table, .i32 count :: .i32 source :: .i32 target :: stack => do
    let values := m.store.elements[segment]?.getD []
    if values.length < source.toNat + count.toNat then throw .tableOutOfBounds
    let t ← (← m.store.table table).write target.toNat
      ((values.drop source.toNat).take count.toNat)
    return { m with store := m.store.setTable table t, frame := { m.frame with stack } }
  | .elemDrop segment, _ =>
    .ok { m with store := { m.store with elements := m.store.elements.setIfInBounds segment [] } }
  | .tableCopy target source, .i32 count :: .i32 sourceIndex :: .i32 targetIndex :: stack => do
    let values ← (← m.store.table source).slice sourceIndex.toNat count.toNat
    let t ← (← m.store.table target).write targetIndex.toNat values
    return { m with store := m.store.setTable target t, frame := { m.frame with stack } }
  | .tableGrow table, .i32 delta :: value :: stack => do
    let t ← m.store.table table
    match t.grow? delta.toNat value with
    | some grown =>
      return { m with
        store := m.store.setTable table grown
        frame := { m.frame with stack := growthResult (some t.elements.size) :: stack } }
    | none => return m.withStack (growthResult none :: stack)
  | .tableSize table, stack => do
    let t ← m.store.table table
    return m.withStack (.i32 (UInt32.ofNat t.elements.size) :: stack)
  | .tableFill table, .i32 count :: value :: .i32 index :: stack => do
    let t ← (← m.store.table table).write index.toNat (List.replicate count.toNat value)
    return { m with store := m.store.setTable table t, frame := { m.frame with stack } }
  | _, _ => .error .stuck

/-- Performs an instruction on the operands alone. -/
def onOperands (m : Machine) (i : Instr) : Except Trap Machine :=
  match i, m.frame.stack with
  | .const value, stack => .ok (m.withStack (value :: stack))
  | .unary op, a :: stack =>
    match op.eval a with
    | .ok value => .ok (m.withStack (value :: stack))
    | .error trap => .error trap
  | .binary op, b :: a :: stack =>
    match op.eval a b with
    | .ok value => .ok (m.withStack (value :: stack))
    | .error trap => .error trap
  | .drop, _ :: stack => .ok (m.withStack stack)
  | .select, .i32 condition :: b :: a :: stack
  | .selectOf _, .i32 condition :: b :: a :: stack =>
    .ok (m.withStack ((if condition ≠ 0 then a else b) :: stack))
  | .refNull type, stack => .ok (m.withStack (.default type :: stack))
  | .refIsNull, value :: stack => .ok (m.withStack (.ofBool (value = .default value.type) :: stack))
  | .refFunc index, stack => .ok (m.withStack (.funcref (some index) :: stack))
  | .nop, _ => .ok m
  | _, _ => .error .stuck

/-- The event of an instruction that does not change the flow of control. -/
def proceed : Except Trap Machine → Event
  | .ok m => .running m
  | .error trap => .trapped trap

/-- Performs an instruction, which is no longer among those to do. -/
def exec (m : Machine) (i : Instr) : Event :=
  match i with
  | .unreachable => .trapped .unreachable
  | .block type body =>
    .running (m.enter type.params.length type.results.length m.frame.code body)
  | .loop type body =>
    -- A branch to a loop does the loop itself again, with its parameters.
    .running (m.enter type.params.length type.params.length (i :: m.frame.code) body)
  | .ifElse type yes no =>
    match m.frame.stack with
    | .i32 condition :: stack =>
      let m := m.withStack stack
      .running (m.enter type.params.length type.results.length m.frame.code
        (if condition ≠ 0 then yes else no))
    | _ => .trapped .stuck
  | .br depth => m.branch depth
  | .brIf depth =>
    match m.frame.stack with
    | .i32 condition :: stack =>
      let m := m.withStack stack
      if condition ≠ 0 then m.branch depth else .running m
    | _ => .trapped .stuck
  | .brTable depths default =>
    match m.frame.stack with
    | .i32 index :: stack => (m.withStack stack).branch (depths[index.toNat]?.getD default)
    | _ => .trapped .stuck
  | .ret => m.leaveFunction
  | .call index => m.callIndex index
  | .callIndirect type table => m.callIndirect type table
  | .localGet _ | .localSet _ | .localTee _ | .globalGet _ | .globalSet _ => proceed (m.onVariables i)
  | .load _ _ | .store _ _ | .memorySize | .memoryGrow | .memoryInit _ | .dataDrop _
  | .memoryCopy | .memoryFill => proceed (m.onMemory i)
  | .tableGet _ | .tableSet _ | .tableInit _ _ | .elemDrop _ | .tableCopy _ _ | .tableGrow _
  | .tableSize _ | .tableFill _ => proceed (m.onTables i)
  | .const _ | .unary _ | .binary _ | .drop | .select | .selectOf _ | .refNull _ | .refIsNull
  | .refFunc _ | .nop => proceed (m.onOperands i)

/-- One step: the next instruction, or the end of a block. -/
def step (m : Machine) : Event :=
  match m.frame.code with
  | [] => m.leaveBlock
  | i :: code => { m with frame := { m.frame with code } }.exec i

/-- A machine about to call a function with the given arguments. -/
def start (functions : Array Function) (store : Store) (index : Nat) (args : List Value) :
    Machine where
  functions
  store
  frame := {
    locals := #[]
    arity := ((functions[index]?.map (·.type.results.length)).getD 0)
    labels := []
    code := [.call index]
    stack := args.reverse }
  callers := []
  depth := 0

end Machine

/-- A host with states `σ`, which serves the calls of an instance: from the place of the
imported function, the arguments and the memory, if there is one, to the results and
the memory as the host leaves it. -/
abbrev Host (σ : Type) := Nat → List Value → Option Memory → σ → (List Value × Option Memory) × σ

/-- How a run ends. -/
inductive Outcome where
  /-- The function has returned, with some of the budget left. -/
  | finished (results : List Value) (store : Store) (left : Nat)
  | trapped (trap : Trap)
  /-- The budget is used up. -/
  | exhausted

/-- Runs a machine for a number of steps at most. -/
def run {σ : Type} (host : Host σ) : (budget : Nat) → Machine → σ → Outcome × σ
  | 0, _, s => (.exhausted, s)
  | budget + 1, m, s =>
    match m.step with
    | .running m => run host budget m s
    -- The memory is taken out of the machine, so that the host can change it in place.
    | .calling slot args ⟨functions, ⟨memory, tables, globals, elements, data⟩, frame, callers, depth⟩ =>
      match host slot args memory s with
      | ((results, memory), s) =>
        let m : Machine := ⟨functions, ⟨memory, tables, globals, elements, data⟩, frame, callers, depth⟩
        run host budget (m.resume results) s
    | .finished results store => (.finished results store budget, s)
    | .trapped trap => (.trapped trap, s)

end LedgerSandbox.Wasm
