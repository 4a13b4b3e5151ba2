import LedgerSandbox.Failure
import LedgerSandbox.Host.Call
import LedgerSandbox.Wasm.Instance

/-!
# The sandbox

Runs the code of modules within the configured bounds. Bytecode is validated and its
imports are checked once; a module that passes is kept for later runs. Everything
else is made anew for each run, so that nothing of a run reaches the next one but
what it wrote to the ledger.

Time is measured by the work of the guest: a step counts as a fixed span, and the
deadline bounds the number of steps. Whichever of fuel and time is used up first
stops the guest.
-/

namespace LedgerSandbox

open Wasm (Module Outcome Trap)

/-- The time that one step is taken to last, in nanoseconds. -/
def stepNanos : Nat := 10

/-- How many steps a run may take, and what stops it after them. -/
structure Allowance where
  steps : Nat
  reason : Trap

/-- The steps that a configuration allows. -/
def Config.allowance (config : Config) : Allowance :=
  match config.deadlineTicks with
  | none => ⟨config.fuel, .outOfFuel⟩
  | some ticks =>
    let steps := ticks.toNat * config.tickNanos / stepNanos
    if config.fuel ≤ steps then ⟨config.fuel, .outOfFuel⟩ else ⟨steps, .deadlineExceeded⟩

/-- Validates bytecode and checks its imports. -/
def prepare (config : Config) (bytecode : Bytes) : Except Failure Module :=
  match Wasm.validateBytecode config.allowFloats bytecode with
  | .error fault => .error (.invalidBytecode fault.message)
  | .ok m =>
    match validateImports m.imports with
    | .error fault => .error (.invalidBytecode fault.message)
    | .ok _ => .ok m

/-! ## One run -/

namespace Run

/-- The functions among the links of a module, with the types under which they are
imported. -/
def functions (links : List Link) : Array (HostFunction × Wasm.FuncType) :=
  (links.filterMap fun link => match link.provider, link.type with
    | .function f, .func type => some (f, type)
    | _, _ => none).toArray

/-- The values of the imported globals. -/
def globals (links : List Link) : List Wasm.Value :=
  links.filterMap fun link => match link.type with
    | .global type =>
      some (if type.content = .i32 then .i32 constantVariable
        else .i64 constantVariable.toUInt64)
    | _ => none

/-- Whether a module shows its memory to the host. -/
def showsMemory (m : Module) : Bool :=
  match m.export? "memory" with
  | some (.memory _) => true
  | _ => false

variable {σ : Type} [Ledger σ]

/-- The host as the machine sees it. -/
def host (links : List Link) (showsMemory : Bool) : Wasm.Host (HostState σ) :=
  let functions := functions links
  fun slot args memory state =>
    match functions[slot]? with
    | none => (([], memory), state)
    | some (f, type) =>
      match showsMemory, memory with
      | true, some ⟨data, limit⟩ =>
        match f.callAs type args ⟨some data, state⟩ with
        | (results, ⟨some data, state⟩) => ((results, some ⟨data, limit⟩), state)
        | (results, ⟨none, state⟩) => ((results, none), state)
      -- A memory that is not exported stays as it is, out of sight.
      | _, memory =>
        match f.callAs type args ⟨none, state⟩ with
        | (results, caller) => ((results, memory), caller.host)

/-- What a run is made of, beside the store. -/
structure Setup where
  module : Module
  links : List Link
  allowance : Allowance

/-- Calls a function of an instance: the results, the store and the steps left. -/
def callFunction (setup : Setup) (store : Wasm.Store) (steps index : Nat)
    (args : List Wasm.Value) :
    EStateM Failure (HostState σ) (List Wasm.Value × Wasm.Store × Nat) := fun state =>
  let machine := Wasm.Machine.start setup.module.instanceFunctions store index args
  match Wasm.run (host setup.links (showsMemory setup.module)) steps machine state with
  | (.finished results store left, state) => .ok (results, store, left) state
  | (.trapped trap, state) => .error (.guestTrap trap.message) state
  | (.exhausted, state) => .error (.guestTrap setup.allowance.reason.message) state

/-- Runs the start function, if there is one. -/
def callStart (setup : Setup) (store : Wasm.Store) :
    EStateM Failure (HostState σ) (Wasm.Store × Nat) :=
  match setup.module.start with
  | none => return (store, setup.allowance.steps)
  | some index => do
    let (_, store, left) ← callFunction setup store setup.allowance.steps index []
    return (store, left)

/-- The arguments of an entry function: nothing, or the number of arguments of the
invocation. -/
def entryArgs (type : Wasm.FuncType) (count : Nat) : Option (List Wasm.Value) :=
  match type.params with
  | [] => some []
  | [.i32] => some [.i32 (UInt32.ofNat count)]
  | [.i64] => some [.i64 (UInt64.ofNat count)]
  | _ => none

/-- Whether an entry function may have the given results. -/
def isEntryResult : List Wasm.ValType → Bool
  | [] | [.i32] | [.i64] => true
  | _ => false

/-- The return code that the results of an entry function stand for. -/
def returnCode : List Wasm.Value → Int64
  | [.i32 word] => word.toInt32.toInt64
  | [.i64 word] => word.toInt64
  | _ => 0

/-- Finds and calls an entry function. -/
def callEntry (setup : Setup) (store : Wasm.Store) (steps : Nat) (entry : String) :
    EStateM Failure (HostState σ) Int64 := do
  match setup.module.export? entry with
  | some (.func index) =>
    match setup.module.allFunctions[index]? with
    | none => throw (.entryNotFound entry)
    | some type =>
      match entryArgs type (← get).invocation.args.length with
      | none =>
        throw (.invalidBytecode s!"entry {entry} must take no params or one integer param")
      | some args =>
        if !isEntryResult type.results then
          throw (.invalidBytecode s!"entry {entry} must return nothing or one integer")
        let (results, _, _) ← callFunction setup store steps index args
        return returnCode results
  | _ => throw (.entryNotFound entry)

/-- Runs an entry function of a module: links its imports, makes an instance, and calls
the start function and the entry function. -/
def execute (config : Config) (m : Module) (entry : String) :
    EStateM Failure (HostState σ) Int64 := do
  match linkImports m.imports with
  | .error fault => throw (.invalidBytecode fault.message)
  | .ok links =>
    match m.instantiate (globals links) config.memoryPages config.tableSize with
    | .error .tooLarge =>
      throw (.invalidBytecode "instantiate: memory or table exceeds its bound")
    | .error (.trapped trap) => throw (.guestTrap trap.message)
    | .ok store =>
      let setup := ⟨m, links, config.allowance⟩
      let (store, steps) ← callStart setup store
      callEntry setup store steps entry

end Run

/-! ## Many runs -/

/-- A sandbox: its configuration, the modules that have passed the checks, and the
messages that guests have printed. -/
structure Sandbox where
  config : Config
  /-- The accepted modules, by their bytecode. -/
  accepted : List (Bytes × Module) := []
  log : Array LogEntry := #[]

namespace Sandbox

/-- The accepted module of some bytecode. -/
def accepted? (s : Sandbox) (bytecode : Bytes) : Option Module :=
  (s.accepted.find? (·.1 = bytecode)).map (·.2)

/-- The module of some bytecode, which is checked unless it has been accepted before. -/
def compile (s : Sandbox) (bytecode : Bytes) : Except Failure (Module × Sandbox) :=
  match s.accepted? bytecode with
  | some m => .ok (m, s)
  | none => (prepare s.config bytecode).map fun m =>
    (m, { s with accepted := (bytecode, m) :: s.accepted })

end Sandbox

/-- What a completed run leaves: the return code of the entry function, and the last
result handed over. -/
structure Completion where
  code : Int64
  captured : Option Bytes

/-- A sandbox and the ledger that its modules run on. -/
structure Session (σ : Type) where
  sandbox : Sandbox
  ledger : σ

namespace Session

variable {σ : Type}

/-- Runs an operation on the ledger. -/
def onLedger {α : Type} (action : EStateM LedgerError σ α) : EStateM Failure (Session σ) α :=
  fun s =>
    match action s.ledger with
    | .ok a ledger => .ok a { s with ledger }
    | .error e ledger => .error (.ledger e) { s with ledger }

/-- Runs an entry function of some bytecode. -/
def invoke [Ledger σ] (bytecode : Bytes) (entry : String) (invocation : Invocation) :
    EStateM Failure (Session σ) Completion := fun s =>
  match s.sandbox.compile bytecode with
  | .error failure => .error failure s
  | .ok (m, sandbox) =>
    let host := {
      invocation
      limits := sandbox.config.limits
      ledger := s.ledger
      log := sandbox.log }
    match Run.execute sandbox.config m entry host with
    | .ok code host =>
      .ok ⟨code, host.invocation.captured⟩ ⟨{ sandbox with log := host.log }, host.ledger⟩
    | .error failure host => .error failure ⟨{ sandbox with log := host.log }, host.ledger⟩

end Session

end LedgerSandbox
