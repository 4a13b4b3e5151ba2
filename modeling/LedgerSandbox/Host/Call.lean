import LedgerSandbox.Host.Function
import LedgerSandbox.Host.GuestMemory
import LedgerSandbox.Host.State

/-!
# Host calls

What happens when a guest calls the host. The arguments are integers of either
width; the answer is one integer, −1 for every failure. A failing call never
stops the guest.
-/

namespace LedgerSandbox

/-- A guest that calls the host: the memory it shows, if any, and the host's side of
its invocation. -/
structure Caller (σ : Type) where
  memory : Option ByteArray
  host : HostState σ

namespace Caller

variable {σ : Type}

/-- Copies bytes out of the guest's memory. -/
def readGuest (address length : UInt32) : EStateM HostError (Caller σ) Bytes := do
  match (← get).memory with
  | none => throw .noMemory
  | some memory =>
    match GuestMemory.read memory address length with
    | .ok bytes => return bytes
    | .error e => throw e

/-- Copies bytes into the guest's memory. -/
def writeGuest (address : UInt32) (data : Bytes) : EStateM HostError (Caller σ) Unit
  | ⟨none, host⟩ => .error .noMemory ⟨none, host⟩
  | ⟨some memory, host⟩ =>
    match GuestMemory.checkWrite memory address data with
    | .ok _ => .ok () ⟨some (GuestMemory.store memory address.toNat data), host⟩
    | .error e => .error e ⟨some memory, host⟩

/-- Runs an operation on the host's side. -/
def onHost {α : Type} (action : EStateM HostError (HostState σ) α) :
    EStateM HostError (Caller σ) α := fun caller =>
  match action caller.host with
  | .ok a host => .ok a { caller with host }
  | .error e host => .error e { caller with host }

end Caller

namespace HostFunction

variable {σ : Type} [Ledger σ]

open Caller

/-- Runs a function on its arguments. -/
def run : HostFunction → List UInt32 → EStateM HostError (Caller σ) Int64
  | .print, [address, length] => do
    let message ← readGuest address length
    modify fun caller => { caller with host := caller.host.print message }
    return 0
  | .getParameter, [index, dest] => do
    match (← get).host.parameter? index.toNat with
    | none => return failureCode
    | some arg =>
      writeGuest dest arg
      return Int64.ofNat arg.length
  | .getState, [keyAddress, keyLength, dest] => do
    let key ← readGuest keyAddress keyLength
    match ← onHost (HostState.getState key) with
    | none => return failureCode
    | some value =>
      writeGuest dest value
      return Int64.ofNat value.length
  | .putState, [keyAddress, keyLength, valueAddress, valueLength] => do
    let key ← readGuest keyAddress keyLength
    let value ← readGuest valueAddress valueLength
    onHost (HostState.putState key value)
    return 0
  | .deleteState, [keyAddress, keyLength] => do
    let key ← readGuest keyAddress keyLength
    onHost (HostState.deleteState key)
    return 0
  | .returnResult, [address, length] => do
    let result ← readGuest address length
    onHost (HostState.returnResult result)
    return 0
  | _, _ => return failureCode

/-- Calls a function with the values a guest passes. An argument that is no 32-bit
number makes the call fail. -/
def call (f : HostFunction) (args : List Wasm.Value) (caller : Caller σ) : Int64 × Caller σ :=
  match args.mapM GuestMemory.argument? with
  | none => (failureCode, caller)
  | some words =>
    match f.run words caller with
    | .ok code caller => (code, caller)
    | .error e caller => (e.returnCode, caller)

/-- The answer of a call in the result type that the guest declared, if it declared
one. -/
def encodeResult (type : Wasm.FuncType) (code : Int64) : List Wasm.Value :=
  match type.results with
  | [] => []
  | .i64 :: _ => [.i64 code.toUInt64]
  | _ :: _ => [.i32 code.toUInt64.toUInt32]

/-- Calls a function under a declared type: the values that the guest gets back, and
what has become of the caller. -/
def callAs (f : HostFunction) (type : Wasm.FuncType) (args : List Wasm.Value)
    (caller : Caller σ) : List Wasm.Value × Caller σ :=
  let (code, caller) := f.call args caller
  (encodeResult type code, caller)

end HostFunction

end LedgerSandbox
