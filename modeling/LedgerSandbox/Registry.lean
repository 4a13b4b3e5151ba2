import LedgerSandbox.Ledger.CompositeKey
import LedgerSandbox.Ledger.Layers
import LedgerSandbox.ModuleName
import LedgerSandbox.Sandbox

/-!
# The registry of modules

Installed modules are records on the ledger: the bytecode, under a composite key of
the module's name. An installation first runs the initializer of the module on an
overlay. Only if that returns 0 are its writes committed, and the record comes last.
-/

namespace LedgerSandbox.Registry

variable {σ : Type} [Ledger σ]

/-- The index label of module records. -/
def recordIndex : String := "moduleData"

/-- The ledger key of a module's record. -/
def recordKey (name : String) : Except LedgerError Key := CompositeKey.create recordIndex [name]

/-- The ledger key of a module's record, as a step of a transaction. -/
def findKey (name : String) : EStateM Failure (Session σ) Key :=
  match recordKey name with
  | .ok key => return key
  | .error e => throw (.ledger e)

/-- Runs an action on a fresh overlay over the ledger, which is discarded in the end. -/
def onOverlay {α : Type} (action : EStateM Failure (Session (Layers σ)) α) :
    EStateM Failure (Session σ) α := fun s =>
  match action ⟨s.sandbox, .ofBase s.ledger⟩ with
  | .ok a t => .ok a ⟨t.sandbox, t.ledger.base⟩
  | .error e t => .error e ⟨t.sandbox, t.ledger.base⟩

/-- Runs the initializer of a module on buffered writes and commits them if it
returns 0. -/
def runInitializer (name : String) (bytecode : Bytes) (args : List Bytes) :
    EStateM Failure (Session (Layers σ)) Unit := do
  let entry := (← get).sandbox.config.initEntry
  let completion ← Session.invoke bytecode entry { moduleName := name, args }
  if completion.code ≠ 0 then throw (.initFailed completion.code)
  Session.onLedger Layers.commit

/-- Installs a module under a name that is not taken. -/
def install (name : String) (bytecode : Bytes) (args : List Bytes) :
    EStateM Failure (Session σ) Unit := do
  match ModuleName.validate name with
  | .error failure => throw failure
  | .ok _ =>
    let key ← findKey name
    if (← Session.onLedger (Ledger.get key)).isSome then throw (.alreadyExists name)
    onOverlay (runInitializer name bytecode args)
    -- The record comes last: it is there only if all writes of the initializer are.
    Session.onLedger (Ledger.put key bytecode)

/-- The bytecode of an installed module. A name that cannot be installed is not found. -/
def lookup (name : String) : EStateM Failure (Session σ) Bytes := do
  match ModuleName.validate name with
  | .error _ => throw (.notFound name)
  | .ok _ =>
    let key ← findKey name
    match ← Session.onLedger (Ledger.get key) with
    | some bytecode => return bytecode
    | none => throw (.notFound name)

/-- The module name in an item of a scan of records. -/
def nameOfRecord : Except LedgerError (Key × Value) → Except Failure String
  | .error e => .error (.ledger e)
  | .ok (key, _) =>
    match CompositeKey.split key with
    | .error e => .error (.ledger e)
    | .ok (_, name :: _) => .ok name
    | .ok (_, []) => .error (.internal "module record key has no name")

/-- The names of the installed modules in the order of their keys; what is wrong with an
item of the scan stands in its place. -/
def list : EStateM Failure (Session σ) (List (Except Failure String)) := do
  return (← Session.onLedger (CompositeKey.scan recordIndex [])).map nameOfRecord

end LedgerSandbox.Registry
