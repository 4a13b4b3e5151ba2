import LedgerSandbox.Config
import LedgerSandbox.Host.Error
import LedgerSandbox.Text.Lossy
import LedgerSandbox.Text.Quoted

/-!
# The host's side of an invocation

An invocation runs one module with its arguments on one ledger. All keys of its
guest live in the module's namespace: the key `k` of module `m` is the ledger
key `m_k`. Since no module name holds an underscore, the namespaces of two
modules never meet, whatever bytes their keys hold.
-/

namespace LedgerSandbox

/-- What one invocation knows: which module runs, with which arguments, and the
result it has handed over so far. -/
structure Invocation where
  moduleName : String
  args : List Bytes := []
  captured : Option Bytes := none

namespace Invocation

/-- The ledger key of a guest key. -/
def namespacedKey (invocation : Invocation) (key : Key) : Key :=
  encodeUtf8 invocation.moduleName ++ 0x5F :: key

/-- A short description, which shows sizes instead of contents. -/
def describe (invocation : Invocation) : String :=
  let captured :=
    match invocation.captured with
    | none => "None"
    | some bytes => s!"Some({bytes.length})"
  "InvocationContext \x7b module_name: " ++ Text.quoted invocation.moduleName ++
  s!", args: {invocation.args.length}, captured_result: {captured}, .. \x7d"

end Invocation

/-- A message that a guest printed, with the module it came from. -/
structure LogEntry where
  moduleName : String
  text : String
deriving DecidableEq

/-- The host's side of an invocation on a ledger. -/
structure HostState (σ : Type) where
  invocation : Invocation
  limits : HostLimits
  ledger : σ
  /-- The messages printed, in order. -/
  log : Array LogEntry := #[]

namespace HostState

variable {σ : Type}

/-- Runs an operation on the ledger. -/
def onLedger {α : Type} (action : EStateM LedgerError σ α) : EStateM HostError (HostState σ) α :=
  fun state =>
    match action state.ledger with
    | .ok a ledger => .ok a { state with ledger }
    | .error e ledger => .error (.ledger e) { state with ledger }

/-- Refuses a key that is too long. -/
def checkKey (key : Key) : EStateM HostError (HostState σ) Unit := do
  if (← get).limits.maxKeyLen < key.length then throw (.keyTooLarge key.length)

/-- Logs a message, unless it is too long. -/
def print (message : Bytes) (state : HostState σ) : HostState σ :=
  if state.limits.maxPrintLen < message.length then state
  else
    let entry := ⟨state.invocation.moduleName, Text.decodeLossy message⟩
    { state with log := state.log.push entry }

/-- The positional argument with the given index. -/
def parameter? (index : Nat) (state : HostState σ) : Option Bytes :=
  state.invocation.args[index]?

/-- Hands over a result, in place of an earlier one. -/
def returnResult (result : Bytes) : EStateM HostError (HostState σ) Unit := do
  let state ← get
  if state.limits.maxResultLen < result.length then throw (.resultTooLarge result.length)
  set { state with invocation := { state.invocation with captured := some result } }

variable [Ledger σ]

/-- The value of a key of the guest. -/
def getState (key : Key) : EStateM HostError (HostState σ) (Option Value) := do
  checkKey key
  onLedger (Ledger.get ((← get).invocation.namespacedKey key))

/-- Stores a value under a key of the guest. -/
def putState (key : Key) (value : Value) : EStateM HostError (HostState σ) Unit := do
  checkKey key
  let state ← get
  if state.limits.maxValueLen < value.length then throw (.valueTooLarge value.length)
  onLedger (Ledger.put (state.invocation.namespacedKey key) value)

/-- Removes a key of the guest. -/
def deleteState (key : Key) : EStateM HostError (HostState σ) Unit := do
  checkKey key
  onLedger (Ledger.delete ((← get).invocation.namespacedKey key))

end HostState

end LedgerSandbox
