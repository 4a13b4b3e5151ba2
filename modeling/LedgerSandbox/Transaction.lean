import LedgerSandbox.Registry
import LedgerSandbox.Response
import LedgerSandbox.Submission.Decode

/-!
# Transactions

A transaction names a function and passes arguments: modules can be installed,
executed and listed. Every transaction is answered; a failure is an answer, too.
-/

namespace LedgerSandbox

/-- What a transaction asks for. -/
inductive Command where
  | install
  | execute
  | list
deriving DecidableEq

/-- The command that a function name stands for. -/
def Command.parse (function : String) : Except Failure Command :=
  if function = "install" ∨ function = "create" then .ok .install
  else if function = "execute" then .ok .execute
  else if function = "list" ∨ function = "installedChaincodes" then .ok .list
  else .error (.invalidArguments
    s!"unknown function {Text.quoted function}, expected install, execute, or list")

namespace Session

variable {σ : Type} [Ledger σ]

/-- What a successful installation answers. -/
def installed : String := "Success! Installed wasm chaincode"

/-- An argument as a text. -/
def textArgument (argument : Bytes) (what : String) : EStateM Failure (Session σ) String :=
  match decodeUtf8? argument with
  | some text => return text
  | none => throw (.invalidArguments s!"{what} is not valid UTF-8")

/-- Installs a module: its name, the submission, and the arguments of the initializer. -/
def install : List Bytes → EStateM Failure (Session σ) Response
  | name :: submission :: args => do
    let name ← textArgument name "module name"
    match Submission.decode submission with
    | .error failure => throw failure
    | .ok bytecode =>
      Registry.install name bytecode args
      return .ofPayload (encodeUtf8 installed)
  | _ => throw (.invalidArguments "install expects a name and encoded bytecode")

/-- Executes an installed module: its name, the entry function, and its arguments. -/
def execute : List Bytes → EStateM Failure (Session σ) Response
  | name :: entry :: args => do
    let name ← textArgument name "module name"
    let entry ← textArgument entry "entry function"
    let bytecode ← Registry.lookup name
    let completion ← invoke bytecode entry { moduleName := name, args }
    return .ofRun completion.code completion.captured
  | _ => throw (.invalidArguments "execute expects a module name and an entry function")

/-- The payload that lists module names: each of them on a line. -/
def listing (names : List String) : Bytes := names.flatMap fun name => encodeUtf8 name ++ [0x0A]

/-- Lists the installed modules. -/
def list : EStateM Failure (Session σ) Response := do
  match (← Registry.list).mapM id with
  | .error failure => throw failure
  | .ok names => return .ofPayload (listing names)

/-- Runs a transaction. -/
def transact (function : String) (args : List Bytes) : EStateM Failure (Session σ) Response := do
  match Command.parse function with
  | .error failure => throw failure
  | .ok .install => install args
  | .ok .execute => execute args
  | .ok .list => list

/-- Runs a transaction and answers it. -/
def dispatch (function : String) (args : List Bytes) (s : Session σ) : Response × Session σ :=
  match transact function args s with
  | .ok response s => (response, s)
  | .error failure s => (.ofFailure failure, s)

end Session

end LedgerSandbox
