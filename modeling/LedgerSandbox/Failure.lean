import LedgerSandbox.Ledger.Basic

/-!
# Failures

Why a transaction fails. Every failure has a kind, which carries a stable
numeric code for programs to act on, and a message for people.
-/

namespace LedgerSandbox

/-- The return code by which a guest, or the host towards a guest, reports failure. -/
def failureCode : Int64 := -1

/-- The category of a failure. -/
inductive FailureKind where
  | invalidArguments
  | alreadyExists
  | notFound
  | unsupportedFormat
  | multipleEntries
  | invalidBytecode
  | entryNotFound
  | initFailed
  | guestTrap
  | ledgerError
  | internal
deriving DecidableEq

namespace FailureKind

/-- The code that stands for a kind. -/
def code : FailureKind → Nat
  | invalidArguments => 100
  | alreadyExists => 101
  | notFound => 102
  | unsupportedFormat => 201
  | multipleEntries => 202
  | invalidBytecode => 203
  | entryNotFound => 204
  | initFailed => 205
  | guestTrap => 206
  | ledgerError => 301
  | internal => 500

/-- The name of a kind. -/
def name : FailureKind → String
  | invalidArguments => "InvalidArguments"
  | alreadyExists => "AlreadyExists"
  | notFound => "NotFound"
  | unsupportedFormat => "UnsupportedFormat"
  | multipleEntries => "MultipleEntries"
  | invalidBytecode => "InvalidBytecode"
  | entryNotFound => "EntryNotFound"
  | initFailed => "InitFailed"
  | guestTrap => "GuestTrap"
  | ledgerError => "LedgerError"
  | internal => "Internal"

end FailureKind

/-- Why a transaction fails. -/
inductive Failure where
  /-- The arguments of the transaction are missing or malformed. -/
  | invalidArguments (reason : String)
  /-- A module of this name is installed already. -/
  | alreadyExists (name : String)
  /-- No module of this name is installed. -/
  | notFound (name : String)
  /-- A submission is in none of the formats that can be read. -/
  | unsupportedFormat (reason : String)
  /-- An archive holds this many entries instead of one. -/
  | multipleEntries (count : Nat)
  /-- Bytecode cannot be run. -/
  | invalidBytecode (reason : String)
  /-- A module exports no function of this name. -/
  | entryNotFound (name : String)
  /-- The initializer of a module returned this code instead of 0. -/
  | initFailed (code : Int64)
  /-- A guest was stopped. -/
  | guestTrap (reason : String)
  /-- The ledger failed under the registry. -/
  | ledger (error : LedgerError)
  /-- Something that should not happen did. -/
  | internal (reason : String)
deriving DecidableEq

namespace Failure

/-- The category of a failure. -/
def kind : Failure → FailureKind
  | invalidArguments _ => .invalidArguments
  | alreadyExists _ => .alreadyExists
  | notFound _ => .notFound
  | unsupportedFormat _ => .unsupportedFormat
  | multipleEntries _ => .multipleEntries
  | invalidBytecode _ => .invalidBytecode
  | entryNotFound _ => .entryNotFound
  | initFailed _ => .initFailed
  | guestTrap _ => .guestTrap
  | ledger _ => .ledgerError
  | internal _ => .internal

/-- What a failure says. -/
def message : Failure → String
  | invalidArguments reason => s!"invalid arguments: {reason}"
  | alreadyExists name => s!"chaincode exists with same name: {name}"
  | notFound name => s!"no chaincode installed as {name}"
  | unsupportedFormat reason => s!"unsupported format: {reason}"
  | multipleEntries count => s!"archive must contain exactly one entry, found {count}"
  | invalidBytecode reason => s!"invalid bytecode: {reason}"
  | entryNotFound name => s!"entry function {name} not found"
  | initFailed code => s!"chaincode init returned {code.toInt}"
  | guestTrap reason => s!"guest trapped: {reason}"
  | ledger error => s!"ledger error: {error.message}"
  | internal reason => s!"internal error: {reason}"

end Failure

end LedgerSandbox
