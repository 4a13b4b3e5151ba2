import LedgerSandbox.Failure

/-!
# Errors of host calls

Why the host refuses a call of a guest. The guest is told by the return code −1
alone; the reasons are for the host's own use.
-/

namespace LedgerSandbox

/-- Why a host call fails. -/
inductive HostError where
  /-- A range that the guest names is not within its memory. -/
  | badPointer
  /-- The guest shows no memory. -/
  | noMemory
  /-- A key of this length is too long. -/
  | keyTooLarge (length : Nat)
  /-- A value of this length is too long. -/
  | valueTooLarge (length : Nat)
  /-- A result of this length is too long. -/
  | resultTooLarge (length : Nat)
  /-- The ledger refuses. -/
  | ledger (error : LedgerError)
deriving DecidableEq

namespace HostError

/-- What an error says. -/
def message : HostError → String
  | badPointer => "guest pointer out of bounds"
  | noMemory => "guest exports no memory"
  | keyTooLarge length => s!"key of {length} bytes exceeds limit"
  | valueTooLarge length => s!"value of {length} bytes exceeds limit"
  | resultTooLarge length => s!"result of {length} bytes exceeds limit"
  | ledger error => error.message

/-- The return code by which the guest learns of an error. -/
def returnCode : HostError → Int64
  | _ => failureCode

end HostError

end LedgerSandbox
