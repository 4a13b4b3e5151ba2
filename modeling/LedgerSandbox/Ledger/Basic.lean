import LedgerSandbox.Bytes

/-!
# Ledgers

The store that modules keep their state in, as its users see it: four
operations, each of which may fail. What stands behind them is up to the
instance (a map in memory, a stack of buffered layers, a store that refuses
some operations), so everything built on a ledger is built for all of them.

An operation is an action on the ledger's state. The state it leaves counts
also when it fails: a ledger is free to change in any way while it refuses.
-/

namespace LedgerSandbox

/-- A ledger key. -/
abbrev Key := Bytes

/-- What a ledger stores under a key. -/
abbrev Value := Bytes

/-- Why a ledger refuses an operation. -/
inductive LedgerError where
  /-- The key cannot be used. -/
  | invalidKey (reason : String)
  /-- The store behind the ledger failed. -/
  | backend (reason : String)
deriving DecidableEq

/-- What a refusal says. -/
def LedgerError.message : LedgerError → String
  | .invalidKey reason => s!"invalid key: {reason}"
  | .backend reason => s!"ledger backend error: {reason}"

/-- What a scan delivers, one item after the other: an entry, or the reason why
the scan went wrong at this place. -/
abbrev Scan := List (Except LedgerError (Key × Value))

/-- The entries of a scan, or the first failure in it. -/
def Scan.entries (scan : Scan) : Except LedgerError (List (Key × Value)) := scan.mapM id

/-- A key/value store with states `σ`. -/
class Ledger (σ : Type) where
  /-- The value under a key, or `none` if there is none. -/
  get : Key → EStateM LedgerError σ (Option Value)
  /-- Stores a value under a key, replacing what was there. -/
  put : Key → Value → EStateM LedgerError σ Unit
  /-- Removes a key. A key without a value may be removed, too. -/
  delete : Key → EStateM LedgerError σ Unit
  /-- The entries with `start ≤ key < stop`, in ascending key order. -/
  range : (start stop : Key) → EStateM LedgerError σ Scan

end LedgerSandbox
