import LedgerSandbox.Ledger.Basic
import LedgerSandbox.SortedMap

/-!
# A ledger in memory

The simplest ledger: a sorted map. It refuses the empty key and nothing else.
-/

namespace LedgerSandbox

/-- A ledger that is a map in memory. -/
@[ext] structure MemoryLedger where
  /-- The entries. -/
  contents : SortedMap Value
deriving Inhabited

namespace MemoryLedger

/-- Refuses the empty key. -/
def checkKey (key : Key) : EStateM LedgerError MemoryLedger Unit :=
  if key = [] then throw (.invalidKey "empty key") else pure ()

instance : Ledger MemoryLedger where
  get key := do
    checkKey key
    return (← EStateM.get).contents.get? key
  put key value := do
    checkKey key
    modify fun ledger => ⟨ledger.contents.insert key value⟩
  delete key := do
    checkKey key
    modify fun ledger => ⟨ledger.contents.erase key⟩
  range start stop := do
    return ((← EStateM.get).contents.range start stop).map .ok

end MemoryLedger

end LedgerSandbox
