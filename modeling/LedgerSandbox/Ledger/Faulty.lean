import LedgerSandbox.Ledger.Basic

/-!
# A ledger that refuses

A ledger with faults: it hands every operation to the ledger inside, except for
those that its plan tells it to refuse. A refused operation does not reach the
ledger inside.
-/

namespace LedgerSandbox

/-- Which operations are refused. -/
structure FaultPlan where
  /-- Reads of keys that start like this fail. -/
  failGet : Option Key := none
  /-- Writes to keys that start like this fail. -/
  failPut : Option Key := none
  /-- Deletes of keys that start like this fail. -/
  failDelete : Option Key := none
  /-- How many writes and deletes are let through, if they are counted. -/
  writesLeft : Option Nat := none
  /-- Whether all scans fail. -/
  failRange : Bool := false
  /-- How many entries a scan delivers before it breaks off, if it does. -/
  failAfterEntries : Option Nat := none

/-- A ledger with faults around another one. -/
structure Faulty (σ : Type) where
  /-- The ledger inside. -/
  inner : σ
  /-- The faults still to come. -/
  plan : FaultPlan

namespace Faulty

variable {σ : Type}

/-- Whether a key is among those that start with the given bytes. -/
def hits (start : Option Key) (key : Key) : Bool :=
  match start with
  | none => false
  | some start => start.isPrefixOf key

/-- Runs an operation on the ledger inside. -/
def onInner {α : Type} (action : EStateM LedgerError σ α) : EStateM LedgerError (Faulty σ) α :=
  fun ledger =>
    match action ledger.inner with
    | .ok a inner => .ok a { ledger with inner }
    | .error e inner => .error e { ledger with inner }

/-- Uses up one write, or fails if none is left. -/
def spendWrite : EStateM LedgerError (Faulty σ) Unit := do
  let ledger ← get
  match ledger.plan.writesLeft with
  | none => pure ()
  | some 0 => throw (.backend "write quota exhausted")
  | some (n + 1) => set { ledger with plan := { ledger.plan with writesLeft := some n } }

instance [Ledger σ] : Ledger (Faulty σ) where
  get key := do
    if hits (← EStateM.get).plan.failGet key then throw (.backend "injected get failure")
    onInner (Ledger.get key)
  put key value := do
    if hits (← EStateM.get).plan.failPut key then throw (.backend "injected put failure")
    spendWrite
    onInner (Ledger.put key value)
  delete key := do
    if hits (← EStateM.get).plan.failDelete key then throw (.backend "injected delete failure")
    spendWrite
    onInner (Ledger.delete key)
  range start stop := do
    let plan := (← EStateM.get).plan
    if plan.failRange then throw (.backend "injected range failure")
    let items ← onInner (Ledger.range start stop)
    match plan.failAfterEntries with
    | none => return items
    | some n => return items.take n ++ [.error (.backend "injected iterator failure")]

end Faulty

end LedgerSandbox
