import LedgerSandbox.Ledger.Basic
import LedgerSandbox.SortedMap

/-!
# Layers of buffered writes

A stack of overlays over a ledger. Each overlay buffers the last write or delete
of every key, and the layers below see nothing of it until it is committed.
A read takes the topmost overlay that knows the key and falls through to the
ledger otherwise; a scan merges every overlay into what the layers below it
deliver, and fails as a whole if they deliver a failure anywhere.

A commit hands the buffered changes of the top overlay to the layer below, in
ascending key order, and stops at the first one that is refused. The overlay is
empty afterwards in both cases.
-/

namespace LedgerSandbox

/-- Buffered changes: the value to be written under a key, or `none` if the key is
to be deleted. -/
abbrev Overlay := SortedMap (Option Value)

/-- A ledger under a stack of overlays. -/
@[ext] structure Layers (σ : Type) where
  /-- The ledger at the bottom. -/
  base : σ
  /-- The overlays, topmost first. -/
  overlays : List Overlay

namespace Overlay

/-- What the given overlays (topmost first) know of a key. -/
def find? (key : Key) : List Overlay → Option (Option Value)
  | [] => none
  | o :: below =>
    match o.get? key with
    | some change => some change
    | none => find? key below

/-- Applies one change to a map. -/
def applyChange (m : SortedMap Value) (key : Key) : Option Value → SortedMap Value
  | some value => m.insert key value
  | none => m.erase key

/-- The entries of a range below an overlay, with the overlay's changes in that
range applied to them. -/
def merge (o : Overlay) (start stop : Key) (below : List (Key × Value)) : SortedMap Value :=
  (o.range start stop).foldl (fun m e => applyChange m e.1 e.2) (SortedMap.ofList below)

end Overlay

namespace Layers

variable {σ : Type}

/-- A ledger with one empty overlay on it. -/
def ofBase (base : σ) : Layers σ := ⟨base, [∅]⟩

/-- Puts an empty overlay on top. -/
def stage (layers : Layers σ) : Layers σ := { layers with overlays := ∅ :: layers.overlays }

/-- Discards the top overlay with everything buffered in it. -/
def discard (layers : Layers σ) : Layers σ := { layers with overlays := layers.overlays.tail }

/-- The number of changes in each overlay, bottom first. -/
def pending (layers : Layers σ) : List Nat := (layers.overlays.map SortedMap.size).reverse

/-- Runs an operation on the ledger at the bottom. -/
def onBase {α : Type} (action : EStateM LedgerError σ α) : EStateM LedgerError (Layers σ) α :=
  fun layers =>
    match action layers.base with
    | .ok a base => .ok a { layers with base }
    | .error e base => .error e { layers with base }

/-- Runs an operation at the given layer (0 is the ledger at the bottom) as if no
overlay stood above it. -/
def atLayer {α : Type} (n : Nat) (action : EStateM LedgerError (Layers σ) α) :
    EStateM LedgerError (Layers σ) α := fun layers =>
  let above := layers.overlays.take (layers.overlays.length - n)
  let below := layers.overlays.drop (layers.overlays.length - n)
  match action ⟨layers.base, below⟩ with
  | .ok a s => .ok a ⟨s.base, above ++ s.overlays⟩
  | .error e s => .error e ⟨s.base, above ++ s.overlays⟩

variable [Ledger σ]

/-- The scan of a range through the given overlays. -/
def scanThrough (start stop : Key) : List Overlay → EStateM LedgerError σ Scan
  | [] => Ledger.range start stop
  | o :: below => do
    if stop < start then return []
    match Scan.entries (← scanThrough start stop below) with
    | .error e => throw e
    | .ok entries => return (o.merge start stop entries).entries.map .ok

/-- Buffers a change in the top overlay. -/
def buffer (key : Key) (change : Option Value) : EStateM LedgerError (Layers σ) Unit := fun layers =>
  match layers.overlays with
  | o :: below => .ok () { layers with overlays := o.insert key change :: below }
  | [] =>
    match change with
    | some value => onBase (Ledger.put key value) layers
    | none => onBase (Ledger.delete key) layers

instance : Ledger (Layers σ) where
  get key := fun layers =>
    match Overlay.find? key layers.overlays with
    | some found => .ok found layers
    | none => onBase (Ledger.get key) layers
  put key value := buffer key (some value)
  delete key := buffer key none
  range start stop := fun layers => onBase (scanThrough start stop layers.overlays) layers

/-- Hands changes to a ledger one by one, up to the first that is refused. -/
def applyAll {τ : Type} [Ledger τ] : List (Key × Option Value) → EStateM LedgerError τ Unit
  | [] => pure ()
  | (key, some value) :: rest => do Ledger.put key value; applyAll rest
  | (key, none) :: rest => do Ledger.delete key; applyAll rest

/-- Commits the top overlay to the layer below it. -/
def commit : EStateM LedgerError (Layers σ) Unit := fun layers =>
  match layers.overlays with
  | [] => .ok () layers
  | o :: below =>
    match applyAll o.entries (⟨layers.base, below⟩ : Layers σ) with
    | .ok () s => .ok () s.stage
    | .error e s => .error e s.stage

end Layers

end LedgerSandbox
