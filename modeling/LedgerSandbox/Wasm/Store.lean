import LedgerSandbox.Config
import LedgerSandbox.Wasm.Module
import LedgerSandbox.Wasm.Trap

/-!
# Memory, tables and globals

What an instance of a module keeps while its code runs. Every access to memory or
to a table is checked as a whole before anything is written.
-/

namespace LedgerSandbox.Wasm

/-- Zero bytes. -/
def zeros (count : Nat) : ByteArray :=
  if count = 0 then .empty
  else
    let half := zeros (count / 2)
    if count % 2 = 0 then half ++ half else (half ++ half).push 0
termination_by count

/-- A linear memory. -/
structure Memory where
  data : ByteArray
  /-- The most pages that it may have. -/
  limit : Nat

namespace Memory

/-- A memory of zeros. -/
def ofPages (pages limit : Nat) : Memory := ⟨zeros (pages * pageSize), limit⟩

/-- The number of pages. -/
def pages (m : Memory) : Nat := m.data.size / pageSize

/-- The memory with pages added, if it may have so many. -/
def grow? (m : Memory) (delta : Nat) : Option Memory :=
  if m.pages + delta ≤ m.limit then some { m with data := m.data ++ zeros (delta * pageSize) }
  else none

/-- The little-endian number in the given number of bytes. -/
def wordAt (data : ByteArray) (index : Nat) : (count : Nat) → UInt64
  | 0 => 0
  | n + 1 =>
    (if h : index < data.size then data[index].toUInt64 else 0) |||
      (wordAt data (index + 1) n <<< 8)

/-- Data with the low bytes of a number at an index. -/
def setWord (data : ByteArray) (index : Nat) (word : UInt64) : (count : Nat) → ByteArray
  | 0 => data
  | n + 1 =>
    setWord (if h : index < data.size then data.set index word.toUInt8 h else data) (index + 1)
      (word >>> 8) n

/-- Data with one byte repeated from an index on. -/
def fillFrom (data : ByteArray) (index : Nat) (b : UInt8) : (count : Nat) → ByteArray
  | 0 => data
  | n + 1 =>
    fillFrom (if h : index < data.size then data.set index b h else data) (index + 1) b n

/-- Reads a number. -/
def load (m : Memory) (index count : Nat) : Except Trap UInt64 :=
  if index + count ≤ m.data.size then .ok (wordAt m.data index count)
  else .error .memoryOutOfBounds

/-- Writes a number. -/
def store (m : Memory) (index count : Nat) (word : UInt64) : Except Trap Memory :=
  match m with
  | ⟨data, limit⟩ =>
    if index + count ≤ data.size then .ok ⟨setWord data index word count, limit⟩
    else .error .memoryOutOfBounds

/-- Writes a byte repeatedly. -/
def fill (m : Memory) (index count : Nat) (b : UInt8) : Except Trap Memory :=
  match m with
  | ⟨data, limit⟩ =>
    if index + count ≤ data.size then .ok ⟨fillFrom data index b count, limit⟩
    else .error .memoryOutOfBounds

/-- Copies bytes within the memory; the ranges may overlap. -/
def move (m : Memory) (target source count : Nat) : Except Trap Memory :=
  if source + count ≤ m.data.size ∧ target + count ≤ m.data.size then
    .ok { m with data := m.data.copySlice source m.data target count }
  else .error .memoryOutOfBounds

/-- Copies bytes of a segment into the memory. -/
def init (m : Memory) (segment : ByteArray) (target source count : Nat) : Except Trap Memory :=
  if source + count ≤ segment.size ∧ target + count ≤ m.data.size then
    .ok { m with data := segment.copySlice source m.data target count }
  else .error .memoryOutOfBounds

end Memory

/-- A table of references. -/
structure Table where
  elements : Array Value
  /-- The most elements that it may have. -/
  limit : Nat

namespace Table

/-- Reads an element. -/
def get (t : Table) (index : Nat) : Except Trap Value :=
  match t.elements[index]? with
  | some value => .ok value
  | none => .error .tableOutOfBounds

/-- Writes elements from an index on. -/
def write (t : Table) (index : Nat) (values : List Value) : Except Trap Table :=
  if index + values.length ≤ t.elements.size then
    .ok { t with elements := (values.foldl
      (fun (acc : Array Value × Nat) v => (acc.1.setIfInBounds acc.2 v, acc.2 + 1))
      (t.elements, index)).1 }
  else .error .tableOutOfBounds

/-- The table with elements added, if it may have so many. -/
def grow? (t : Table) (delta : Nat) (value : Value) : Option Table :=
  if t.elements.size + delta ≤ t.limit then
    some { t with elements := t.elements ++ Array.replicate delta value }
  else none

/-- Consecutive elements. -/
def slice (t : Table) (index count : Nat) : Except Trap (List Value) :=
  if index + count ≤ t.elements.size then .ok (t.elements.extract index (index + count)).toList
  else .error .tableOutOfBounds

end Table

/-- Everything that an instance keeps while its code runs. -/
structure Store where
  memory : Option Memory := none
  tables : Array Table := #[]
  globals : Array Value := #[]
  /-- The element segments; a dropped one is empty. -/
  elements : Array (List Value) := #[]
  /-- The data segments; a dropped one is empty. -/
  data : Array ByteArray := #[]

namespace Store

/-- Applies a change to the memory. -/
def onMemory (s : Store) (change : Memory → Except Trap Memory) : Except Trap Store :=
  match s with
  | ⟨some memory, tables, globals, elements, data⟩ =>
    match change memory with
    | .ok memory => .ok ⟨some memory, tables, globals, elements, data⟩
    | .error t => .error t
  | _ => .error .stuck

/-- The table with an index. -/
def table (s : Store) (index : Nat) : Except Trap Table :=
  match s.tables[index]? with
  | some t => .ok t
  | none => .error .stuck

/-- Replaces a table. -/
def setTable (s : Store) (index : Nat) (t : Table) : Store :=
  { s with tables := s.tables.setIfInBounds index t }

end Store

end LedgerSandbox.Wasm
