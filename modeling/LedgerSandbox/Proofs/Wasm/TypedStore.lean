import LedgerSandbox.Proofs.Wasm.Operands
import LedgerSandbox.Wasm.Store

/-!
# Stores that hold what is declared

The globals, the tables and the element segments of a store hold values of the declared types
(`Store.Typed`). The operations on a store keep this, as long as what is written is of the type
that is held already. Memory and data segments hold bytes, which have no types.
-/

namespace LedgerSandbox.Wasm

/-! ## Arrays of values -/

/-- A value takes the place of one of its type. -/
theorem map_type_setIfInBounds {values : Array Value} {index : Nat} {value : Value}
    (h : (values.map Value.type)[index]? = some value.type) :
    (values.setIfInBounds index value).map Value.type = values.map Value.type := by
  rw [Array.map_setIfInBounds]
  refine Array.ext_getElem? fun i => ?_
  rw [Array.getElem?_setIfInBounds]
  split
  case isTrue heq =>
    rw [← heq, h]
    refine if_pos ?_
    exact (Array.getElem?_eq_some_iff.mp h).1
  case isFalse => rfl

/-! ## Tables -/

/-- Whether a table only holds values of a type. -/
def Table.Holds (type : ValType) (t : Table) : Prop := ∀ value ∈ t.elements, value.type = type

namespace Table.Holds

variable {type : ValType} {t t' : Table} {index count : Nat} {value : Value} {values : List Value}

theorem get (h : t.Holds type) (heq : t.get index = .ok value) : value.type = type := by
  unfold Table.get at heq
  split at heq
  case h_1 hfound =>
    cases heq
    exact h _ (Array.mem_of_getElem? hfound)
  case h_2 => cases heq

theorem slice (h : t.Holds type) (heq : t.slice index count = .ok values) :
    ∀ v ∈ values, v.type = type := by
  unfold Table.slice at heq
  split at heq
  case isTrue =>
    cases heq
    intro v hv
    rw [Array.toList_extract, List.extract_eq_take_drop] at hv
    exact h v (Array.mem_toList_iff.mp (List.mem_of_mem_drop (List.mem_of_mem_take hv)))
  case isFalse => cases heq

theorem write (h : t.Holds type) (hvalues : ∀ v ∈ values, v.type = type)
    (heq : t.write index values = .ok t') : t'.Holds type := by
  have hkept : ∀ (acc : Array Value × Nat), (∀ v ∈ acc.1, v.type = type) →
      ∀ v ∈ (values.foldl (fun (acc : Array Value × Nat) v =>
        (acc.1.setIfInBounds acc.2 v, acc.2 + 1)) acc).1, v.type = type := by
    clear heq
    induction values with
    | nil => exact fun _ hacc => hacc
    | cons value values ih =>
      intro acc hacc
      obtain ⟨hvalue, hrest⟩ := List.forall_mem_cons.mp hvalues
      refine ih hrest _ fun v hv => ?_
      rcases Array.mem_or_eq_of_mem_setIfInBounds hv with hv | rfl
      · exact hacc v hv
      · exact hvalue
  unfold Table.write at heq
  split at heq
  case isTrue =>
    cases heq
    exact hkept _ h
  case isFalse => cases heq

theorem grow (h : t.Holds type) (hvalue : value.type = type)
    (heq : t.grow? count value = some t') : t'.Holds type := by
  unfold Table.grow? at heq
  split at heq
  case isTrue =>
    cases heq
    intro v hv
    rcases Array.mem_append.mp hv with hv | hv
    · exact h v hv
    · rw [(Array.mem_replicate.mp hv).2, hvalue]
  case isFalse => cases heq

end Table.Holds

/-! ## Stores -/

/-- Whether a store holds what is declared. -/
structure Store.Typed (c : Context) (s : Store) : Prop where
  globals : s.globals.map Value.type = c.globals.map (·.content)
  tables : ∀ (index : Nat) (t : Table) (type : TableType), s.tables[index]? = some t →
    c.tables[index]? = some type → t.Holds type.element
  elements : ∀ (index : Nat) (values : List Value) (type : ValType),
    s.elements[index]? = some values → c.elements[index]? = some type →
    ∀ value ∈ values, value.type = type

namespace Store.Typed

variable {c : Context} {s s' : Store} {index : Nat}

theorem global (h : s.Typed c) {type : GlobalType} {value : Value}
    (htype : c.globals[index]? = some type) (hvalue : s.globals[index]? = some value) :
    value.type = type.content := by
  have hsame : (s.globals.map Value.type)[index]? = (c.globals.map (·.content))[index]? :=
    congrArg (·[index]?) h.globals
  rw [Array.getElem?_map, Array.getElem?_map, htype, hvalue] at hsame
  exact Option.some.inj hsame

theorem setGlobal (h : s.Typed c) {type : GlobalType} {value : Value}
    (htype : c.globals[index]? = some type) (hvalue : value.type = type.content) :
    { s with globals := s.globals.setIfInBounds index value }.Typed c where
  globals := by
    refine (map_type_setIfInBounds ?_).trans h.globals
    rw [h.globals, Array.getElem?_map, htype, hvalue]
    rfl
  tables := h.tables
  elements := h.elements

theorem table (h : s.Typed c) {t : Table} {type : TableType}
    (htype : c.tables[index]? = some type) (ht : s.table index = .ok t) : t.Holds type.element := by
  unfold Store.table at ht
  split at ht
  case h_1 hfound =>
    cases ht
    exact h.tables index t type hfound htype
  case h_2 => cases ht

theorem setTable (h : s.Typed c) {t : Table} {type : TableType}
    (htype : c.tables[index]? = some type) (ht : t.Holds type.element) :
    (s.setTable index t).Typed c where
  globals := h.globals
  tables := by
    intro i found declared hfound hdeclared
    have hset : (s.tables.setIfInBounds index t)[i]? = some found := hfound
    rw [Array.getElem?_setIfInBounds] at hset
    split at hset
    case isTrue heq =>
      split at hset
      case isTrue =>
        cases hset
        rw [← heq, htype] at hdeclared
        cases hdeclared
        exact ht
      case isFalse => cases hset
    case isFalse => exact h.tables i found declared hset hdeclared
  elements := h.elements

/-- Values are written to a table. -/
theorem writeTable (h : s.Typed c) {t t' : Table} {type : TableType} {start : Nat}
    {values : List Value} (htype : c.tables[index]? = some type) (ht : s.table index = .ok t)
    (hvalues : ∀ v ∈ values, v.type = type.element) (hwrite : t.write start values = .ok t') :
    (s.setTable index t').Typed c :=
  h.setTable htype ((h.table htype ht).write hvalues hwrite)

/-- The values of a segment, of which none are left once it is dropped. -/
theorem segment (h : s.Typed c) {type : ValType} (htype : c.elements[index]? = some type) :
    ∀ value ∈ s.elements[index]?.getD [], value.type = type := by
  cases hvalues : s.elements[index]? with
  | none => exact fun _ hv => nomatch hv
  | some values => exact h.elements index values type hvalues htype

theorem dropSegment (h : s.Typed c) (index : Nat) :
    { s with elements := s.elements.setIfInBounds index [] }.Typed c where
  globals := h.globals
  tables := h.tables
  elements := by
    intro i values type hvalues htype
    have hset : (s.elements.setIfInBounds index [])[i]? = some values := hvalues
    rw [Array.getElem?_setIfInBounds] at hset
    split at hset
    case isTrue =>
      split at hset
      case isTrue =>
        cases hset
        exact fun _ hv => nomatch hv
      case isFalse => cases hset
    case isFalse => exact h.elements i values type hset htype

/-- Bytes do not matter. -/
theorem withBytes (h : s.Typed c) (memory : Option Memory) (data : Array ByteArray) :
    { s with memory, data }.Typed c :=
  ⟨h.globals, h.tables, h.elements⟩

theorem onMemory (h : s.Typed c) {change : Memory → Except Trap Memory}
    (heq : s.onMemory change = .ok s') : s'.Typed c := by
  obtain ⟨memory, tables, globals, elements, data⟩ := s
  unfold Store.onMemory at heq
  cases memory with
  | none => cases heq
  | some memory =>
    dsimp only at heq
    split at heq
    case h_1 => cases heq; exact h.withBytes _ _
    case h_2 => cases heq

end Store.Typed

end LedgerSandbox.Wasm
