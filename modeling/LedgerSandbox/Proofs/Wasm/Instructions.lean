import LedgerSandbox.Proofs.Wasm.WellTyped

/-!
# Instructions on typed operands

Instructions that do not change the flow of control leave a well-typed machine, if they do not
trap: there is one lemma for each of them, in the groups in which the machine performs them
(`Machine.keeps_onVariables`, `Machine.keeps_onMemory`, `Machine.keeps_onTables`,
`Machine.keeps_onOperands`).
-/

namespace LedgerSandbox.Wasm

open Operands (ofValues apply_none apply_one apply_two apply_three pushMany_ofValues)

variable {w : Setting} {p : Place} {m : Machine} {vs : List Value}
  {ops : Operands}

/-! ## Types of values -/

namespace Value

theorem exists_i32 {v : Value} (h : v.type = .i32) : ∃ word, v = .i32 word := by
  cases v with
  | i32 word => exact ⟨word, rfl⟩
  | _ => cases h

theorem type_ofInt (w : Width) (n : Int) : (ofInt w n).type = w.int := by
  cases w <;> rfl

theorem type_ofFloatBits (w : Width) (bits : UInt64) :
    (ofFloatBits w bits).type = w.float := by
  cases w <;> rfl

theorem type_ofWord (w : Width) (bits : UInt64) : (ofWord w bits).type = w.int := by
  cases w <;> rfl

end Value

/-- Instructions on ranges take three words: where to, where from, or what, and how much. -/
theorem apply_words (h : (ofValues vs).apply [.i32, .i32, .i32] [] = .ok ops) :
    ∃ a b c rest, vs = .i32 c :: .i32 b :: .i32 a :: rest ∧ ofValues rest = ops := by
  obtain ⟨a, b, c, rest, rfl, ha, hb, hc, hops⟩ := apply_three h
  obtain ⟨a, rfl⟩ := Value.exists_i32 ha
  obtain ⟨b, rfl⟩ := Value.exists_i32 hb
  obtain ⟨c, rfl⟩ := Value.exists_i32 hc
  exact ⟨a, b, c, rest, rfl, hops⟩

theorem Layout.type_decode (layout : Layout) (word : UInt64) :
    (layout.decode word).type = layout.type := by
  unfold decode
  dsimp only
  generalize layout.type = type
  cases type <;> rfl

theorem type_growthResult (size : Option Nat) : (growthResult size).type = .i32 := by
  cases size <;> rfl

theorem Unary.type_of_eval {op : Unary} {a v : Value} (h : op.eval a = .ok v) :
    v.type = op.target := by
  unfold eval at h
  split at h
  case isTrue => cases h
  case isFalse =>
    cases op with
    | int w op => cases w <;> (cases h; rfl)
    | truncate source target isSigned saturate =>
      obtain ⟨n, -, rfl⟩ := Except.map_eq_ok_iff.mp h
      exact Value.type_ofInt target n
    | float | convert | floatOfBits => cases h; exact Value.type_ofFloatBits _ _
    | bitsOfFloat w => cases h; exact Value.type_ofWord w _
    | eqz | wrap | extend | demote | promote => cases h; rfl

theorem Binary.type_of_eval {op : Binary} {a b v : Value} (h : op.eval a b = .ok v) :
    v.type = op.target := by
  unfold eval at h
  split at h
  case isTrue => cases h
  case isFalse =>
    cases op with
    | int w op =>
      cases w with
      | w32 | w64 =>
        obtain ⟨word, -, rfl⟩ := Except.map_eq_ok_iff.mp h
        rfl
    | intCompare w op => cases w <;> (cases h; rfl)
    | float w op => cases h; exact Value.type_ofFloatBits w _
    | floatCompare w op => cases h; rfl

/-- Only values of one type can be chosen from. -/
theorem selectType_some {t u : ValType} {found : Option ValType}
    (h : selectType (some t) (some u) = .ok found) : u = t ∧ found = some t := by
  unfold selectType at h
  dsimp only at h
  split at h
  case isTrue => cases h
  case isFalse =>
    split at h
    case isTrue hsame =>
      cases h
      exact ⟨hsame.symm, rfl⟩
    case isFalse => cases h

/-! ## Instructions that give a value -/

theorem check_const {c : Context} {value : Value}
    (h : (Instr.const value).check c (ofValues vs) = .ok ops) : ofValues (value :: vs) = ops := by
  obtain ⟨_, -, happly⟩ := Except.bind_eq_ok_iff.mp h
  cases apply_none happly
  rfl

theorem check_refNull {c : Context} {type : ValType}
    (h : (Instr.refNull type).check c (ofValues vs) = .ok ops) :
    ofValues (.default type :: vs) = ops := by
  have hdefault : Stacked [type] [.default type] := .one (Value.type_default type)
  cases apply_none h
  exact (pushMany_ofValues hdefault).symm

theorem check_refFunc {c : Context} {index : Nat}
    (h : (Instr.refFunc index).check c (ofValues vs) = .ok ops) :
    ofValues (.funcref (some index) :: vs) = ops := by
  obtain ⟨_, -, htail⟩ := Except.bind_eq_ok_iff.mp h
  split at htail
  case isTrue => cases htail
  case isFalse =>
    cases apply_none htail
    rfl

theorem check_globalGet {c : Context} {index : Nat}
    (h : (Instr.globalGet index).check c (ofValues vs) = .ok ops) :
    ∃ type, c.globals[index]? = some type ∧
      ∀ value : Value, value.type = type.content → ofValues (value :: vs) = ops := by
  obtain ⟨type, hitem, happly⟩ := Except.bind_eq_ok_iff.mp h
  cases apply_none happly
  exact ⟨type, itemAt_eq_ok_iff.mp hitem, fun value htype => (pushMany_ofValues (.one htype)).symm⟩

theorem check_binary {c : Context} {op : Binary}
    (h : (Instr.binary op).check c (ofValues vs) = .ok ops) :
    ∃ a b rest, vs = b :: a :: rest ∧ a.type = op.source ∧ b.type = op.source ∧
      ∀ value, op.eval a b = .ok value → ofValues (value :: rest) = ops := by
  obtain ⟨_, -, happly⟩ := Except.bind_eq_ok_iff.mp h
  obtain ⟨a, b, rest, rfl, ha, hb, hops⟩ := apply_two happly
  cases hops
  exact ⟨a, b, rest, rfl, ha, hb, fun value heval =>
    (pushMany_ofValues (.one (Binary.type_of_eval heval))).symm⟩

/-! ## Going on -/

/-- Whether an action leaves a well-typed machine, if it does not trap. -/
def Keeps (w : Setting) (x : Except Trap Machine) : Prop :=
  ∀ m, x = .ok m → m.Typed w

namespace Keeps

theorem ok (h : m.Typed w) : Keeps w (.ok m) := by
  rintro _ ⟨⟩
  exact h

theorem error (trap : Trap) : Keeps w (.error trap) := nofun

theorem bind {α : Type} {x : Except Trap α} {f : α → Except Trap Machine}
    (h : ∀ a, x = .ok a → Keeps w (f a)) : Keeps w (x >>= f) := by
  cases x with
  | ok a => exact h a rfl
  | error trap => exact error trap

end Keeps

namespace Machine

/-- A machine that is ready for some operands is well typed once they are there. -/
theorem Ready.typed (h : m.Ready w p (ofValues vs)) {store : Store} {locals : Array Value}
    (hstore : store.Typed w.context)
    (hlocals : locals.map Value.type = m.frame.locals.map Value.type) :
    Machine.Typed w
      { m with store, frame := { m.frame with locals, stack := vs ++ p.below } } :=
  ⟨p, vs, rfl, h.functions, hstore,
    ⟨hlocals.trans h.frame.locals, h.frame.arity, h.frame.code⟩, h.callers⟩

/-- The same where only the operands change. -/
theorem Ready.typed_withStack (h : m.Ready w p (ofValues vs)) :
    (m.withStack (vs ++ p.below)).Typed w :=
  h.typed h.store rfl

/-- The same where one value is put on those that are there. -/
theorem Ready.typed_push {type : ValType} {value : Value}
    (h : m.Ready w p ((ofValues vs).pushMany [type])) (htype : value.type = type) :
    (m.withStack (value :: vs ++ p.below)).Typed w := by
  rw [pushMany_ofValues (.one htype)] at h
  exact h.typed_withStack

/-! ## Variables -/

section

variable (hstack : m.frame.stack = vs ++ p.below) (h : m.Ready w p ops)

include h

/-- Variables hold values of the declared types. -/
theorem Ready.local_type {index : Nat} {type : ValType} {value : Value}
    (htype : p.locals[index]? = some type) (hvalue : m.frame.locals[index]? = some value) :
    value.type = type := by
  rw [← h.frame.locals, Array.getElem?_map, hvalue] at htype
  exact Option.some.inj htype

theorem Ready.map_type_setLocal {index : Nat} {value : Value}
    (htype : p.locals[index]? = some value.type) :
    (m.frame.locals.setIfInBounds index value).map Value.type = m.frame.locals.map Value.type := by
  refine map_type_setIfInBounds ?_
  rw [h.frame.locals, htype]

include hstack

theorem keeps_localGet {index : Nat}
    (hcheck : (Instr.localGet index).check (w.context.atPlace p) (ofValues vs) = .ok ops) :
    Keeps w (m.onVariables (.localGet index)) := by
  obtain ⟨type, hitem, happly⟩ := Except.bind_eq_ok_iff.mp hcheck
  cases apply_none happly
  unfold onVariables
  rw [hstack]
  dsimp only
  cases hvalue : m.frame.locals[index]? with
  | none => exact .error _
  | some value =>
    exact .ok (h.typed_push (h.local_type (itemAt_eq_ok_iff.mp hitem) hvalue))

theorem keeps_localSet {index : Nat}
    (hcheck : (Instr.localSet index).check (w.context.atPlace p) (ofValues vs) = .ok ops) :
    Keeps w (m.onVariables (.localSet index)) := by
  obtain ⟨type, hitem, happly⟩ := Except.bind_eq_ok_iff.mp hcheck
  obtain ⟨value, rest, rfl, rfl, hops⟩ := apply_one happly
  cases hops
  have hlocals := h.map_type_setLocal (itemAt_eq_ok_iff.mp hitem)
  unfold onVariables
  rw [hstack]
  exact .ok (Ready.typed h h.store hlocals)

theorem keeps_localTee {index : Nat}
    (hcheck : (Instr.localTee index).check (w.context.atPlace p) (ofValues vs) = .ok ops) :
    Keeps w (m.onVariables (.localTee index)) := by
  obtain ⟨type, hitem, happly⟩ := Except.bind_eq_ok_iff.mp hcheck
  obtain ⟨value, rest, rfl, rfl, hops⟩ := apply_one happly
  cases hops
  have hlocals := h.map_type_setLocal (itemAt_eq_ok_iff.mp hitem)
  rw [pushMany_ofValues (.one rfl)] at h
  have htyped := h.typed h.store hlocals
  rw [List.singleton_append, ← hstack] at htyped
  unfold onVariables
  rw [hstack]
  exact .ok htyped

theorem keeps_globalGet {index : Nat}
    (hcheck : (Instr.globalGet index).check (w.context.atPlace p) (ofValues vs) = .ok ops) :
    Keeps w (m.onVariables (.globalGet index)) := by
  obtain ⟨type, htype, hops⟩ := check_globalGet hcheck
  unfold onVariables
  rw [hstack]
  dsimp only
  cases hvalue : m.store.globals[index]? with
  | none => exact .error _
  | some value =>
    rw [← hops value (h.store.global htype hvalue)] at h
    exact .ok h.typed_withStack

theorem keeps_globalSet {index : Nat}
    (hcheck : (Instr.globalSet index).check (w.context.atPlace p) (ofValues vs) = .ok ops) :
    Keeps w (m.onVariables (.globalSet index)) := by
  obtain ⟨type, hitem, hcheck⟩ := Except.bind_eq_ok_iff.mp hcheck
  split at hcheck
  case isTrue => cases hcheck
  case isFalse =>
    obtain ⟨value, rest, rfl, htype, hops⟩ := apply_one hcheck
    cases hops
    have hstore := h.store.setGlobal (itemAt_eq_ok_iff.mp hitem) htype
    unfold onVariables
    rw [hstack]
    exact .ok (Ready.typed h hstore rfl)

theorem keeps_onVariables (i : Instr)
    (hcheck : i.check (w.context.atPlace p) (ofValues vs) = .ok ops) :
    Keeps w (m.onVariables i) := by
  cases i with
  | localGet index => exact keeps_localGet hstack h hcheck
  | localSet index => exact keeps_localSet hstack h hcheck
  | localTee index => exact keeps_localTee hstack h hcheck
  | globalGet index => exact keeps_globalGet hstack h hcheck
  | globalSet index => exact keeps_globalSet hstack h hcheck
  | _ => exact .error _

/-! ## Memory -/

theorem keeps_load {layout : Layout} {arg : MemArg}
    (hcheck : (Instr.load layout arg).check (w.context.atPlace p) (ofValues vs) = .ok ops) :
    Keeps w (m.onMemory (.load layout arg)) := by
  obtain ⟨_, -, happly⟩ := Except.bind_eq_ok_iff.mp hcheck
  obtain ⟨address, rest, rfl, haddress, hops⟩ := apply_one happly
  obtain ⟨address, rfl⟩ := Value.exists_i32 haddress
  cases hops
  unfold onMemory
  rw [hstack]
  dsimp only [List.cons_append]
  cases m.store.memory with
  | none => exact .error _
  | some memory =>
    exact .bind fun word _ => .ok (h.typed_push (layout.type_decode word))

theorem keeps_store {layout : Layout} {arg : MemArg}
    (hcheck : (Instr.store layout arg).check (w.context.atPlace p) (ofValues vs) = .ok ops) :
    Keeps w (m.onMemory (.store layout arg)) := by
  obtain ⟨_, -, happly⟩ := Except.bind_eq_ok_iff.mp hcheck
  obtain ⟨address, value, rest, rfl, haddress, -, hops⟩ := apply_two happly
  obtain ⟨address, rfl⟩ := Value.exists_i32 haddress
  cases hops
  unfold onMemory
  rw [hstack]
  dsimp only [List.cons_append]
  split
  case h_1 store hstore => exact .ok (Ready.typed h (h.store.onMemory hstore) rfl)
  case h_2 => exact .error _

theorem keeps_memorySize
    (hcheck : Instr.memorySize.check (w.context.atPlace p) (ofValues vs) = .ok ops) :
    Keeps w (m.onMemory .memorySize) := by
  obtain ⟨_, -, happly⟩ := Except.bind_eq_ok_iff.mp hcheck
  cases apply_none happly
  unfold onMemory
  rw [hstack]
  dsimp only
  cases m.store.memory with
  | none => exact .error _
  | some memory => exact .ok (h.typed_push rfl)

theorem keeps_memoryGrow
    (hcheck : Instr.memoryGrow.check (w.context.atPlace p) (ofValues vs) = .ok ops) :
    Keeps w (m.onMemory .memoryGrow) := by
  obtain ⟨_, -, happly⟩ := Except.bind_eq_ok_iff.mp hcheck
  obtain ⟨delta, rest, rfl, hdelta, hops⟩ := apply_one happly
  obtain ⟨delta, rfl⟩ := Value.exists_i32 hdelta
  cases hops
  unfold onMemory
  rw [hstack]
  dsimp only [List.cons_append]
  cases m.store.memory with
  | none => exact .error _
  | some memory =>
    dsimp only
    split
    · rw [pushMany_ofValues (.one (type_growthResult (some memory.pages)))] at h
      exact .ok (h.typed (h.store.withBytes _ _) rfl)
    · exact .ok (h.typed_push (type_growthResult none))

theorem keeps_memoryInit {segment : Nat}
    (hcheck : (Instr.memoryInit segment).check (w.context.atPlace p) (ofValues vs) = .ok ops) :
    Keeps w (m.onMemory (.memoryInit segment)) := by
  obtain ⟨_, -, hcheck⟩ := Except.bind_eq_ok_iff.mp hcheck
  obtain ⟨_, -, happly⟩ := Except.bind_eq_ok_iff.mp hcheck
  obtain ⟨target, source, count, rest, rfl, hops⟩ := apply_words happly
  cases hops
  unfold onMemory
  rw [hstack]
  exact .bind fun store hstore => .ok (h.typed (h.store.onMemory hstore) rfl)

theorem keeps_dataDrop {segment : Nat}
    (hcheck : (Instr.dataDrop segment).check (w.context.atPlace p) (ofValues vs) = .ok ops) :
    Keeps w (m.onMemory (.dataDrop segment)) := by
  obtain ⟨_, -, hops⟩ := Except.bind_eq_ok_iff.mp hcheck
  cases hops
  have htyped := h.typed
    (h.store.withBytes m.store.memory (m.store.data.setIfInBounds segment .empty)) rfl
  rw [← hstack] at htyped
  exact .ok htyped

theorem keeps_memoryCopy
    (hcheck : Instr.memoryCopy.check (w.context.atPlace p) (ofValues vs) = .ok ops) :
    Keeps w (m.onMemory .memoryCopy) := by
  obtain ⟨_, -, happly⟩ := Except.bind_eq_ok_iff.mp hcheck
  obtain ⟨target, source, count, rest, rfl, hops⟩ := apply_words happly
  cases hops
  unfold onMemory
  rw [hstack]
  exact .bind fun store hstore => .ok (h.typed (h.store.onMemory hstore) rfl)

theorem keeps_memoryFill
    (hcheck : Instr.memoryFill.check (w.context.atPlace p) (ofValues vs) = .ok ops) :
    Keeps w (m.onMemory .memoryFill) := by
  obtain ⟨_, -, happly⟩ := Except.bind_eq_ok_iff.mp hcheck
  obtain ⟨target, value, count, rest, rfl, hops⟩ := apply_words happly
  cases hops
  unfold onMemory
  rw [hstack]
  dsimp only [List.cons_append]
  split
  case h_1 store hstore => exact .ok (Ready.typed h (h.store.onMemory hstore) rfl)
  case h_2 => exact .error _

theorem keeps_onMemory (i : Instr)
    (hcheck : i.check (w.context.atPlace p) (ofValues vs) = .ok ops) : Keeps w (m.onMemory i) := by
  cases i with
  | load layout arg => exact keeps_load hstack h hcheck
  | store layout arg => exact keeps_store hstack h hcheck
  | memorySize => exact keeps_memorySize hstack h hcheck
  | memoryGrow => exact keeps_memoryGrow hstack h hcheck
  | memoryInit segment => exact keeps_memoryInit hstack h hcheck
  | dataDrop segment => exact keeps_dataDrop hstack h hcheck
  | memoryCopy => exact keeps_memoryCopy hstack h hcheck
  | memoryFill => exact keeps_memoryFill hstack h hcheck
  | _ => exact .error _

/-! ## Tables -/

theorem keeps_tableGet {table : Nat}
    (hcheck : (Instr.tableGet table).check (w.context.atPlace p) (ofValues vs) = .ok ops) :
    Keeps w (m.onTables (.tableGet table)) := by
  obtain ⟨type, hitem, happly⟩ := Except.bind_eq_ok_iff.mp hcheck
  obtain ⟨index, rest, rfl, hindex, hops⟩ := apply_one happly
  obtain ⟨index, rfl⟩ := Value.exists_i32 hindex
  cases hops
  unfold onTables
  rw [hstack]
  refine .bind fun t ht => .bind fun value hvalue => ?_
  exact .ok (h.typed_push ((h.store.table (itemAt_eq_ok_iff.mp hitem) ht).get hvalue))

theorem keeps_tableSet {table : Nat}
    (hcheck : (Instr.tableSet table).check (w.context.atPlace p) (ofValues vs) = .ok ops) :
    Keeps w (m.onTables (.tableSet table)) := by
  obtain ⟨type, hitem, happly⟩ := Except.bind_eq_ok_iff.mp hcheck
  obtain ⟨index, value, rest, rfl, hindex, hvalue, hops⟩ := apply_two happly
  obtain ⟨index, rfl⟩ := Value.exists_i32 hindex
  cases hops
  unfold onTables
  rw [hstack]
  refine .bind fun t ht => .bind fun t' hwrite => ?_
  have hstore := h.store.writeTable (itemAt_eq_ok_iff.mp hitem) ht
    (List.forall_mem_singleton.mpr hvalue) hwrite
  exact .ok (Ready.typed h hstore rfl)

theorem keeps_tableInit {segment table : Nat}
    (hcheck : (Instr.tableInit segment table).check (w.context.atPlace p) (ofValues vs) = .ok ops) :
    Keeps w (m.onTables (.tableInit segment table)) := by
  obtain ⟨type, hitem, hcheck⟩ := Except.bind_eq_ok_iff.mp hcheck
  obtain ⟨element, helement, hcheck⟩ := Except.bind_eq_ok_iff.mp hcheck
  split at hcheck
  case isTrue => cases hcheck
  case isFalse hsame =>
    obtain ⟨target, source, count, rest, rfl, hops⟩ := apply_words hcheck
    cases hops
    have hvalues := h.store.segment (itemAt_eq_ok_iff.mp helement)
    rw [← not_not.mp hsame] at hvalues
    unfold onTables
    rw [hstack]
    dsimp only [List.cons_append]
    split
    case isTrue => exact .error _
    case isFalse =>
      refine .bind fun t ht => .bind fun t' hwrite => ?_
      have hstore := h.store.writeTable (itemAt_eq_ok_iff.mp hitem) ht (fun v hv =>
        hvalues v (List.mem_of_mem_drop (List.mem_of_mem_take hv))) hwrite
      exact .ok (Ready.typed h hstore rfl)

theorem keeps_elemDrop {segment : Nat}
    (hcheck : (Instr.elemDrop segment).check (w.context.atPlace p) (ofValues vs) = .ok ops) :
    Keeps w (m.onTables (.elemDrop segment)) := by
  obtain ⟨_, -, hops⟩ := Except.bind_eq_ok_iff.mp hcheck
  cases hops
  have htyped := h.typed (h.store.dropSegment segment) rfl
  rw [← hstack] at htyped
  exact .ok htyped

theorem keeps_tableCopy {target source : Nat}
    (hcheck : (Instr.tableCopy target source).check (w.context.atPlace p) (ofValues vs) = .ok ops) :
    Keeps w (m.onTables (.tableCopy target source)) := by
  obtain ⟨type, hitem, hcheck⟩ := Except.bind_eq_ok_iff.mp hcheck
  obtain ⟨type', hitem', hcheck⟩ := Except.bind_eq_ok_iff.mp hcheck
  split at hcheck
  case isTrue => cases hcheck
  case isFalse hsame =>
    obtain ⟨targetIndex, sourceIndex, count, rest, rfl, hops⟩ := apply_words hcheck
    cases hops
    unfold onTables
    rw [hstack]
    refine .bind fun t ht => .bind fun values hslice => ?_
    refine .bind fun t' ht' => .bind fun t'' hwrite => ?_
    have hvalues := (h.store.table (itemAt_eq_ok_iff.mp hitem') ht).slice hslice
    rw [← not_not.mp hsame] at hvalues
    have hstore := h.store.writeTable (itemAt_eq_ok_iff.mp hitem) ht' hvalues hwrite
    exact .ok (Ready.typed h hstore rfl)

theorem keeps_tableGrow {table : Nat}
    (hcheck : (Instr.tableGrow table).check (w.context.atPlace p) (ofValues vs) = .ok ops) :
    Keeps w (m.onTables (.tableGrow table)) := by
  obtain ⟨type, hitem, happly⟩ := Except.bind_eq_ok_iff.mp hcheck
  obtain ⟨value, delta, rest, rfl, hvalue, hdelta, hops⟩ := apply_two happly
  obtain ⟨delta, rfl⟩ := Value.exists_i32 hdelta
  cases hops
  have htype := itemAt_eq_ok_iff.mp hitem
  unfold onTables
  rw [hstack]
  refine .bind fun t ht => ?_
  split
  case h_1 grown hgrow =>
    have hholds := (h.store.table htype ht).grow hvalue hgrow
    rw [pushMany_ofValues (.one (type_growthResult (some t.elements.size)))] at h
    exact .ok (h.typed (h.store.setTable htype hholds) rfl)
  case h_2 => exact .ok (h.typed_push (type_growthResult none))

theorem keeps_tableSize {table : Nat}
    (hcheck : (Instr.tableSize table).check (w.context.atPlace p) (ofValues vs) = .ok ops) :
    Keeps w (m.onTables (.tableSize table)) := by
  obtain ⟨_, -, happly⟩ := Except.bind_eq_ok_iff.mp hcheck
  cases apply_none happly
  unfold onTables
  rw [hstack]
  exact .bind fun t _ => .ok (h.typed_push rfl)

theorem keeps_tableFill {table : Nat}
    (hcheck : (Instr.tableFill table).check (w.context.atPlace p) (ofValues vs) = .ok ops) :
    Keeps w (m.onTables (.tableFill table)) := by
  obtain ⟨type, hitem, happly⟩ := Except.bind_eq_ok_iff.mp hcheck
  obtain ⟨index, value, count, rest, rfl, hindex, hvalue, hcount, hops⟩ := apply_three happly
  obtain ⟨index, rfl⟩ := Value.exists_i32 hindex
  obtain ⟨count, rfl⟩ := Value.exists_i32 hcount
  cases hops
  unfold onTables
  rw [hstack]
  refine .bind fun t ht => .bind fun t' hwrite => ?_
  have hstore := h.store.writeTable (itemAt_eq_ok_iff.mp hitem) ht (fun v hv => by
    rw [List.eq_of_mem_replicate hv, hvalue]) hwrite
  exact .ok (Ready.typed h hstore rfl)

theorem keeps_onTables (i : Instr)
    (hcheck : i.check (w.context.atPlace p) (ofValues vs) = .ok ops) : Keeps w (m.onTables i) := by
  cases i with
  | tableGet table => exact keeps_tableGet hstack h hcheck
  | tableSet table => exact keeps_tableSet hstack h hcheck
  | tableInit segment table => exact keeps_tableInit hstack h hcheck
  | elemDrop segment => exact keeps_elemDrop hstack h hcheck
  | tableCopy target source => exact keeps_tableCopy hstack h hcheck
  | tableGrow table => exact keeps_tableGrow hstack h hcheck
  | tableSize table => exact keeps_tableSize hstack h hcheck
  | tableFill table => exact keeps_tableFill hstack h hcheck
  | _ => exact .error _

/-! ## Operands -/

theorem keeps_const {value : Value}
    (hcheck : (Instr.const value).check (w.context.atPlace p) (ofValues vs) = .ok ops) :
    Keeps w (m.onOperands (.const value)) := by
  rw [← check_const hcheck] at h
  unfold onOperands
  rw [hstack]
  exact .ok h.typed_withStack

theorem keeps_unary {op : Unary}
    (hcheck : (Instr.unary op).check (w.context.atPlace p) (ofValues vs) = .ok ops) :
    Keeps w (m.onOperands (.unary op)) := by
  obtain ⟨_, -, hcheck⟩ := Except.bind_eq_ok_iff.mp hcheck
  obtain ⟨_, -, happly⟩ := Except.bind_eq_ok_iff.mp hcheck
  obtain ⟨a, rest, rfl, -, hops⟩ := apply_one happly
  cases hops
  unfold onOperands
  rw [hstack]
  dsimp only [List.cons_append]
  split
  case h_1 value heval => exact .ok (h.typed_push (Unary.type_of_eval heval))
  case h_2 => exact .error _

theorem keeps_binary {op : Binary}
    (hcheck : (Instr.binary op).check (w.context.atPlace p) (ofValues vs) = .ok ops) :
    Keeps w (m.onOperands (.binary op)) := by
  obtain ⟨a, b, rest, rfl, -, -, hops⟩ := check_binary hcheck
  unfold onOperands
  rw [hstack]
  dsimp only [List.cons_append]
  split
  case h_1 value heval =>
    rw [← hops value heval] at h
    exact .ok h.typed_withStack
  case h_2 => exact .error _

theorem keeps_drop (hcheck : Instr.drop.check (w.context.atPlace p) (ofValues vs) = .ok ops) :
    Keeps w (m.onOperands .drop) := by
  obtain ⟨⟨found, left⟩, hpop, hops⟩ := Except.bind_eq_ok_iff.mp hcheck
  obtain ⟨v, rest, rfl, -, rfl⟩ := Operands.popAny_eq_ok_iff.mp hpop
  cases hops
  unfold onOperands
  rw [hstack]
  exact .ok h.typed_withStack

theorem keeps_select (hcheck : Instr.select.check (w.context.atPlace p) (ofValues vs) = .ok ops) :
    Keeps w (m.onOperands .select) := by
  obtain ⟨_, hcondition, hoperands⟩ := Except.bind_eq_ok_iff.mp hcheck
  obtain ⟨condition, _, rfl, hword, rfl⟩ := Operands.pop_eq_ok_iff.mp hcondition
  obtain ⟨condition, rfl⟩ := Value.exists_i32 hword
  obtain ⟨⟨_, _⟩, hb, hlower⟩ := Except.bind_eq_ok_iff.mp hoperands
  obtain ⟨b, _, rfl, rfl, rfl⟩ := Operands.popAny_eq_ok_iff.mp hb
  obtain ⟨⟨_, _⟩, ha, hselect⟩ := Except.bind_eq_ok_iff.mp hlower
  obtain ⟨a, rest, rfl, rfl, rfl⟩ := Operands.popAny_eq_ok_iff.mp ha
  obtain ⟨_, htype, hops⟩ := Except.bind_eq_ok_iff.mp hselect
  obtain ⟨hsame, rfl⟩ := selectType_some htype
  cases hops
  have hchosen : (if condition ≠ 0 then a else b).type = b.type := by
    split
    · exact hsame
    · rfl
  rw [← hchosen, Operands.push_ofValues] at h
  unfold onOperands
  rw [hstack]
  exact .ok h.typed_withStack

theorem keeps_selectOf {types : List ValType}
    (hcheck : (Instr.selectOf types).check (w.context.atPlace p) (ofValues vs) = .ok ops) :
    Keeps w (m.onOperands (.selectOf types)) := by
  match types with
  | [type] =>
    obtain ⟨_, -, happly⟩ := Except.bind_eq_ok_iff.mp hcheck
    obtain ⟨a, b, condition, rest, rfl, ha, hb, hcondition, hops⟩ := apply_three happly
    obtain ⟨condition, rfl⟩ := Value.exists_i32 hcondition
    cases hops
    have hchosen : (if condition ≠ 0 then a else b).type = type := by
      split
      · exact ha
      · exact hb
    unfold onOperands
    rw [hstack]
    exact .ok (h.typed_push hchosen)
  | [] | _ :: _ :: _ => cases hcheck

theorem keeps_refNull {type : ValType}
    (hcheck : (Instr.refNull type).check (w.context.atPlace p) (ofValues vs) = .ok ops) :
    Keeps w (m.onOperands (.refNull type)) := by
  rw [← check_refNull hcheck] at h
  unfold onOperands
  rw [hstack]
  exact .ok h.typed_withStack

theorem keeps_refIsNull
    (hcheck : Instr.refIsNull.check (w.context.atPlace p) (ofValues vs) = .ok ops) :
    Keeps w (m.onOperands .refIsNull) := by
  obtain ⟨⟨_, _⟩, hpop, htail⟩ := Except.bind_eq_ok_iff.mp hcheck
  obtain ⟨value, rest, rfl, rfl, rfl⟩ := Operands.popAny_eq_ok_iff.mp hpop
  dsimp only at htail
  split at htail
  case isTrue => cases htail
  case isFalse =>
    cases htail
    have hbool : (Value.ofBool (value = .default value.type)).type = .i32 := rfl
    rw [← hbool, Operands.push_ofValues] at h
    unfold onOperands
    rw [hstack]
    exact .ok h.typed_withStack

theorem keeps_refFunc {index : Nat}
    (hcheck : (Instr.refFunc index).check (w.context.atPlace p) (ofValues vs) = .ok ops) :
    Keeps w (m.onOperands (.refFunc index)) := by
  rw [← check_refFunc hcheck] at h
  unfold onOperands
  rw [hstack]
  exact .ok h.typed_withStack

theorem keeps_nop (hcheck : Instr.nop.check (w.context.atPlace p) (ofValues vs) = .ok ops) :
    Keeps w (m.onOperands .nop) := by
  cases hcheck
  exact .ok ⟨p, vs, hstack, h⟩

theorem keeps_onOperands (i : Instr)
    (hcheck : i.check (w.context.atPlace p) (ofValues vs) = .ok ops) :
    Keeps w (m.onOperands i) := by
  cases i with
  | const value => exact keeps_const hstack h hcheck
  | unary op => exact keeps_unary hstack h hcheck
  | binary op => exact keeps_binary hstack h hcheck
  | drop => exact keeps_drop hstack h hcheck
  | select => exact keeps_select hstack h hcheck
  | selectOf types => exact keeps_selectOf hstack h hcheck
  | refNull type => exact keeps_refNull hstack h hcheck
  | refIsNull => exact keeps_refIsNull hstack h hcheck
  | refFunc index => exact keeps_refFunc hstack h hcheck
  | nop => exact keeps_nop hstack h hcheck
  | _ => exact .error _

end

end Machine

end LedgerSandbox.Wasm
