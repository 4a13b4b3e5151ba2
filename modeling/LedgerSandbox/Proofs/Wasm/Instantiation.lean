import LedgerSandbox.Proofs.Wasm.Instructions
import LedgerSandbox.Wasm.Instance

/-!
# Instances of modules that pass the checks

What the checks of a module establish is what a run of its code relies on: its functions are
accepted (`Module.Checked.functionsTyped`), and the store of a new instance holds what is declared
(`Module.Checked.instantiate_typed`). The latter needs imported globals of the declared types, and
tables of the module's own.
-/

namespace LedgerSandbox.Wasm

open Operands (ofValues)

/-! ## Constant expressions -/

/-- Sums, differences and products of integers can always be formed. -/
theorem Binary.exists_eval {w : Width} {op : IntBinary} {a b : Value}
    (hop : op = .add ∨ op = .sub ∨ op = .mul) (ha : a.type = w.int) (hb : b.type = w.int) :
    ∃ value, Binary.eval (.int w op) a b = .ok value := by
  have hfits : ¬ (a.type ≠ (Binary.int w op).source ∨ b.type ≠ (Binary.int w op).source) := by
    rintro (hne | hne)
    · exact hne ha
    · exact hne hb
  unfold eval
  rw [if_neg hfits]
  rcases hop with rfl | rfl | rfl
  · cases w <;> exact ⟨_, rfl⟩
  · cases w <;> exact ⟨_, rfl⟩
  · cases w <;> exact ⟨_, rfl⟩

namespace Module

variable {m : Module} {allowFloats : Bool}

/-- Whether the first globals are the imported ones, with values of the declared types. -/
def HoldsImported (m : Module) (globals : Array Value) : Prop :=
  ∀ (index : Nat) (type : GlobalType), m.importedGlobals[index]? = some type →
    ∃ value, globals[index]? = some value ∧ value.type = type.content

/-- What constant expressions may read is imported. -/
theorem HoldsImported.get {globals : Array Value} (h : m.HoldsImported globals) {index : Nat}
    {type : GlobalType} (hconstant : m.isConstant (.globalGet index) = true)
    (htype : (m.context allowFloats).globals[index]? = some type) :
    ∃ value, globals[index]? = some value ∧ value.type = type.content := by
  obtain ⟨imported, himported⟩ : ∃ imported, m.importedGlobals[index]? = some imported := by
    cases himported : m.importedGlobals[index]? with
    | some imported => exact ⟨imported, rfl⟩
    | none =>
      rw [isConstant, himported] at hconstant
      cases hconstant
  have hall : m.allGlobals[index]? = some type := by
    rw [← htype]
    exact (List.getElem?_toArray ..).symm
  unfold allGlobals at hall
  rw [List.getElem?_append_left (List.getElem?_eq_some_iff.mp himported).1, himported] at hall
  cases hall
  exact h index _ himported

/-- The value of a constant expression has the type that the expression was checked for. -/
theorem type_constantFrom {globals : Array Value} (hglobals : m.HoldsImported globals)
    {type : ValType} {code : Code} (hconstant : ∀ i ∈ code, m.isConstant i = true)
    {stack : List Value} (h : (m.context allowFloats).Accepts (ofValues stack) code [type]) :
    (constantFrom globals code stack).type = type := by
  induction code generalizing stack with
  | nil =>
    obtain ⟨v, rest, rfl, htype, -⟩ :=
      (stacked_concat_iff []).mp (Context.stacked_of_accepts_nil h)
    exact htype
  | cons i rest ih =>
    obtain ⟨hi, hrest⟩ := List.forall_mem_cons.mp hconstant
    obtain ⟨next, hcheck, haccepts⟩ := Context.accepts_cons_iff.mp h
    cases i with
    | const value =>
      cases check_const hcheck
      exact ih hrest haccepts
    | globalGet index =>
      obtain ⟨declared, hdeclared, hnext⟩ := check_globalGet hcheck
      obtain ⟨value, hvalue, htype⟩ := hglobals.get hi hdeclared
      cases hnext value htype
      rw [constantFrom, hvalue]
      exact ih hrest haccepts
    | refNull t =>
      cases check_refNull hcheck
      exact ih hrest haccepts
    | refFunc index =>
      cases check_refFunc hcheck
      exact ih hrest haccepts
    | binary op =>
      obtain ⟨a, b, below, rfl, ha, hb, hnext⟩ := check_binary hcheck
      cases op with
      | int w op =>
        have hop : op = .add ∨ op = .sub ∨ op = .mul := by
          simpa [isConstant, or_assoc] using hi
        obtain ⟨value, heval⟩ := Binary.exists_eval hop ha hb
        cases hnext value heval
        rw [constantFrom, heval]
        exact ih hrest haccepts
      | _ => cases hi
    | _ => cases hi

theorem type_constant {globals : Array Value} (hglobals : m.HoldsImported globals) {type : ValType}
    {code : Code} (h : m.checkConstant (m.context allowFloats) type code = .ok ()) :
    (constant globals code).type = type := by
  unfold checkConstant at h
  split at h
  case isTrue => cases h
  case isFalse hall =>
    rw [Bool.not_eq_true', Bool.not_eq_false, List.all_eq_true] at hall
    obtain ⟨left, hcheck, hfinish⟩ := Except.bind_eq_ok_iff.mp h
    exact type_constantFrom hglobals hall ⟨left, hcheck, hfinish⟩

/-! ## What the checks establish -/

/-- What has been checked of a module that its instances rely on. -/
structure Checked (m : Module) (allowFloats : Bool) : Prop where
  globals : ∀ g ∈ m.globals,
    m.checkConstant (m.context allowFloats) g.type.content g.init = .ok ()
  elements : ∀ segment ∈ m.elements, m.checkElements (m.context allowFloats) segment = .ok ()
  start : ∀ index ∈ m.start, checkStart (m.context allowFloats) index = .ok ()
  bodies : ∀ e ∈ m.functions.toList.zip m.bodies,
    checkBody (m.context allowFloats) e.1 e.2 = .ok ()

theorem checked_of_validate (h : m.validate allowFloats = .ok ()) : m.Checked allowFloats := by
  unfold validate at h
  obtain ⟨_, -, htail⟩ := Except.bind_eq_ok_iff.mp h
  obtain ⟨_, -, htail⟩ := Except.bind_eq_ok_iff.mp htail
  obtain ⟨_, -, htail⟩ := Except.bind_eq_ok_iff.mp htail
  by_cases hlimits : 1 < m.allMemories.length ∨ maxTables < m.allTables.length
  · rw [if_pos hlimits] at htail
    cases htail
  rw [if_neg hlimits] at htail
  obtain ⟨_, -, htail⟩ := Except.bind_eq_ok_iff.mp htail
  obtain ⟨_, hglobals, htail⟩ := Except.bind_eq_ok_iff.mp htail
  obtain ⟨_, -, htail⟩ := Except.bind_eq_ok_iff.mp htail
  by_cases hnames : (!(m.exports.map (·.name)).Nodup) = true
  · rw [if_pos hnames] at htail
    cases htail
  rw [if_neg hnames] at htail
  obtain ⟨_, hstart, htail⟩ := Except.bind_eq_ok_iff.mp htail
  obtain ⟨_, helements, htail⟩ := Except.bind_eq_ok_iff.mp htail
  obtain ⟨_, -, hbodies⟩ := Except.bind_eq_ok_iff.mp htail
  constructor
  case globals => exact Except.forM_eq_ok_iff.mp hglobals
  case elements => exact Except.forM_eq_ok_iff.mp helements
  case start =>
    intro index hindex
    rw [Option.mem_def.mp hindex] at hstart
    exact hstart
  case bodies => exact Except.forM_eq_ok_iff.mp hbodies

/-! ## Functions -/

theorem getElem?_instanceFunctions (m : Module) (index : Nat) :
    m.instanceFunctions[index]? =
      if index < m.importedFunctions.length then
        m.importedFunctions[index]?.map (Function.imported index)
      else
        ((m.functions.toList.zip m.bodies)[index - m.importedFunctions.length]?).map
          fun (type, body) => Function.defined type (body.locals.map Value.default) body.code := by
  unfold instanceFunctions
  dsimp only
  rw [List.getElem?_toArray, List.getElem?_append, List.length_mapIdx, List.getElem?_mapIdx,
    List.getElem?_map]

/-- A function of an instance has the type that is declared for it. -/
theorem getElem?_allFunctions {index : Nat} {f : Function}
    (h : m.instanceFunctions[index]? = some f) :
    m.allFunctions[index]? = some f.type := by
  rw [getElem?_instanceFunctions] at h
  unfold allFunctions
  rw [List.getElem?_append]
  split at h
  case isTrue himported =>
    obtain ⟨type, htype, rfl⟩ := Option.map_eq_some_iff.mp h
    rw [if_pos himported, htype]
    rfl
  case isFalse hdefined =>
    obtain ⟨⟨type, body⟩, hzip, rfl⟩ := Option.map_eq_some_iff.mp h
    rw [if_neg hdefined, (List.getElem?_zip_eq_some.mp hzip).1]
    rfl

/-- Functions without code are imported, each in its place. -/
theorem getElem?_importedFunctions {slot : Nat} {type : FuncType}
    (h : .imported slot type ∈ m.instanceFunctions) : m.importedFunctions[slot]? = some type := by
  obtain ⟨index, hindex⟩ := Array.mem_iff_getElem?.mp h
  rw [getElem?_instanceFunctions] at hindex
  split at hindex
  case isTrue =>
    obtain ⟨type', htype, heq⟩ := Option.map_eq_some_iff.mp hindex
    cases heq
    exact htype
  case isFalse =>
    obtain ⟨_, _, heq⟩ := Option.map_eq_some_iff.mp hindex
    cases heq

namespace Checked

/-- The functions of an instance are as they are declared, and their code has been accepted. -/
theorem functionsTyped (h : m.Checked allowFloats) :
    FunctionsTyped (m.context allowFloats) m.instanceFunctions where
  declared index f hf := by
    show m.allFunctions.toArray[index]? = some f.type
    rw [List.getElem?_toArray, getElem?_allFunctions hf]
  typed f hf := by
    obtain ⟨index, hindex⟩ := Array.mem_iff_getElem?.mp hf
    rw [getElem?_instanceFunctions] at hindex
    split at hindex
    case isTrue =>
      obtain ⟨type, -, rfl⟩ := Option.map_eq_some_iff.mp hindex
      exact .imported index type
    case isFalse =>
      obtain ⟨⟨type, body⟩, hzip, rfl⟩ := Option.map_eq_some_iff.mp hindex
      obtain ⟨_, -, hbody⟩ := Except.bind_eq_ok_iff.mp (h.bodies _ (List.mem_of_getElem? hzip))
      obtain ⟨left, hcode, hfinish⟩ := Except.bind_eq_ok_iff.mp hbody
      have hlocals : (body.locals.map Value.default).map Value.type = body.locals := by
        rw [List.map_map]
        exact (List.map_congr_left fun t _ => Value.type_default t).trans (List.map_id _)
      refine .defined ?_
      rw [hlocals]
      exact ⟨left, hcode, hfinish⟩

/-- A start function takes nothing. -/
theorem exists_start (h : m.Checked allowFloats) {index : Nat} (hstart : m.start = some index) :
    ∃ type, m.allFunctions[index]? = some type ∧ type.params = [] := by
  obtain ⟨type, hitem, hempty⟩ := Except.bind_eq_ok_iff.mp (h.start index hstart)
  have htype : m.allFunctions.toArray[index]? = some type := itemAt_eq_ok_iff.mp hitem
  rw [List.getElem?_toArray] at htype
  refine ⟨type, htype, ?_⟩
  split at hempty
  case isTrue hboth =>
    rw [Bool.and_eq_true, List.isEmpty_iff] at hboth
    exact hboth.1
  case isFalse => cases hempty

end Checked

/-! ## The store of a new instance -/

theorem holdsImported_of_map {globals : Array Value} {rest : List ValType}
    (h : globals.toList.map Value.type = m.importedGlobals.map (·.content) ++ rest) :
    m.HoldsImported globals := by
  intro index type himported
  have htype : (globals.toList.map Value.type)[index]? = some type.content := by
    rw [h, List.getElem?_append_left, List.getElem?_map, himported]
    · rfl
    · rw [List.length_map]
      exact (List.getElem?_eq_some_iff.mp himported).1
  rw [List.getElem?_map] at htype
  obtain ⟨value, hvalue, htype⟩ := Option.map_eq_some_iff.mp htype
  exact ⟨value, by rw [← Array.getElem?_toList, hvalue], htype⟩

theorem holdsImported_of_typed {s : Store} (h : s.Typed (m.context allowFloats)) :
    m.HoldsImported s.globals := by
  have hglobals : s.globals.toList.map Value.type =
      m.importedGlobals.map (·.content) ++ (m.globals.map (·.type)).map (·.content) := by
    rw [← Array.toList_map, h.globals, Array.toList_map, ← List.map_append]
    rfl
  exact holdsImported_of_map hglobals

/-- Globals are made one after the other, each from the imported ones. -/
theorem map_type_globals (globals : List Global)
    (h : ∀ g ∈ globals, m.checkConstant (m.context allowFloats) g.type.content g.init = .ok ())
    {values : Array Value} {rest : List ValType}
    (hvalues : values.toList.map Value.type = m.importedGlobals.map (·.content) ++ rest) :
    (globals.foldl (fun (values : Array Value) global =>
        values.push (constant values global.init)) values).toList.map Value.type =
      m.importedGlobals.map (·.content) ++ rest ++ globals.map (·.type.content) := by
  induction globals generalizing values rest with
  | nil => rw [List.foldl_nil, hvalues, List.map_nil, List.append_nil]
  | cons g globals ih =>
    obtain ⟨hg, hglobals⟩ := List.forall_mem_cons.mp h
    have htype := type_constant (holdsImported_of_map hvalues) hg
    have hpushed : (values.push (constant values g.init)).toList.map Value.type =
        m.importedGlobals.map (·.content) ++ (rest ++ [g.type.content]) := by
      rw [Array.toList_push, List.map_append, hvalues, List.map_singleton, htype, List.append_assoc]
    rw [List.foldl_cons, ih hglobals hpushed, List.map_cons]
    simp only [List.append_assoc, List.singleton_append]

theorem copyData_typed {c : Context} {segment : DataSegment} {s s' : Store} (hs : s.Typed c)
    (heq : copyData s segment = .ok s') : s'.Typed c := by
  unfold copyData at heq
  split at heq
  case h_1 => exact hs.onMemory heq
  case h_2 =>
    cases heq
    exact hs

namespace Checked

variable {imported : List Value} {pages size : Nat}

/-- The items of a segment are of the type that the segment declares. -/
theorem type_items (h : m.Checked allowFloats) {segment : ElementSegment}
    (hsegment : segment ∈ m.elements) {globals : Array Value} (hglobals : m.HoldsImported globals) :
    ∀ value ∈ segment.items.map (constant globals), value.type = segment.type := by
  intro value hvalue
  obtain ⟨item, hitem, rfl⟩ := List.mem_map.mp hvalue
  obtain ⟨_, -, hitems⟩ := Except.bind_eq_ok_iff.mp (h.elements segment hsegment)
  exact type_constant hglobals (Except.forM_eq_ok_iff.mp hitems _ hitem)

theorem freshStore_typed (h : m.Checked allowFloats)
    (himported : imported.map Value.type = m.importedGlobals.map (·.content))
    (htables : m.allTables = m.tables) :
    (m.freshStore imported pages size).Typed (m.context allowFloats) := by
  have hvalues : imported.toArray.toList.map Value.type =
      m.importedGlobals.map (·.content) ++ [] := by
    rw [himported, List.append_nil]
  have hglobals := map_type_globals m.globals h.globals hvalues
  rw [List.append_nil] at hglobals
  constructor
  case globals =>
    refine Array.ext' ?_
    rw [Array.toList_map, Array.toList_map]
    refine hglobals.trans ?_
    show _ = (m.importedGlobals ++ m.globals.map (·.type)).map (·.content)
    rw [List.map_append, List.map_map]
    rfl
  case tables =>
    intro index t type ht htype
    have hdeclared : m.tables[index]? = some type := by
      rw [← htables, ← htype]
      exact (List.getElem?_toArray ..).symm
    unfold freshStore at ht
    dsimp only at ht
    rw [List.getElem?_toArray, List.getElem?_map, hdeclared] at ht
    cases ht
    intro value hvalue
    rw [(Array.mem_replicate.mp hvalue).2, Value.type_default]
  case elements =>
    intro index values type hitems htype
    unfold freshStore at hitems
    dsimp only at hitems
    rw [List.getElem?_toArray, List.getElem?_map] at hitems
    obtain ⟨segment, hsegment, rfl⟩ := Option.map_eq_some_iff.mp hitems
    have hdeclared : segment.type = type := by
      unfold context at htype
      dsimp only at htype
      rw [List.getElem?_toArray, List.getElem?_map, hsegment] at htype
      exact Option.some.inj htype
    split
    · rw [← hdeclared]
      exact h.type_items (List.mem_of_getElem? hsegment) (holdsImported_of_map hglobals)
    · exact fun _ hvalue => nomatch hvalue

/-- Copying a segment into a table keeps what the store holds. -/
theorem copyElements_typed (h : m.Checked allowFloats) {segment : ElementSegment}
    (hsegment : segment ∈ m.elements) {s s' : Store} (hs : s.Typed (m.context allowFloats))
    (heq : copyElements s segment = .ok s') : s'.Typed (m.context allowFloats) := by
  have hitems := h.type_items hsegment (holdsImported_of_typed hs)
  obtain ⟨_, hoffset, -⟩ := Except.bind_eq_ok_iff.mp (h.elements segment hsegment)
  unfold copyElements at heq
  unfold checkOffset at hoffset
  split at heq
  case h_1 index offset hmode =>
    rw [hmode] at hoffset
    obtain ⟨_, hindex, -⟩ := Except.bind_eq_ok_iff.mp hoffset
    obtain ⟨type, hitem, hsame⟩ := Except.bind_eq_ok_iff.mp hindex
    split at hsame
    case isTrue => cases hsame
    case isFalse helement =>
      have htype := itemAt_eq_ok_iff.mp hitem
      rw [← not_not.mp helement] at hitems
      obtain ⟨t, ht, heq⟩ := Except.bind_eq_ok_iff.mp heq
      obtain ⟨t', hwrite, heq⟩ := Except.bind_eq_ok_iff.mp heq
      cases heq
      exact hs.writeTable htype ht hitems hwrite
  case h_2 =>
    cases heq
    exact hs

/-- **The store of a new instance holds what is declared.** -/
theorem instantiate_typed (h : m.Checked allowFloats) {store : Store}
    (himported : imported.map Value.type = m.importedGlobals.map (·.content))
    (htables : m.allTables = m.tables) (heq : m.instantiate imported pages size = .ok store) :
    store.Typed (m.context allowFloats) := by
  unfold instantiate at heq
  split at heq
  case isTrue => cases heq
  case isFalse =>
    have hfilled : (m.elements.foldlM copyElements (m.freshStore imported pages size) >>=
        m.data.foldlM copyData) = .ok store := by
      generalize (m.elements.foldlM copyElements (m.freshStore imported pages size) >>=
        m.data.foldlM copyData) = filled at heq
      cases filled with
      | ok filled => exact congrArg _ (Except.ok.inj heq)
      | error trap => cases heq
    obtain ⟨s, helements, hdata⟩ := Except.bind_eq_ok_iff.mp hfilled
    have hs : s.Typed (m.context allowFloats) :=
      Except.foldlM_keeps (fun _ _ _ hsegment => h.copyElements_typed hsegment) helements
        (h.freshStore_typed himported htables)
    exact Except.foldlM_keeps (fun _ _ _ _ => copyData_typed) hdata hs

end Checked

end Module

end LedgerSandbox.Wasm
