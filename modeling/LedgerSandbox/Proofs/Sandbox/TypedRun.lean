import LedgerSandbox.Proofs.Sandbox.CompletedRun
import LedgerSandbox.Proofs.Wasm.Soundness

/-!
# Runs of modules that pass the checks

What is linked fits what a module imports, and so the host answers calls with results of the
declared types (`Run.host_typed`). If the module has passed its checks, a completed run of it
gives results of the types that its entry function declares (`Run.CompletedRun.results_typed`):
none, or one integer, which is the return code (`Run.CompletedRun.standsFor`).
-/

namespace LedgerSandbox

variable {m : Wasm.Module} {allowFloats : Bool} {links : List Link}

/-- Bytecode that is accepted holds a module that has passed its checks. -/
theorem checked_of_prepare {config : Config} {bytecode : Bytes}
    (h : prepare config bytecode = .ok m) : m.Checked config.allowFloats := by
  unfold prepare at h
  split at h
  case h_1 => cases h
  case h_2 m' hvalid =>
    split at h
    case h_1 => cases h
    case h_2 =>
      cases h
      obtain ⟨decoded, -, hchecked⟩ := Except.bind_eq_ok_iff.mp hvalid
      obtain ⟨_, hvalidate, heq⟩ := Except.bind_eq_ok_iff.mp hchecked
      cases heq
      exact Wasm.Module.checked_of_validate hvalidate

namespace Run

/-! ## What is linked -/

section

variable (h : List.Forall₂ Defines m.imports links)

include h

/-- The functions that are linked are those that are imported, under the types that they are
imported with. -/
theorem functions_fit :
    List.Forall₂ (fun type e => e.2 = type ∧ e.1.Fits type) m.importedFunctions
      (functions links).toList := by
  unfold Wasm.Module.importedFunctions functions
  generalize m.imports = imports at h
  induction h with
  | nil => exact .nil
  | @cons i link imports links hlink _ ih =>
    obtain ⟨provider, type⟩ := link
    obtain ⟨hserved, rfl⟩ := hlink
    cases hserved with
    | function hfits => exact .cons ⟨rfl, hfits⟩ ih
    | constant => exact ih

/-- The globals have the types that are declared for them. -/
theorem map_type_globals :
    (globals links).map Wasm.Value.type = m.importedGlobals.map (·.content) := by
  unfold Wasm.Module.importedGlobals globals
  generalize m.imports = imports at h
  induction h with
  | nil => rfl
  | @cons i link imports links hlink _ ih =>
    obtain ⟨provider, type⟩ := link
    obtain ⟨hserved, rfl⟩ := hlink
    cases hserved with
    | function => exact ih
    | constant hcontent =>
      rcases hcontent with rfl | rfl
      · exact congrArg (List.cons _) ih
      · exact congrArg (List.cons _) ih

end

/-- Tables cannot be imported. -/
theorem allTables_eq (h : ∀ i ∈ m.imports, Servable i) : m.allTables = m.tables := by
  unfold Wasm.Module.allTables
  refine (congrArg (· ++ m.tables) ?_).trans (List.nil_append _)
  rw [List.filterMap_eq_nil_iff]
  intro i hi
  obtain ⟨found, hserved⟩ := h i hi
  cases hserved with
  | function => rfl
  | constant => rfl

variable {σ : Type} [Ledger σ]

theorem host_results {slot : Nat} {f : HostFunction} {type : Wasm.FuncType}
    (hf : (functions links)[slot]? = some (f, type)) (hfits : f.Fits type) (showsMemory : Bool)
    (args : List Wasm.Value) (memory : Option Wasm.Memory) (h : HostState σ) :
    (host links showsMemory slot args memory h).1.1.map Wasm.Value.type = type.results := by
  have htyped := HostFunction.type_encodeResult (HostFunction.fits_iff.mp hfits)
  unfold host
  dsimp only
  rw [hf]
  cases showsMemory with
  | false => exact htyped _
  | true =>
    cases memory with
    | none => exact htyped _
    | some memory =>
      obtain ⟨data, limit⟩ := memory
      unfold HostFunction.callAs
      dsimp only
      generalize f.call args ⟨some data, h⟩ = r
      obtain ⟨code, memory, k⟩ := r
      cases memory with
      | none => exact htyped code
      | some data => exact htyped code

/-- **The host answers calls with results of the declared types.** -/
theorem host_typed (h : linkImports m.imports = .ok links) :
    (notingHost links (showsMemory m) : Wasm.Host (HostState σ × _)).Typed m.instanceFunctions := by
  intro slot type himported args memory s
  have hfit := functions_fit (defines_of_linkImports h)
  obtain ⟨hslot, rfl⟩ :=
    List.getElem?_eq_some_iff.mp (Wasm.Module.getElem?_importedFunctions himported)
  have hslot' : slot < (functions links).toList.length := hfit.length_eq ▸ hslot
  obtain ⟨hsame, hfits⟩ := hfit.get hslot hslot'
  have hf : (functions links)[slot]? =
      some ((functions links).toList[slot].1, m.importedFunctions[slot]) := by
    rw [← Array.getElem?_toList, List.getElem?_eq_getElem hslot']
    exact congrArg some (Prod.ext rfl hsame)
  exact host_results hf hfits (showsMemory m) args memory s.1

/-! ## Results -/

/-- The number that the results of an entry function stand for: 0 if there are none, and otherwise
the integer. -/
inductive StandsFor : List Wasm.Value → Int64 → Prop
  | nothing : StandsFor [] 0
  | integer {value : Wasm.Value} {number : Int64} : value.signed? = some number →
    StandsFor [value] number

/-- What the code of a module that has passed its checks goes by, if its first function gives
results of the given types. -/
def setting (h : m.Checked allowFloats) (ends : List Wasm.ValType) : Wasm.Setting where
  context := m.context allowFloats
  functions := m.instanceFunctions
  typed := h.functionsTyped
  ends

variable {setup : Setup} {p p' : Progress σ}

/-- What a function returns is of the types that it declares, and it leaves a store that holds what
is declared. -/
theorem Returns.typed (h : setup.module.Checked allowFloats)
    (hlinks : linkImports setup.module.imports = .ok setup.links)
    (hstore : p.store.Typed (setup.module.context allowFloats)) {index : Nat}
    {args results : List Wasm.Value} {type : Wasm.FuncType}
    (htype : setup.module.allFunctions[index]? = some type)
    (hargs : args.map Wasm.Value.type = type.params)
    (hreturns : Returns setup p index args results p') :
    results.map Wasm.Value.type = type.results ∧
      p'.store.Typed (setup.module.context allowFloats) := by
  obtain ⟨f, hf⟩ := hreturns.exists_function
  cases htype.symm.trans (Wasm.Module.getElem?_allFunctions hf)
  have hmachine : (Wasm.Machine.start setup.module.instanceFunctions p.store index args).Typed
      (setting h f.type.results) :=
    Wasm.Machine.typed_start hstore hf hargs rfl
  exact Wasm.run_typed (host_typed hlinks) hmachine hreturns

/-- The start function takes nothing, and leaves a store that holds what is declared. -/
theorem Started.typed (h : setup.module.Checked allowFloats)
    (hlinks : linkImports setup.module.imports = .ok setup.links)
    (hstore : p.store.Typed (setup.module.context allowFloats)) (hstarted : Started setup p p') :
    p'.store.Typed (setup.module.context allowFloats) := by
  cases hstarted with
  | absent => exact hstore
  | returned hstart hreturns =>
    obtain ⟨type, htype, hparams⟩ := h.exists_start hstart
    have hargs : ([] : List Wasm.Value).map Wasm.Value.type = type.params := hparams.symm
    exact (hreturns.typed h hlinks hstore htype hargs).2

theorem length_le_one_of_isEntryResult {types : List Wasm.ValType}
    (hfits : isEntryResult types = true) : types.length ≤ 1 := by
  unfold isEntryResult at hfits
  split at hfits
  · exact Nat.zero_le 1
  · exact Nat.le_refl 1
  · exact Nat.le_refl 1
  · cases hfits

/-- Integers stand for their return codes, and so does no result. -/
theorem standsFor_returnCode {types : List Wasm.ValType} (hfits : isEntryResult types = true)
    {results : List Wasm.Value} (htypes : results.map Wasm.Value.type = types) :
    StandsFor results (returnCode results) := by
  match results with
  | [] => exact .nothing
  | [value] =>
    subst htypes
    cases value with
    | i32 word => exact .integer rfl
    | i64 word => exact .integer rfl
    | f32 | f64 | v128 | funcref | externref => cases hfits
  | first :: second :: rest =>
    have hone := length_le_one_of_isEntryResult hfits
    rw [← htypes, List.length_map] at hone
    exact absurd hone (by simp)

theorem StandsFor.returnCode_eq {results : List Wasm.Value} {number : Int64}
    (h : StandsFor results number) : returnCode results = number := by
  cases h with
  | nothing => rfl
  | @integer value _ hsigned =>
    cases value with
    | i32 | i64 => exact Option.some.inj hsigned
    | f32 | f64 | v128 | funcref | externref => cases hsigned

namespace CompletedRun

variable {config : Config} {entry : String} {h : HostState σ} {number : Int64}

theorem map_type_args (run : CompletedRun config m entry h) :
    run.args.map Wasm.Value.type = run.type.params := by
  rcases entryArgs_cases run.passed with ⟨hparams, hargs⟩ | ⟨value, _, hargs, hparams, -⟩
  · rw [hparams, hargs]
    rfl
  · rw [hparams, hargs]
    rfl

/-- **A completed run gives results of the types that its entry function declares.** -/
theorem results_typed (run : CompletedRun config m entry h) (hm : m.Checked allowFloats) :
    run.results.map Wasm.Value.type = run.type.results := by
  have hstore := hm.instantiate_typed (map_type_globals (defines_of_linkImports run.linked))
    (allTables_eq (servable_of_linkImports run.linked)) run.instantiated
  have hstarted := run.start.typed hm run.linked hstore
  exact (run.returned.typed hm run.linked hstarted run.declared run.map_type_args).1

/-- So the results stand for the return code. -/
theorem standsFor (run : CompletedRun config m entry h) (hm : m.Checked allowFloats) :
    StandsFor run.results run.code :=
  standsFor_returnCode run.fits (run.results_typed hm)

end CompletedRun

end Run

end LedgerSandbox
