import LedgerSandbox.Proofs.Host.Linking
import LedgerSandbox.Proofs.Host.Widths
import LedgerSandbox.Proofs.Sandbox.HostCalls
import LedgerSandbox.Proofs.Wasm.Instantiation

/-!
# Runs that complete

An entry function is executed successfully iff there is a completed run of it
(`Run.execute_eq_ok_iff`). `Run.CompletedRun` holds everything that such a run comes by: the links,
the instance, what the start function leaves, and what the entry function gets and gives back,
together with the host calls of the whole run.

The calls determine what becomes of the invocation (`Run.CompletedRun.leftBy`). An entry function
that takes a parameter finds the number of arguments in it (`Run.CompletedRun.received`).
-/

namespace LedgerSandbox

/-! ## The functions of an instance -/

namespace Wasm

variable {m : Module} {index : Nat} {f : Function}

/-- A function with code begins with its arguments as its first variables. -/
theorem Machine.step_start {functions : Array Function} (store : Store) {type : FuncType}
    {args locals : List Value} {code : Code}
    (hf : functions[index]? = some (.defined type locals code))
    (hargs : args.length = type.params.length) :
    ∃ inside, (start functions store index args).step = .running inside ∧
      inside.frame.locals = (args ++ locals).toArray := by
  have hstack : (args.reverse.take type.params.length).reverse = args := by
    rw [List.take_of_length_le (by rw [List.length_reverse, hargs]), List.reverse_reverse]
  unfold start step
  simp only [exec, callIndex, hf, call, Function.type, withStack, hstack]
  rw [if_neg (by decide)]
  exact ⟨_, rfl, rfl⟩

/-- Where there is no function there is nothing to call. -/
theorem Machine.step_start_none {functions : Array Function} {store : Store} {args : List Value}
    (hf : functions[index]? = none) :
    (start functions store index args).step = .trapped .stuck := by
  unfold start step
  simp only [exec, callIndex, hf]

end Wasm

variable {σ : Type} [Ledger σ]

namespace Run

/-! ## Functions that return -/

/-- How far a run has come: the store, the steps left, the host, and the calls made of it. -/
structure Progress (σ : Type) where
  store : Wasm.Store
  steps : Nat
  host : HostState σ
  calls : List (GuestCall σ)

variable {setup : Setup} {p : Progress σ} {h h' : HostState σ} {number : Int64}

/-- Whether a function that is called with some arguments returns. -/
def Returns (setup : Setup) (p : Progress σ) (index : Nat) (args results : List Wasm.Value)
    (p' : Progress σ) : Prop :=
  Wasm.run (notingHost setup.links (showsMemory setup.module)) p.steps
      (.start setup.module.instanceFunctions p.store index args) (p.host, p.calls) =
    (.finished results p'.store p'.steps, p'.host, p'.calls)

/-- What comes of the start function of a module, if it has one. -/
inductive Started (setup : Setup) (p : Progress σ) : Progress σ → Prop
  | absent : setup.module.start = none → Started setup p p
  | returned {index : Nat} {results : List Wasm.Value} {p' : Progress σ} :
    setup.module.start = some index → Returns setup p index [] results p' → Started setup p p'

theorem callFunction_eq_ok_iff {index left : Nat} {args results : List Wasm.Value}
    {store : Wasm.Store} :
    callFunction setup p.store p.steps index args p.host = .ok (results, store, left) h' ↔
      ∃ calls, Returns setup p index args results ⟨store, left, h', calls⟩ := by
  obtain ⟨houtcome, hhost⟩ := Wasm.run_noting (host setup.links (showsMemory setup.module))
    (noted setup.links (showsMemory setup.module)) p.steps
    (.start setup.module.instanceFunctions p.store index args) p.host p.calls
  unfold callFunction Returns notingHost
  dsimp only
  generalize Wasm.run (host setup.links (showsMemory setup.module)) p.steps _ p.host = r at *
  generalize Wasm.run (Wasm.Host.noting _ _) p.steps _ (p.host, p.calls) = r' at *
  obtain ⟨outcome, k⟩ := r
  obtain ⟨_, _, calls⟩ := r'
  cases houtcome
  cases hhost
  constructor
  · intro heq
    cases outcome with
    | finished => cases heq; exact ⟨calls, rfl⟩
    | trapped | exhausted => cases heq
  · rintro ⟨_, heq⟩
    cases heq
    rfl

theorem callStart_eq_ok_iff {store store' : Wasm.Store} {left : Nat} :
    callStart setup store h = .ok (store', left) h' ↔
      ∃ calls, Started setup ⟨store, setup.allowance.steps, h, []⟩ ⟨store', left, h', calls⟩ := by
  unfold callStart
  cases hstart : setup.module.start with
  | none =>
    constructor
    · intro heq
      cases heq
      exact ⟨[], .absent hstart⟩
    · rintro ⟨_, hstarted⟩
      cases hstarted with
      | absent => rfl
      | returned hsome => cases hstart.symm.trans hsome
  | some index =>
    dsimp only
    rw [bind_eq_ok_iff]
    constructor
    · rintro ⟨_, _, hcall, heq⟩
      cases heq
      obtain ⟨calls, hreturns⟩ := callFunction_eq_ok_iff (p := ⟨store, _, h, []⟩).mp hcall
      exact ⟨calls, .returned hstart hreturns⟩
    · rintro ⟨calls, hstarted⟩
      cases hstarted with
      | absent hnone => cases hstart.symm.trans hnone
      | returned hsome hreturns =>
        cases hstart.symm.trans hsome
        exact ⟨_, _, callFunction_eq_ok_iff (p := ⟨store, _, h, []⟩).mpr ⟨calls, hreturns⟩, rfl⟩

/-! ## Completed runs -/

/-- A run of an entry function of a module that has come to its end. -/
structure CompletedRun (config : Config) (m : Wasm.Module) (entry : String) (h : HostState σ) where
  links : List Link
  linked : linkImports m.imports = .ok links
  store : Wasm.Store
  instantiated : m.instantiate (globals links) config.memoryPages config.tableSize = .ok store
  /-- What the start function has left. -/
  started : Progress σ
  start : Started ⟨m, links, config.allowance⟩ ⟨store, config.allowance.steps, h, []⟩ started
  index : Nat
  exported : m.export? entry = some (.func index)
  type : Wasm.FuncType
  declared : m.allFunctions[index]? = some type
  /-- What is passed to the entry function. -/
  args : List Wasm.Value
  passed : entryArgs type started.host.invocation.args.length = some args
  fits : isEntryResult type.results = true
  /-- What the entry function gives back. -/
  results : List Wasm.Value
  /-- What the entry function has left. -/
  final : Progress σ
  returned : Returns ⟨m, links, config.allowance⟩ started index args results final

variable {config : Config} {m : Wasm.Module} {entry : String}

/-- The return code of a run. -/
def CompletedRun.code (run : CompletedRun config m entry h) : Int64 := returnCode run.results

theorem CompletedRun.execute_eq (run : CompletedRun config m entry h) :
    execute config m entry h = .ok run.code run.final.host := by
  have hstart := callStart_eq_ok_iff.mpr ⟨_, run.start⟩
  have hcall := callFunction_eq_ok_iff.mpr ⟨_, run.returned⟩
  unfold execute
  rw [run.linked]
  dsimp only
  rw [run.instantiated]
  dsimp only
  refine bind_eq_ok_iff.mpr ⟨_, _, hstart, ?_⟩
  dsimp only
  unfold callEntry
  dsimp only
  rw [run.exported]
  dsimp only
  rw [run.declared]
  dsimp only
  refine bind_eq_ok_iff.mpr ⟨_, _, rfl, ?_⟩
  rw [run.passed, run.fits]
  exact bind_eq_ok_iff.mpr ⟨_, _, hcall, rfl⟩

/-- What there is to an entry function that was called successfully. -/
theorem exists_of_callEntry_eq_ok
    (heq : callEntry setup p.store p.steps entry p.host = .ok number h') :
    ∃ index type args results p', setup.module.export? entry = some (.func index) ∧
      setup.module.allFunctions[index]? = some type ∧
      entryArgs type p.host.invocation.args.length = some args ∧
      isEntryResult type.results = true ∧ Returns setup p index args results p' ∧
      returnCode results = number ∧ p'.host = h' := by
  unfold callEntry at heq
  have hfound : ∃ index, setup.module.export? entry = some (.func index) := by
    cases hexport : setup.module.export? entry with
    | none =>
      rw [hexport] at heq
      cases heq
    | some target =>
      rw [hexport] at heq
      cases target with
      | func index => exact ⟨index, rfl⟩
      | table | memory | global => cases heq
  obtain ⟨index, hexport⟩ := hfound
  rw [hexport] at heq
  dsimp only at heq
  cases htype : setup.module.allFunctions[index]? with
  | none =>
    rw [htype] at heq
    cases heq
  | some type =>
    rw [htype] at heq
    obtain ⟨_, _, hget, heq⟩ := bind_eq_ok_iff.mp heq
    cases hget
    cases hargs : entryArgs type p.host.invocation.args.length with
    | none =>
      rw [hargs] at heq
      cases heq
    | some args =>
      rw [hargs] at heq
      dsimp only at heq
      cases hfits : isEntryResult type.results with
      | false =>
        rw [hfits] at heq
        cases heq
      | true =>
        rw [hfits] at heq
        obtain ⟨⟨results, store, left⟩, _, hcall, heq⟩ := bind_eq_ok_iff.mp heq
        cases heq
        obtain ⟨calls, hreturns⟩ := callFunction_eq_ok_iff.mp hcall
        exact ⟨index, type, args, results, _, hexport, htype, hargs, hfits, hreturns, rfl, rfl⟩

/-- **Success is completion.** An entry function is executed successfully iff there is a completed
run of it. -/
theorem execute_eq_ok_iff :
    execute config m entry h = .ok number h' ↔
      ∃ run : CompletedRun config m entry h, run.code = number ∧ run.final.host = h' := by
  refine ⟨fun heq => ?_, ?_⟩
  case refine_2 =>
    rintro ⟨run, rfl, rfl⟩
    exact run.execute_eq
  unfold execute at heq
  cases hlinks : linkImports m.imports with
  | error fault =>
    rw [hlinks] at heq
    cases heq
  | ok links =>
    rw [hlinks] at heq
    dsimp only at heq
    cases hstore : m.instantiate (globals links) config.memoryPages config.tableSize with
    | error fault =>
      rw [hstore] at heq
      cases fault <;> cases heq
    | ok store =>
      rw [hstore] at heq
      dsimp only at heq
      obtain ⟨⟨store', left⟩, k, hstart, hentry⟩ := bind_eq_ok_iff.mp heq
      obtain ⟨calls, hstarted⟩ := callStart_eq_ok_iff.mp hstart
      obtain ⟨index, type, args, results, p', hexport, htype, hargs, hfits, hreturns, hcode,
        hhost⟩ := exists_of_callEntry_eq_ok (p := ⟨store', left, k, calls⟩) hentry
      exact ⟨⟨links, hlinks, store, hstore, _, hstarted, index, hexport, type, htype, args, hargs,
        hfits, results, p', hreturns⟩, hcode, hhost⟩

/-! ## What becomes of the invocation -/

theorem Returns.leftBy {index : Nat} {args results : List Wasm.Value} {p' : Progress σ}
    (hreturns : Returns setup p index args results p') (hleft : LeftBy h p.calls p.host) :
    LeftBy h p'.calls p'.host := by
  have hrun := leftBy_run setup.links (showsMemory setup.module) p.steps
    (.start setup.module.instanceFunctions p.store index args) hleft
  rw [hreturns] at hrun
  exact hrun

theorem Started.leftBy {p' : Progress σ} (hstarted : Started setup p p')
    (hleft : LeftBy h p.calls p.host) : LeftBy h p'.calls p'.host := by
  cases hstarted with
  | absent => exact hleft
  | returned _ hreturns => exact hreturns.leftBy hleft

/-- What the start function leaves of the invocation. -/
theorem CompletedRun.leftBy_started (run : CompletedRun config m entry h) :
    LeftBy h run.started.calls run.started.host :=
  run.start.leftBy (.refl h)

/-- **A completed run leaves the invocation as its calls do**, from the start function on. -/
theorem CompletedRun.leftBy (run : CompletedRun config m entry h) :
    LeftBy h run.final.calls run.final.host :=
  run.returned.leftBy run.leftBy_started

/-! ## What the entry function receives -/

/-- An entry function gets nothing, or a number as a value of the type that it declares. -/
theorem entryArgs_cases {type : Wasm.FuncType} {count : Nat} {args : List Wasm.Value}
    (heq : entryArgs type count = some args) :
    (type.params = [] ∧ args = []) ∨
      ∃ value number, args = [value] ∧ type.params = [value.type] ∧
        value.signed? = some number ∧ (count < 2 ^ 31 → number.toInt = count) := by
  unfold entryArgs at heq
  split at heq
  case h_1 hparams =>
    cases heq
    exact .inl ⟨hparams, rfl⟩
  case h_2 hparams =>
    cases heq
    refine .inr ⟨_, _, rfl, hparams, rfl, fun hcount => ?_⟩
    rw [Int32.toInt_toInt64]
    exact Int32.toInt_ofNat_of_lt hcount
  case h_3 hparams =>
    cases heq
    refine .inr ⟨_, _, rfl, hparams, rfl, fun hcount => ?_⟩
    exact Int64.toInt_ofNat_of_lt (Nat.lt_trans hcount (by decide))
  case h_4 => cases heq

/-- What is called successfully is there. -/
theorem Returns.exists_function {index : Nat} {args results : List Wasm.Value} {p' : Progress σ}
    (hreturns : Returns setup p index args results p') :
    ∃ f, setup.module.instanceFunctions[index]? = some f := by
  rw [← Option.isSome_iff_exists]
  by_contra hnone
  rw [Bool.not_eq_true, Option.isSome_eq_false_iff, Option.isNone_iff_eq_none] at hnone
  unfold Returns at hreturns
  cases hsteps : p.steps with
  | zero =>
    rw [hsteps, Wasm.run] at hreturns
    cases hreturns
  | succ n =>
    rw [hsteps, Wasm.run, Wasm.Machine.step_start_none hnone] at hreturns
    cases hreturns

theorem CompletedRun.length_args (run : CompletedRun config m entry h) :
    run.args.length = run.type.params.length ∧ run.args.length ≤ 1 := by
  rcases entryArgs_cases run.passed with ⟨hparams, hargs⟩ | ⟨_, _, hargs, hparams, -⟩
  · rw [hparams, hargs]
    exact ⟨rfl, Nat.zero_le 1⟩
  · rw [hparams, hargs]
    exact ⟨rfl, Nat.le_refl 1⟩

/-- The entry function has code: a function of the host's would take at least two arguments. -/
theorem CompletedRun.exists_code (run : CompletedRun config m entry h) :
    ∃ locals code, m.instanceFunctions[run.index]? = some (.defined run.type locals code) := by
  obtain ⟨f, hf⟩ := run.returned.exists_function
  have htype : run.type = f.type :=
    Option.some.inj (run.declared.symm.trans (Wasm.Module.getElem?_allFunctions hf))
  cases f with
  | defined type locals code =>
    obtain rfl : run.type = type := htype
    exact ⟨locals, code, hf⟩
  | imported slot type =>
    have hdeclared := Wasm.Module.getElem?_importedFunctions (Array.mem_of_getElem? hf)
    obtain ⟨i, hi, himport⟩ := List.mem_filterMap.mp (List.mem_of_getElem? hdeclared)
    obtain ⟨found, hserved⟩ := servable_of_linkImports run.linked i hi
    have harity : 2 ≤ run.type.params.length := by
      obtain rfl : run.type = type := htype
      cases hserved with
      | @function f _ hfits =>
        cases himport
        rw [hfits.params.arity]
        cases f <;> decide
      | constant => cases himport
    obtain ⟨hlength, hone⟩ := run.length_args
    omega

/-- **An entry function that takes a parameter receives the number of arguments**: it begins to
run with an integer in its first variable, and this is the number if it is less than
`2 ^ 31`. -/
theorem CompletedRun.received (run : CompletedRun config m entry h)
    (hparams : run.type.params ≠ []) :
    ∃ (inside : Wasm.Machine) (value : Wasm.Value) (number : Int64),
      (Wasm.Machine.start m.instanceFunctions run.started.store run.index run.args).step =
        .running inside ∧
      inside.frame.locals[0]? = some value ∧ run.type.params = [value.type] ∧
      value.signed? = some number ∧
      (h.invocation.args.length < 2 ^ 31 → number.toInt = h.invocation.args.length) := by
  obtain ⟨locals, code, hf⟩ := run.exists_code
  obtain ⟨inside, hstep, hlocals⟩ :=
    Wasm.Machine.step_start run.started.store hf run.length_args.1
  rcases entryArgs_cases run.passed with
    ⟨hnone, -⟩ | ⟨value, number, hargs, htype, hsigned, hnumber⟩
  · exact absurd hnone hparams
  · rw [run.leftBy_started.invocation] at hnumber
    refine ⟨inside, value, number, hstep, ?_, htype, hsigned, hnumber⟩
    rw [hlocals, hargs]
    rfl

end Run

end LedgerSandbox
