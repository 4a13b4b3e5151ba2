import LedgerSandbox.Proofs.Host.FailedCall

/-!
# What a module can import

The host serves an import if it offers something of this name, and if that can be what the module
declares it to be (`ServedBy`). Every other import has exactly one fault (`Offends`), which names
the import and is what is reported of it.

So the outcome for one import is settled: `resolveImport_eq_ok_iff` and
`resolveImport_eq_error_iff`.
-/

namespace LedgerSandbox

theorem Wasm.ValType.isInteger_iff {t : ValType} : t.isInteger ↔ t = .i32 ∨ t = .i64 := by
  cases t <;> simp [isInteger]

/-! ## Types of functions -/

namespace HostFunction

/-- Whether a function can be declared with some parameters: with as many as it has, all of them
integers. -/
structure Takes (f : HostFunction) (params : List Wasm.ValType) : Prop where
  arity : params.length = f.arity
  integers : ∀ t ∈ params, t = .i32 ∨ t = .i64

/-- Whether a function can be declared with some results: with none, or with an integer. -/
structure Gives (results : List Wasm.ValType) : Prop where
  atMostOne : results.length ≤ 1
  integers : ∀ t ∈ results, t = .i32 ∨ t = .i64

/-- Whether a function can be declared with a type. -/
structure Fits (f : HostFunction) (type : Wasm.FuncType) : Prop where
  params : f.Takes type.params
  results : Gives type.results

variable {f : HostFunction} {type : Wasm.FuncType}

theorem fits_iff : f.Fits type ↔ f.checkType type = .ok () := by
  rw [checkType_eq_ok_iff]
  simp only [Wasm.ValType.isInteger_iff]
  exact ⟨fun h => ⟨⟨h.params.arity, h.params.integers⟩, h.results.atMostOne, h.results.integers⟩,
    fun h => ⟨⟨h.1.1, h.1.2⟩, h.2.1, h.2.2⟩⟩

theorem checkType_wrongParams (h : ¬ f.Takes type.params) :
    f.checkType type = .error (.wrongParams f.field f.arity type.params.length) := by
  unfold checkType
  refine if_pos ?_
  by_contra hfits
  simp only [Bool.or_eq_true, decide_eq_true_eq, Bool.not_eq_true', not_or, Decidable.not_not,
    Bool.not_eq_false, List.all_eq_true, Wasm.ValType.isInteger_iff] at hfits
  exact h ⟨hfits.1, hfits.2⟩

theorem checkType_wrongResults (hparams : f.Takes type.params) (h : ¬ Gives type.results) :
    f.checkType type = .error (.wrongResults f.field type.results.length) := by
  have hintegers : type.params.all (·.isInteger) = true := by
    simp only [List.all_eq_true, Wasm.ValType.isInteger_iff]
    exact hparams.integers
  unfold checkType
  rw [if_neg (by simp [hparams.arity, hintegers])]
  refine if_pos ?_
  by_contra hfits
  simp only [Bool.or_eq_true, decide_eq_true_eq, Bool.not_eq_true', not_or, Nat.not_lt,
    Bool.not_eq_false, List.all_eq_true, Wasm.ValType.isInteger_iff] at hfits
  exact h ⟨hfits.1, hfits.2⟩

end HostFunction

/-! ## One import -/

/-- Whether an import can be served, and by what. -/
inductive ServedBy : Wasm.Import → HostImport → Prop
  /-- A function, under a type that it can be declared with. -/
  | function {f : HostFunction} {type : Wasm.FuncType} : f.Fits type →
    ServedBy ⟨hostModule, f.field, .func type⟩ (.function f)
  /-- The constant, as an integer that cannot be changed. -/
  | constant {content : Wasm.ValType} : content = .i32 ∨ content = .i64 →
    ServedBy ⟨hostModule, HostImport.constantVariable.field, .global ⟨content, false⟩⟩
      .constantVariable

/-- What is wrong with an import that cannot be served. -/
inductive Offends : Wasm.Import → ImportFault → Prop
  /-- The host offers nothing of this name. -/
  | unknown {i : Wasm.Import} :
    (∀ found : HostImport, ¬ (i.moduleName = hostModule ∧ i.field = found.field)) →
    Offends i (.unknown i.moduleName i.field)
  | params {f : HostFunction} {type : Wasm.FuncType} : ¬ f.Takes type.params →
    Offends ⟨hostModule, f.field, .func type⟩
      (.wrongParams f.field f.arity type.params.length)
  /-- The results only count if the parameters are right. -/
  | results {f : HostFunction} {type : Wasm.FuncType} : f.Takes type.params →
    ¬ HostFunction.Gives type.results →
    Offends ⟨hostModule, f.field, .func type⟩ (.wrongResults f.field type.results.length)
  | constant {type : Wasm.GlobalType} :
    ¬ ((type.content = .i32 ∨ type.content = .i64) ∧ type.isMutable = false) →
    Offends ⟨hostModule, HostImport.constantVariable.field, .global type⟩
      (.wrongGlobal HostImport.constantVariable.field)
  /-- A function is declared as something else. -/
  | functionKind {f : HostFunction} {type : Wasm.ExternType} : (∀ t, type ≠ .func t) →
    Offends ⟨hostModule, f.field, type⟩ (.wrongKind f.field)
  /-- The constant is declared as something else. -/
  | constantKind {type : Wasm.ExternType} : (∀ t, type ≠ .global t) →
    Offends ⟨hostModule, HostImport.constantVariable.field, type⟩
      (.wrongKind HostImport.constantVariable.field)

/-- The names of what the host offers are told apart. -/
theorem resolve_field (found : HostImport) : resolve hostModule found.field = .ok found := by
  cases found with
  | function f => cases f <;> rfl
  | constantVariable => rfl

theorem resolve_unknown {moduleName field : String}
    (h : ∀ found : HostImport, ¬ (moduleName = hostModule ∧ field = found.field)) :
    resolve moduleName field = .error (.unknown moduleName field) := by
  unfold resolve
  by_cases hmodule : moduleName = hostModule
  · have hnone : HostImport.all.find? (·.field = field) = none := by
      rw [List.find?_eq_none]
      intro found _ hfield
      exact h found ⟨hmodule, (of_decide_eq_true hfield).symm⟩
    rw [if_pos hmodule, hnone]
    rfl
  · rw [if_neg hmodule]
    rfl

variable {i : Wasm.Import} {found : HostImport} {fault : ImportFault}

theorem ServedBy.resolveImport_eq (h : ServedBy i found) : resolveImport i = .ok found := by
  cases h with
  | @function f type hfits =>
    have hresolve : resolve hostModule f.field = .ok (.function f) := resolve_field (.function f)
    have htype := HostFunction.fits_iff.mp hfits
    simp only [resolveImport, hresolve, bind, Except.bind, htype]
    rfl
  | @constant content hcontent =>
    have hresolve := resolve_field .constantVariable
    have hinteger : content.isInteger = true := Wasm.ValType.isInteger_iff.mpr hcontent
    simp only [resolveImport, hresolve, bind, Except.bind, hinteger]
    rfl

theorem Offends.resolveImport_eq (h : Offends i fault) : resolveImport i = .error fault := by
  cases h with
  | unknown hunknown =>
    simp only [resolveImport, resolve_unknown hunknown]
    rfl
  | @params f type hparams =>
    have hresolve : resolve hostModule f.field = .ok (.function f) := resolve_field (.function f)
    have htype := HostFunction.checkType_wrongParams hparams
    simp only [resolveImport, hresolve, bind, Except.bind, htype]
  | @results f type hparams hresults =>
    have hresolve : resolve hostModule f.field = .ok (.function f) := resolve_field (.function f)
    have htype := HostFunction.checkType_wrongResults hparams hresults
    simp only [resolveImport, hresolve, bind, Except.bind, htype]
  | @constant type hconstant =>
    have hresolve := resolve_field .constantVariable
    have hnot : ¬ (type.content.isInteger && !type.isMutable) = true := by
      simpa [Wasm.ValType.isInteger_iff] using hconstant
    simp only [resolveImport, hresolve, bind, Except.bind, if_neg hnot]
    rfl
  | @functionKind f type hkind =>
    have hresolve : resolve hostModule f.field = .ok (.function f) := resolve_field (.function f)
    simp only [resolveImport, hresolve, bind, Except.bind]
    cases type with
    | func t => exact absurd rfl (hkind t)
    | table | memory | global => rfl
  | @constantKind type hkind =>
    have hresolve := resolve_field .constantVariable
    simp only [resolveImport, hresolve, bind, Except.bind]
    cases type with
    | global t => exact absurd rfl (hkind t)
    | func | table | memory => rfl

/-- Every import can be served, or there is something wrong with it. -/
theorem servedBy_or_offends (i : Wasm.Import) :
    (∃ found, ServedBy i found) ∨ ∃ fault, Offends i fault := by
  obtain ⟨moduleName, field, type⟩ := i
  by_cases hoffered : ∃ found : HostImport, moduleName = hostModule ∧ field = found.field
  case neg => exact .inr ⟨_, .unknown fun found hfound => hoffered ⟨found, hfound⟩⟩
  obtain ⟨found, rfl, rfl⟩ := hoffered
  cases found with
  | function f =>
    cases type with
    | func type =>
      by_cases hparams : f.Takes type.params
      · by_cases hresults : HostFunction.Gives type.results
        · exact .inl ⟨_, .function ⟨hparams, hresults⟩⟩
        · exact .inr ⟨_, .results hparams hresults⟩
      · exact .inr ⟨_, .params hparams⟩
    | table | memory | global => exact .inr ⟨_, .functionKind fun _ => nofun⟩
  | constantVariable =>
    cases type with
    | global type =>
      obtain ⟨content, isMutable⟩ := type
      by_cases hconstant : (content = .i32 ∨ content = .i64) ∧ isMutable = false
      · obtain ⟨hcontent, rfl⟩ := hconstant
        exact .inl ⟨_, .constant hcontent⟩
      · exact .inr ⟨_, .constant hconstant⟩
    | func | table | memory => exact .inr ⟨_, .constantKind fun _ => nofun⟩

/-- **Imports that can be served.** -/
theorem resolveImport_eq_ok_iff : resolveImport i = .ok found ↔ ServedBy i found := by
  refine ⟨fun h => ?_, fun h => h.resolveImport_eq⟩
  rcases servedBy_or_offends i with ⟨found', hserved⟩ | ⟨fault, hoffends⟩
  · cases h.symm.trans hserved.resolveImport_eq
    exact hserved
  · cases h.symm.trans hoffends.resolveImport_eq

/-- **Imports that cannot be served**, with what is reported of them. -/
theorem resolveImport_eq_error_iff : resolveImport i = .error fault ↔ Offends i fault := by
  refine ⟨fun h => ?_, fun h => h.resolveImport_eq⟩
  rcases servedBy_or_offends i with ⟨found, hserved⟩ | ⟨fault', hoffends⟩
  · cases h.symm.trans hserved.resolveImport_eq
  · cases h.symm.trans hoffends.resolveImport_eq
    exact hoffends

theorem Offends.not_servedBy (h : Offends i fault) : ¬ ServedBy i found := by
  intro hserved
  cases h.resolveImport_eq.symm.trans hserved.resolveImport_eq

end LedgerSandbox
