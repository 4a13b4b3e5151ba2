import LedgerSandbox.Proofs.Simulation.Transaction

/-!
# Sandboxes that have run something before

A sandbox carries two things from one run to the next: the modules it has accepted, and the
messages that were printed. No run and no transaction can see either of them. What has been
accepted is what the checks would make of the bytecode once more (`Sandbox.Sound`), and
messages are only ever added.

So two sandboxes under one configuration can be exchanged for each other, whatever they have
run before (`Session.submit_sameLedger`).
-/

namespace LedgerSandbox

variable {σ : Type} {config : Config}

/-! ## Accepted modules -/

namespace Sandbox

/-- Whether a sandbox has accepted, under the given configuration, nothing but what passes
the checks. -/
structure Sound (config : Config) (sandbox : Sandbox) : Prop where
  config_eq : sandbox.config = config
  accepted : ∀ e ∈ sandbox.accepted, prepare config e.1 = .ok e.2

theorem sound_new (config : Config) : Sound config { config } where
  config_eq := rfl
  accepted _ he := absurd he List.not_mem_nil

variable {sandbox : Sandbox}

theorem Sound.prepare_of_accepted? (h : Sound config sandbox) {bytecode : Bytes} {m : Wasm.Module}
    (hm : sandbox.accepted? bytecode = some m) : prepare config bytecode = .ok m := by
  obtain ⟨e, he, rfl⟩ := Option.map_eq_some_iff.mp hm
  have hkey : e.1 = bytecode := by simpa using List.find?_some he
  rw [← hkey]
  exact h.accepted e (List.mem_of_find?_eq_some he)

theorem Sound.compile_error (h : Sound config sandbox) {bytecode : Bytes} {failure : Failure}
    (hprepare : prepare config bytecode = .error failure) :
    sandbox.compile bytecode = .error failure := by
  unfold Sandbox.compile
  cases hm : sandbox.accepted? bytecode with
  | some m =>
    have hpassed := h.prepare_of_accepted? hm
    rw [hprepare] at hpassed
    cases hpassed
  | none =>
    rw [h.config_eq, hprepare]
    rfl

/-- A module that has been accepted before is the one that the checks accept now. -/
theorem Sound.compile_ok (h : Sound config sandbox) {bytecode : Bytes} {m : Wasm.Module}
    (hprepare : prepare config bytecode = .ok m) :
    ∃ next, sandbox.compile bytecode = .ok (m, next) ∧ Sound config next := by
  unfold Sandbox.compile
  cases hm : sandbox.accepted? bytecode with
  | some m' =>
    have hpassed := h.prepare_of_accepted? hm
    rw [hprepare] at hpassed
    cases hpassed
    exact ⟨sandbox, rfl, h⟩
  | none =>
    rw [h.config_eq, hprepare]
    refine ⟨_, rfl, rfl, fun e he => ?_⟩
    rcases List.mem_cons.mp he with rfl | he
    · exact hprepare
    · exact h.accepted e he

/-- What is compiled has passed the checks. -/
theorem Sound.prepare_of_compile (h : Sound config sandbox) {bytecode : Bytes} {m : Wasm.Module}
    {next : Sandbox} (hcompile : sandbox.compile bytecode = .ok (m, next)) :
    prepare config bytecode = .ok m := by
  cases hprepare : prepare config bytecode with
  | error failure => cases hcompile.symm.trans (h.compile_error hprepare)
  | ok m' =>
    obtain ⟨_, hcompile', -⟩ := h.compile_ok hprepare
    cases hcompile.symm.trans hcompile'
    rfl

end Sandbox

/-! ## Messages -/

/-- Two hosts that differ in the messages printed at most. -/
def SameButLog (h k : HostState σ) : Prop := ∃ log, k = { h with log }

theorem SameButLog.onLedger {α : Type} (x : EStateM LedgerError σ α) :
    Simulates SameButLog (HostState.onLedger x) (HostState.onLedger x) := by
  rintro h _ ⟨log, rfl⟩
  unfold HostState.onLedger
  dsimp only
  cases x h.ledger with
  | ok a ledger => exact .ok a ⟨log, rfl⟩
  | error e ledger => exact .error _ ⟨log, rfl⟩

variable [Ledger σ]

/-- Nothing that the host does depends on the messages printed before. -/
theorem hostSim_sameButLog : HostSim (SameButLog (σ := σ)) where
  args := by
    rintro h _ ⟨log, rfl⟩
    rfl
  print := by
    rintro message h _ ⟨log, rfl⟩
    unfold HostState.print
    dsimp only
    split
    · exact ⟨log, rfl⟩
    · exact ⟨_, rfl⟩
  getState key := by
    rintro h _ ⟨log, rfl⟩
    rw [HostState.getState_eq, HostState.getState_eq]
    dsimp only
    split
    · exact .error _ ⟨log, rfl⟩
    · exact SameButLog.onLedger _ ⟨log, rfl⟩
  putState key value := by
    rintro h _ ⟨log, rfl⟩
    rw [HostState.putState_eq, HostState.putState_eq]
    dsimp only
    split
    · exact .error _ ⟨log, rfl⟩
    · split
      · exact .error _ ⟨log, rfl⟩
      · exact SameButLog.onLedger _ ⟨log, rfl⟩
  deleteState key := by
    rintro h _ ⟨log, rfl⟩
    rw [HostState.deleteState_eq, HostState.deleteState_eq]
    dsimp only
    split
    · exact .error _ ⟨log, rfl⟩
    · exact SameButLog.onLedger _ ⟨log, rfl⟩
  returnResult result := by
    rintro h _ ⟨log, rfl⟩
    rw [HostState.returnResult_eq, HostState.returnResult_eq]
    dsimp only
    split
    · exact .error _ ⟨log, rfl⟩
    · exact .ok _ ⟨log, rfl⟩

/-! ## Sessions -/

/-- Two sessions on one ledger whose sandboxes may have run different things before. -/
structure SameLedger (config : Config) (s t : Session σ) : Prop where
  ledger : s.ledger = t.ledger
  left : s.sandbox.Sound config
  right : t.sandbox.Sound config

namespace Session

omit [Ledger σ] in
theorem onLedger_sameLedger {α : Type} (x : EStateM LedgerError σ α) :
    Simulates (SameLedger config) (onLedger x) (onLedger x) := by
  rintro ⟨sandbox, ledger⟩ ⟨sandbox', _⟩ ⟨rfl, hleft, hright⟩
  unfold onLedger
  dsimp only
  cases x ledger with
  | ok a ledger => exact .ok a ⟨rfl, hleft, hright⟩
  | error e ledger => exact .error _ ⟨rfl, hleft, hright⟩

/-- **Reuse cannot be noticed.** A run gives the same result and leaves the same ledger in
any two sandboxes under one configuration. -/
theorem invoke_sameLedger (bytecode : Bytes) (entry : String) (invocation : Invocation) :
    Simulates (SameLedger (σ := σ) config) (invoke bytecode entry invocation)
      (invoke bytecode entry invocation) := by
  rintro ⟨sandbox, ledger⟩ ⟨sandbox', _⟩ ⟨rfl, hleft, hright⟩
  unfold invoke
  dsimp only
  cases hprepare : prepare config bytecode with
  | error failure =>
    rw [hleft.compile_error hprepare, hright.compile_error hprepare]
    exact .error failure ⟨rfl, hleft, hright⟩
  | ok m =>
    obtain ⟨next, hcompile, hnext⟩ := hleft.compile_ok hprepare
    obtain ⟨next', hcompile', hnext'⟩ := hright.compile_ok hprepare
    rw [hcompile, hcompile']
    obtain ⟨_, modules, log⟩ := next
    obtain ⟨current, modules', log'⟩ := next'
    obtain ⟨rfl, hmodules⟩ := hnext
    obtain ⟨rfl, hmodules'⟩ := hnext'
    dsimp only
    have hres := hostSim_sameButLog.execute current m entry
      (s := ⟨invocation, current.limits, ledger, log⟩)
      (t := ⟨invocation, current.limits, ledger, log'⟩) ⟨log', rfl⟩
    generalize Run.execute current m entry
        (⟨invocation, current.limits, ledger, log⟩ : HostState σ) = x,
      Run.execute current m entry
        (⟨invocation, current.limits, ledger, log'⟩ : HostState σ) = y at hres
    cases hres with
    | ok code rel =>
      obtain ⟨last, rfl⟩ := rel
      exact .ok _ ⟨rfl, ⟨rfl, hmodules⟩, ⟨rfl, hmodules'⟩⟩
    | error failure rel =>
      obtain ⟨last, rfl⟩ := rel
      exact .error _ ⟨rfl, ⟨rfl, hmodules⟩, ⟨rfl, hmodules'⟩⟩

/-- A run leaves a sound sandbox, however it ends. -/
theorem sound_invoke (bytecode : Bytes) (entry : String) (invocation : Invocation) {s : Session σ}
    (h : s.sandbox.Sound config) :
    (finalState (invoke bytecode entry invocation s)).sandbox.Sound config :=
  (invoke_sameLedger bytecode entry invocation ⟨rfl, h, h⟩).final.left

end Session

namespace Registry

theorem runInitializer_sameLedger (name : String) (bytecode : Bytes) (args : List Bytes) :
    Simulates (SameLedger (σ := Layers σ) config) (runInitializer name bytecode args)
      (runInitializer name bytecode args) := by
  refine .get_bind fun s t rel => ?_
  rw [rel.left.config_eq, rel.right.config_eq]
  refine Simulates.bind (Session.invoke_sameLedger bytecode config.initEntry
    { moduleName := name, args }) (fun completion => ?_) rel
  by_cases hcode : completion.code ≠ 0
  · rw [if_pos hcode]
    exact .throw _
  · rw [if_neg hcode]
    exact Session.onLedger_sameLedger _

omit [Ledger σ] in
theorem onOverlay_sameLedger {α : Type} {x : EStateM Failure (Session (Layers σ)) α}
    (h : Simulates (SameLedger config) x x) : Simulates (SameLedger config) (onOverlay x) (onOverlay x) := by
  rintro ⟨sandbox, ledger⟩ ⟨sandbox', _⟩ ⟨rfl, hleft, hright⟩
  have hres := h (s := ⟨sandbox, .ofBase ledger⟩) (t := ⟨sandbox', .ofBase ledger⟩)
    ⟨rfl, hleft, hright⟩
  unfold onOverlay
  dsimp only
  generalize x ⟨sandbox, .ofBase ledger⟩ = y, x ⟨sandbox', .ofBase ledger⟩ = z at hres
  cases hres with
  | ok a rel => exact .ok a ⟨congrArg Layers.base rel.ledger, rel.left, rel.right⟩
  | error e rel => exact .error e ⟨congrArg Layers.base rel.ledger, rel.left, rel.right⟩

theorem install_sameLedger (name : String) (bytecode : Bytes) (args : List Bytes) :
    Simulates (SameLedger (σ := σ) config) (install name bytecode args)
      (install name bytecode args) := by
  unfold install
  cases hname : ModuleName.validate name with
  | error failure => exact .throw failure
  | ok _ =>
    have hkey : recordKey name = .ok (recordBytes name) := recordKey_of_accepted hname
    simp only [findKey, hkey, pure_bind]
    refine (Session.onLedger_sameLedger _).bind fun found => ?_
    cases found with
    | some _ => exact .throw _
    | none =>
      refine (onOverlay_sameLedger (runInitializer_sameLedger name bytecode args)).bind fun _ => ?_
      exact Session.onLedger_sameLedger _

end Registry

theorem orderSim_sameLedger (order : Order) : OrderSim (SameLedger (σ := σ) config) order := by
  cases order with
  | install name bytecode args => exact .install (Registry.install_sameLedger name bytecode args)
  | execute name entry args =>
    exact .execute (Session.onLedger_sameLedger _) fun bytecode =>
      Session.invoke_sameLedger bytecode entry { moduleName := name, args }
  | list => exact .list fun start stop => Session.onLedger_sameLedger _

/-- A transaction gets the same response and leaves the same ledger in any two sandboxes
under one configuration. -/
theorem Session.submit_sameLedger (r : Request) {s t : Session σ} (h : SameLedger config s t) :
    (submit r s).1 = (submit r t).1 ∧ SameLedger config (submit r s).2 (submit r t).2 :=
  submit_alike (fun order _ => orderSim_sameLedger order) h

/-- A transaction leaves a sound sandbox, however it ends. -/
theorem Session.sound_submit (r : Request) {s : Session σ} (h : s.sandbox.Sound config) :
    (submit r s).2.sandbox.Sound config :=
  (submit_sameLedger r ⟨rfl, h, h⟩).2.left

/-! ## Sandboxes in use -/

/-- The sandboxes that there are under a configuration: a new one, and what runs and
transactions on any ledgers make of it. -/
inductive Sandbox.Used (config : Config) : Sandbox → Prop
  | new : Used config { config }
  | invoke {σ : Type} [Ledger σ] {s : Session σ} (bytecode : Bytes) (entry : String)
    (invocation : Invocation) : Used config s.sandbox →
    Used config (finalState (Session.invoke bytecode entry invocation s)).sandbox
  | submit {σ : Type} [Ledger σ] {s : Session σ} (r : Request) : Used config s.sandbox →
    Used config (Session.submit r s).2.sandbox

theorem Sandbox.Used.sound {sandbox : Sandbox} (h : Used config sandbox) : Sound config sandbox := by
  induction h with
  | new => exact sound_new config
  | invoke bytecode entry invocation _ ih => exact Session.sound_invoke bytecode entry invocation ih
  | submit r _ ih => exact Session.sound_submit r ih

end LedgerSandbox
