import LedgerSandbox.Proofs.Ledger.Changes
import LedgerSandbox.Proofs.Simulation.Run
import LedgerSandbox.Registry

/-!
# Sessions over related ledgers

Whole transactions cannot tell related ledgers apart either. A run of an entry function
meets the ledger by the guest keys of its module (`Session.invoke_simulates`). An
installation meets it by these, through an overlay and the commit of it, and by the key
of the module's record (`Registry.install_simulates`).

The overlay that buffers the writes of an initializer holds changes of guest keys only
(`BufferedRel`), and so its commit meets the ledger by guest keys again.
-/

namespace LedgerSandbox

variable {σ τ : Type}

/-- Two sessions with the same sandbox, under the given configuration, on related ledgers. -/
structure SessionRel (config : Config) (R : σ → τ → Prop) (s : Session σ) (t : Session τ) :
    Prop where
  sandbox : s.sandbox = t.sandbox
  config_eq : s.sandbox.config = config
  ledger : R s.ledger t.ledger

theorem Sandbox.compile_config {s s' : Sandbox} {bytecode : Bytes} {m : Wasm.Module}
    (h : s.compile bytecode = .ok (m, s')) : s'.config = s.config := by
  unfold compile at h
  split at h
  · cases h
    rfl
  · cases hprepare : prepare s.config bytecode with
    | error failure => simp [hprepare, Except.map] at h
    | ok accepted =>
      simp only [hprepare, Except.map, Except.ok.injEq, Prod.mk.injEq] at h
      rw [← h.2]

namespace Session

/-- An action on equal sessions that keeps an invariant of their ledger leaves a ledger with the
invariant. -/
theorem ledger_invariant {α : Type} {I : σ → Prop} {x : EStateM Failure (Session σ) α}
    {s : Session σ} (h : Simulates (SessionRel s.sandbox.config fun l k => l = k ∧ I l) x x)
    (hs : I s.ledger) : I (finalState (x s)).ledger :=
  (h ⟨rfl, rfl, rfl, hs⟩).final.ledger.2

variable {config : Config} {R : σ → τ → Prop}

theorem onLedger_simulates {α : Type} {x : EStateM LedgerError σ α} {y : EStateM LedgerError τ α}
    (hxy : Simulates R x y) : Simulates (SessionRel config R) (onLedger x) (onLedger y) := by
  intro s t rel
  have hres := hxy rel.ledger
  unfold onLedger
  generalize x s.ledger = r, y t.ledger = r' at hres
  cases hres with
  | ok a hR => exact .ok a ⟨rel.sandbox, rel.config_eq, hR⟩
  | error e hR => exact .error _ ⟨rel.sandbox, rel.config_eq, hR⟩

/-- **Invocations cannot tell related ledgers apart**: the guest keys of the module that
runs are all they ask for. -/
theorem invoke_simulates [Ledger σ] [Ledger τ] (bytecode : Bytes) (entry : String)
    (invocation : Invocation) (sim : LedgerSim invocation.moduleName config.limits R) :
    Simulates (SessionRel config R) (invoke bytecode entry invocation)
      (invoke bytecode entry invocation) := by
  rintro ⟨sandbox, ledger⟩ ⟨_, ledger'⟩ ⟨rfl, rfl, rel⟩
  unfold invoke
  dsimp only
  cases hcompile : sandbox.compile bytecode with
  | error failure => exact .error failure ⟨rfl, rfl, rel⟩
  | ok compiled =>
    obtain ⟨m, sandbox'⟩ := compiled
    have hconfig := Sandbox.compile_config hcompile
    rw [← hconfig] at sim
    have hres := (hostSim_hostRel sim).execute sandbox'.config m entry
      (s := ⟨invocation, sandbox'.config.limits, ledger, sandbox'.log⟩)
      (t := ⟨invocation, sandbox'.config.limits, ledger', sandbox'.log⟩)
      ⟨rfl, rfl, rfl, rel, rfl, rfl⟩
    dsimp only
    generalize Run.execute sandbox'.config m entry
        (⟨invocation, sandbox'.config.limits, ledger, sandbox'.log⟩ : HostState σ) = r,
      Run.execute sandbox'.config m entry
        (⟨invocation, sandbox'.config.limits, ledger', sandbox'.log⟩ : HostState τ) = r' at hres
    cases hres with
    | ok code rel' =>
      dsimp only
      rw [rel'.invocation, rel'.log]
      exact .ok _ ⟨rfl, hconfig, rel'.ledger⟩
    | error failure rel' =>
      dsimp only
      rw [rel'.log]
      exact .error _ ⟨rfl, hconfig, rel'.ledger⟩

end Session

/-! ## Buffered changes -/

/-- Whether a change is one that a module's guest may make within the limits. -/
def IsGuestChange (name : String) (limits : HostLimits) (change : Change) : Prop :=
  ∃ key, change.1 = guestKey name key ∧ key.length ≤ limits.maxKeyLen ∧
    ∀ value, change.2 = some value → value.length ≤ limits.maxValueLen

/-- Two ledgers related by `R`, under the same overlays of changes that a guest may make. -/
structure BufferedRel (name : String) (limits : HostLimits) (R : σ → τ → Prop)
    (l : Layers σ) (k : Layers τ) : Prop where
  overlays : l.overlays = k.overlays
  changes : ∀ o ∈ l.overlays, ∀ c ∈ o.entries, IsGuestChange name limits c
  base : R l.base k.base

variable {name : String} {limits : HostLimits} {R : σ → τ → Prop}

theorem BufferedRel.onBase {α : Type} {x : EStateM LedgerError σ α} {y : EStateM LedgerError τ α}
    (hxy : Simulates R x y) :
    Simulates (BufferedRel name limits R) (Layers.onBase x) (Layers.onBase y) := by
  intro l k rel
  have hres := hxy rel.base
  unfold Layers.onBase
  generalize x l.base = r, y k.base = r' at hres
  cases hres with
  | ok a hR => exact .ok a { rel with base := hR }
  | error e hR => exact .error e { rel with base := hR }

variable [Ledger σ] [Ledger τ]

theorem LedgerSim.write (sim : LedgerSim name limits R) {c : Change}
    (h : IsGuestChange name limits c) :
    Simulates R (Ledger.write c.1 c.2) (Ledger.write c.1 c.2) := by
  obtain ⟨key, change⟩ := c
  obtain ⟨key, hkey : _ = guestKey name key, hlen, hvalue⟩ := h
  subst hkey
  cases change with
  | some value => exact sim.put key value hlen (hvalue value rfl)
  | none => exact sim.delete key hlen

/-- Changes of a guest do the same on ledgers that its keys cannot tell apart. -/
theorem LedgerSim.applyAll (sim : LedgerSim name limits R) {changes : List Change}
    (h : ∀ c ∈ changes, IsGuestChange name limits c) :
    Simulates R (Layers.applyAll changes) (Layers.applyAll changes) := by
  induction changes with
  | nil => exact .pure ()
  | cons c rest ih =>
    rw [Layers.applyAll_cons, Layers.applyAll_cons]
    refine (sim.write (h c List.mem_cons_self)).bind fun _ => ih fun c hc => ?_
    exact h c (List.mem_cons_of_mem _ hc)

theorem BufferedRel.buffer (sim : LedgerSim name limits R) {key : Key} {change : Option Value}
    (h : IsGuestChange name limits (key, change)) :
    Simulates (BufferedRel name limits R) (Layers.buffer key change) (Layers.buffer key change) := by
  rintro ⟨base, overlays⟩ ⟨base', _⟩ ⟨rfl, hchanges, rel⟩
  unfold Layers.buffer
  cases overlays with
  | nil =>
    cases change with
    | some value => exact BufferedRel.onBase (sim.write h) ⟨rfl, hchanges, rel⟩
    | none => exact BufferedRel.onBase (sim.write h) ⟨rfl, hchanges, rel⟩
  | cons o below =>
    refine .ok () ⟨rfl, fun o' ho' c hc => ?_, rel⟩
    rcases List.mem_cons.mp ho' with rfl | ho'
    · rcases SortedMap.mem_insertIn hc with rfl | hc
      · exact h
      · exact hchanges o List.mem_cons_self c hc
    · exact hchanges o' (List.mem_cons_of_mem _ ho') c hc

/-- Overlays pass on what a guest cannot tell apart below them. -/
theorem LedgerSim.buffered (sim : LedgerSim name limits R) :
    LedgerSim name limits (BufferedRel name limits R) where
  get key hkey := by
    rintro ⟨base, overlays⟩ ⟨base', _⟩ ⟨rfl, hchanges, rel⟩
    rw [Layers.get_apply, Layers.get_apply]
    dsimp only
    cases Overlay.find? (guestKey name key) overlays with
    | some found => exact .ok found ⟨rfl, hchanges, rel⟩
    | none => exact BufferedRel.onBase (sim.get key hkey) ⟨rfl, hchanges, rel⟩
  put key value hkey hvalue := BufferedRel.buffer sim ⟨key, rfl, hkey, fun _ h => by cases h; exact hvalue⟩
  delete key hkey := BufferedRel.buffer sim ⟨key, rfl, hkey, fun _ h => by cases h⟩

theorem BufferedRel.commit (sim : LedgerSim name limits R) :
    Simulates (BufferedRel name limits R) Layers.commit Layers.commit := by
  rintro ⟨base, overlays⟩ ⟨base', _⟩ ⟨rfl, hchanges, rel⟩
  unfold Layers.commit
  cases overlays with
  | nil => exact .ok () ⟨rfl, hchanges, rel⟩
  | cons o below =>
    have hres := sim.buffered.applyAll (hchanges o List.mem_cons_self) (s := ⟨base, below⟩)
      (t := ⟨base', below⟩) ⟨rfl, fun o ho => hchanges o (List.mem_cons_of_mem _ ho), rel⟩
    -- A commit ends on an empty overlay, whether or not it was stopped.
    have hstage : ∀ {l k}, BufferedRel name limits R l k →
        BufferedRel name limits R l.stage k.stage := by
      intro l k rel
      refine ⟨congrArg (∅ :: ·) rel.overlays, fun o ho => ?_, rel.base⟩
      rcases List.mem_cons.mp ho with rfl | ho
      · exact fun _ hc => absurd hc List.not_mem_nil
      · exact rel.changes o ho
    dsimp only
    generalize Layers.applyAll o.entries (⟨base, below⟩ : Layers σ) = r,
      Layers.applyAll o.entries (⟨base', below⟩ : Layers τ) = r' at hres
    cases hres with
    | ok _ rel' => exact .ok () (hstage rel')
    | error e rel' => exact .error e (hstage rel')

/-! ## Installations -/

namespace Registry

variable {config : Config}

theorem runInitializer_simulates (bytecode : Bytes) (args : List Bytes)
    (sim : LedgerSim name config.limits R) :
    Simulates (SessionRel config (BufferedRel name config.limits R))
      (runInitializer name bytecode args) (runInitializer name bytecode args) := by
  refine .get_bind fun s t rel => ?_
  rw [rel.sandbox]
  refine Simulates.bind (Session.invoke_simulates bytecode t.sandbox.config.initEntry
    { moduleName := name, args } sim.buffered) (fun completion => ?_) rel
  by_cases hcode : completion.code ≠ 0
  · rw [if_pos hcode, if_pos hcode]
    exact .throw _
  · rw [if_neg hcode, if_neg hcode]
    exact Session.onLedger_simulates (BufferedRel.commit sim)

omit [Ledger σ] [Ledger τ] in
theorem onOverlay_simulates {α : Type} {x : EStateM Failure (Session (Layers σ)) α}
    {y : EStateM Failure (Session (Layers τ)) α}
    (hxy : Simulates (SessionRel config (BufferedRel name limits R)) x y) :
    Simulates (SessionRel config R) (onOverlay x) (onOverlay y) := by
  rintro ⟨sandbox, ledger⟩ ⟨_, ledger'⟩ ⟨rfl, hconfig, rel⟩
  have hres := hxy (s := ⟨sandbox, .ofBase ledger⟩) (t := ⟨sandbox, .ofBase ledger'⟩)
    ⟨rfl, hconfig, rfl, by simp [Layers.ofBase, EmptyCollection.emptyCollection, SortedMap.empty],
      rel⟩
  unfold onOverlay
  dsimp only
  generalize x _ = r, y _ = r' at hres
  cases hres with
  | ok a rel' => exact .ok a ⟨rel'.sandbox, rel'.config_eq, rel'.ledger.base⟩
  | error e rel' => exact .error e ⟨rel'.sandbox, rel'.config_eq, rel'.ledger.base⟩

/-- **Installations cannot tell related ledgers apart**: the guest keys of the module and
the key of its record are all they ask for. -/
theorem install_simulates (name : String) (bytecode : Bytes) (args : List Bytes)
    (sim : LedgerSim name config.limits R)
    (hget : Simulates R (Ledger.get (recordBytes name)) (Ledger.get (recordBytes name)))
    (hput : Simulates R (Ledger.put (recordBytes name) bytecode)
      (Ledger.put (recordBytes name) bytecode)) :
    Simulates (SessionRel config R) (install name bytecode args) (install name bytecode args) := by
  unfold install
  cases hname : ModuleName.validate name with
  | error failure => exact .throw failure
  | ok _ =>
    have hkey : recordKey name = .ok (recordBytes name) := recordKey_of_accepted hname
    simp only [findKey, hkey, pure_bind]
    refine (Session.onLedger_simulates hget).bind fun found => ?_
    cases found with
    | some _ => exact .throw _
    | none =>
      refine (onOverlay_simulates (runInitializer_simulates bytecode args sim)).bind fun _ => ?_
      exact Session.onLedger_simulates hput

end Registry

end LedgerSandbox
