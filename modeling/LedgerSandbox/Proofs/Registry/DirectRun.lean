import LedgerSandbox.Proofs.Host.Isolation
import LedgerSandbox.Proofs.Ledger.Overlay
import LedgerSandbox.Proofs.Registry.InMemory

/-!
# Initializers cannot tell that they are staged

An installation runs the initializer on an overlay and commits the overlay. On a ledger in
memory this comes to the same as a run on the ledger itself, the direct run
(`Registry.install_eq_directRun`): the two end alike, and what the commit makes of the ledger
is what the direct run has made of it.

The overlay and the ledger of the direct run are related by what is seen through the overlay
(`Buffers`). Guest keys keep the relation, so it goes through whole runs.
-/

namespace LedgerSandbox

/-! ## Runs on an overlay and direct runs -/

/-- A ledger in memory with one overlay of changes that can be committed, and a ledger that
holds what is seen through the overlay. -/
structure Buffers (base : MemoryLedger) (l : Layers MemoryLedger) (k : MemoryLedger) : Prop where
  base : l.base = base
  single : l.overlays.length = 1
  committable : Layers.Committable l
  contents : l.contents = k.contents.get?

namespace Buffers

variable {base : MemoryLedger}

theorem start (base : MemoryLedger) : Buffers base (.ofBase base) base where
  base := rfl
  single := rfl
  committable o ho c hc := by
    rw [List.mem_singleton.mp ho] at hc
    exact absurd hc List.not_mem_nil
  contents := Overlay.covering_empty base.contents.get?

theorem get {key : Key} (hkey : key ≠ []) :
    Simulates (Buffers base) (Ledger.get key) (Ledger.get key) := by
  intro l k rel
  rw [Layers.get_eq hkey, MemoryLedger.get_of_ne_nil hkey, rel.contents]
  exact .ok _ rel

theorem write {key : Key} (hkey : key ≠ []) (change : Option Value) :
    Simulates (Buffers base) (Ledger.write key change) (Ledger.write key change) := by
  intro l k rel
  rw [Layers.write_eq hkey, MemoryLedger.write_apply, if_neg hkey]
  refine .ok () ⟨?_, ?_, rel.committable.changed hkey, ?_⟩
  · obtain ⟨o, ho⟩ := List.length_eq_one_iff.mp rel.single
    rw [← rel.base, Layers.changed, ho]
  · rw [Layers.length_changed, rel.single]
  · rw [Layers.contents_changed, rel.contents, Overlay.get?_applyChange]

theorem ledgerSim (name : String) (limits : HostLimits) (base : MemoryLedger) :
    LedgerSim name limits (Buffers base) where
  get key _ := get (guestKey_ne_nil name key)
  put key value _ _ := write (guestKey_ne_nil name key) (some value)
  delete key _ := write (guestKey_ne_nil name key) none

/-- A commit makes of the ledger below what the direct run has made of it. -/
theorem commit {l : Layers MemoryLedger} {k : MemoryLedger} (rel : Buffers base l k) :
    Layers.commit l = .ok () (.ofBase k) := by
  obtain ⟨base', overlays⟩ := l
  obtain ⟨o, rfl⟩ := List.length_eq_one_iff.mp rel.single
  have hkeys : ∀ c ∈ o.entries, c.1 ≠ [] := rel.committable o List.mem_cons_self
  obtain ⟨k', happlied, hcontents⟩ := MemoryLedger.applyAll_ok hkeys base'
  have hsame : k'.contents.get? = k.contents.get? := by
    rw [hcontents, Overlay.applied_entries, ← rel.contents]
    rfl
  have hk : k' = k := MemoryLedger.ext (SortedMap.ext_get? fun key => congrFun hsame key)
  rw [Layers.commit_single, happlied, hk]

end Buffers

/-! ## Host calls, one after the other -/

/-- The answers of a host to calls, each one served after the ones before it. -/
def HostState.answers {σ : Type} [Ledger σ] : List HostCall → HostState σ → List HostAnswer
  | [], _ => []
  | call :: rest, h => (call.serve h).1 :: answers rest (call.serve h).2

section

variable {σ τ : Type} [Ledger σ] [Ledger τ] {S : HostState σ → HostState τ → Prop}

omit [Ledger σ] [Ledger τ] in
theorem SameResult.ofResult {α : Type} (found : α → HostAnswer)
    {r : EStateM.Result HostError (HostState σ) α} {r' : EStateM.Result HostError (HostState τ) α}
    (h : SameResult S r r') :
    (HostAnswer.ofResult found r).1 = (HostAnswer.ofResult found r').1 ∧
      S (HostAnswer.ofResult found r).2 (HostAnswer.ofResult found r').2 := by
  cases h with
  | ok a hS => exact ⟨rfl, hS⟩
  | error e hS => exact ⟨rfl, hS⟩

theorem HostSim.serve (sim : HostSim S) (call : HostCall) {h : HostState σ} {k : HostState τ}
    (rel : S h k) :
    (call.serve h).1 = (call.serve k).1 ∧ S (call.serve h).2 (call.serve k).2 := by
  cases call with
  | print message => exact ⟨rfl, sim.print message rel⟩
  | getParameter index =>
    refine ⟨?_, rel⟩
    show HostAnswer.found h.invocation.args[index]? = .found k.invocation.args[index]?
    rw [sim.args rel]
  | getState key => exact (sim.getState key rel).ofResult _
  | putState key value => exact (sim.putState key value rel).ofResult _
  | deleteState key => exact (sim.deleteState key rel).ofResult _
  | returnResult result => exact (sim.returnResult result rel).ofResult _

theorem HostSim.answers (sim : HostSim S) (calls : List HostCall) {h : HostState σ}
    {k : HostState τ} (rel : S h k) : HostState.answers calls h = HostState.answers calls k := by
  induction calls generalizing h k with
  | nil => rfl
  | cons call rest ih =>
    obtain ⟨hanswer, hrel⟩ := sim.serve call rel
    rw [HostState.answers, HostState.answers, hanswer, ih hrel]

end

/-! ## Installations -/

namespace Registry

variable {name : String} {s : Session MemoryLedger}

/-- The run of an initializer on the ledger itself. -/
def directRun (name : String) (bytecode : Bytes) (args : List Bytes) (s : Session MemoryLedger) :
    EStateM.Result Failure (Session MemoryLedger) Completion :=
  Session.invoke bytecode s.sandbox.config.initEntry { moduleName := name, args } s

/-- The run of an initializer on an overlay ends as the direct run does, over the ledger as it
was. -/
theorem overlayRun_alike (name : String) (bytecode : Bytes) (args : List Bytes)
    (s : Session MemoryLedger) :
    SameResult (SessionRel s.sandbox.config (Buffers s.ledger))
      (Session.invoke bytecode s.sandbox.config.initEntry { moduleName := name, args }
        ⟨s.sandbox, .ofBase s.ledger⟩)
      (directRun name bytecode args s) := by
  have sim := Buffers.ledgerSim name s.sandbox.config.limits s.ledger
  exact Session.invoke_simulates bytecode s.sandbox.config.initEntry { moduleName := name, args }
    sim ⟨rfl, rfl, .start s.ledger⟩

/-- **An installation, told by the direct run.** -/
theorem install_eq_directRun (hname : ModuleName.Accepted name)
    (hfree : s.ledger.contents.get? (recordBytes name) = none) (bytecode : Bytes)
    (args : List Bytes) :
    install name bytecode args s =
      match directRun name bytecode args s with
      | .error failure t => .error failure ⟨t.sandbox, s.ledger⟩
      | .ok completion t =>
        if completion.code ≠ 0 then .error (.initFailed completion.code) ⟨t.sandbox, s.ledger⟩
        else .ok () ⟨t.sandbox, ⟨t.ledger.contents.insert (recordBytes name) bytecode⟩⟩ := by
  rw [install_accepted hname, MemoryLedger.get_of_ne_nil (recordBytes_ne_nil name), hfree]
  dsimp only
  rw [onOverlay_runInitializer]
  dsimp only
  have hrun := overlayRun_alike name bytecode args s
  generalize Session.invoke bytecode s.sandbox.config.initEntry { moduleName := name, args }
      (⟨s.sandbox, .ofBase s.ledger⟩ : Session (Layers MemoryLedger)) = r,
    directRun name bytecode args s = r' at hrun
  cases hrun with
  | error failure rel =>
    dsimp only
    rw [rel.ledger.base, rel.sandbox]
  | @ok completion t u rel =>
    dsimp only
    by_cases hcode : completion.code ≠ 0
    · rw [if_pos hcode, if_pos hcode, rel.ledger.base, rel.sandbox]
    · rw [if_neg hcode, if_neg hcode, rel.ledger.commit, rel.sandbox]
      have hput := MemoryLedger.write_apply (recordBytes name) (some bytecode) u.ledger
      rw [if_neg (recordBytes_ne_nil name), Ledger.write] at hput
      dsimp only
      rw [Session.onLedger]
      dsimp only [Layers.ofBase]
      rw [hput]
      rfl

theorem install_eq_ok_iff (hname : ModuleName.Accepted name)
    (hfree : s.ledger.contents.get? (recordBytes name) = none) {bytecode : Bytes}
    {args : List Bytes} {t : Session MemoryLedger} :
    install name bytecode args s = .ok () t ↔
      ∃ completion u, directRun name bytecode args s = .ok completion u ∧ completion.code = 0 ∧
        t = ⟨u.sandbox, ⟨u.ledger.contents.insert (recordBytes name) bytecode⟩⟩ := by
  rw [install_eq_directRun hname hfree]
  cases directRun name bytecode args s with
  | error failure u => simp
  | ok completion u =>
    by_cases hcode : completion.code = 0
    · simp [hcode, eq_comm]
    · simp [hcode]

theorem install_eq_error_iff (hname : ModuleName.Accepted name)
    (hfree : s.ledger.contents.get? (recordBytes name) = none) {bytecode : Bytes}
    {args : List Bytes} {failure : Failure} {t : Session MemoryLedger} :
    install name bytecode args s = .error failure t ↔
      (∃ u, directRun name bytecode args s = .error failure u ∧ t = ⟨u.sandbox, s.ledger⟩) ∨
        ∃ completion u, directRun name bytecode args s = .ok completion u ∧
          completion.code ≠ 0 ∧ failure = .initFailed completion.code ∧
          t = ⟨u.sandbox, s.ledger⟩ := by
  rw [install_eq_directRun hname hfree]
  cases directRun name bytecode args s with
  | error failure' u => simp [and_comm, eq_comm]
  | ok completion u =>
    by_cases hcode : completion.code = 0
    · simp [hcode]
    · simp [hcode, eq_comm]

/-- What an installation and the direct run of the initializer have to do with each other. -/
structure StagedAsDirect (name : String) (bytecode : Bytes) (args : List Bytes)
    (s : Session MemoryLedger) : Prop where
  ok_iff : (∃ t, install name bytecode args s = .ok () t) ↔
    ∃ completion u, directRun name bytecode args s = .ok completion u ∧ completion.code = 0
  /-- A successful installation leaves what the direct run leaves, and the record. -/
  contents : ∀ t, install name bytecode args s = .ok () t →
    ∃ completion u key, directRun name bytecode args s = .ok completion u ∧
      recordKey name = .ok key ∧ t.ledger.contents = u.ledger.contents.insert key bytecode
  /-- A failed installation leaves the ledger alone and says why the direct run failed, or
  which code it returned. -/
  failure : ∀ failure t, install name bytecode args s = .error failure t →
    t.ledger = s.ledger ∧
      ((∃ u, directRun name bytecode args s = .error failure u) ∨
        ∃ completion u, directRun name bytecode args s = .ok completion u ∧
          completion.code ≠ 0 ∧ failure = .initFailed completion.code)
  /-- To whatever it asks, a guest gets the same answers on an overlay and on the ledger. -/
  answers : ∀ (context : HostState Unit) (calls : List HostCall),
    HostState.answers calls (context.onto (Layers.ofBase s.ledger)) =
      HostState.answers calls (context.onto s.ledger)

/-- **Staging goes unnoticed.** -/
theorem staged_install_as_direct (hname : ModuleName.Accepted name)
    (hfree : lookup name s = .error (.notFound name) s) (bytecode : Bytes) (args : List Bytes) :
    StagedAsDirect name bytecode args s := by
  have hnone := lookup_eq_notFound_iff.mp hfree hname
  refine ⟨⟨?_, ?_⟩, fun t ht => ?_, fun failure t ht => ?_, fun context calls => ?_⟩
  · rintro ⟨t, ht⟩
    obtain ⟨completion, u, hdirect, hcode, -⟩ := (install_eq_ok_iff hname hnone).mp ht
    exact ⟨completion, u, hdirect, hcode⟩
  · rintro ⟨completion, u, hdirect, hcode⟩
    exact ⟨_, (install_eq_ok_iff hname hnone).mpr ⟨completion, u, hdirect, hcode, rfl⟩⟩
  · obtain ⟨completion, u, hdirect, -, rfl⟩ := (install_eq_ok_iff hname hnone).mp ht
    exact ⟨completion, u, recordBytes name, hdirect, recordKey_of_accepted hname, rfl⟩
  · rcases (install_eq_error_iff hname hnone).mp ht with
      ⟨u, hdirect, rfl⟩ | ⟨completion, u, hdirect, hcode, hfailure, rfl⟩
    · exact ⟨rfl, .inl ⟨u, hdirect⟩⟩
    · exact ⟨rfl, .inr ⟨completion, u, hdirect, hcode, hfailure⟩⟩
  · have sim := hostSim_hostRel
      (Buffers.ledgerSim context.invocation.moduleName context.limits s.ledger)
    exact sim.answers calls ⟨rfl, rfl, rfl, .start s.ledger, rfl, rfl⟩

/-- A ledger that already holds what the initializer of a guest will put again. -/
def heldBefore : Session MemoryLedger :=
  ⟨newSandbox, ⟨SortedMap.empty.insert (guestKey "m" []) [0x31]⟩⟩

theorem staged_install_as_direct_heldBefore :
    ModuleName.Accepted "m" ∧ lookup "m" heldBefore = .error (.notFound "m") heldBefore ∧
      failure? (directRun "m" (putGuest 0) [] heldBefore) = none ∧
      StagedAsDirect "m" (putGuest 0) [] heldBefore := by
  have hname : ModuleName.Accepted "m" := by decide
  have hfree : lookup "m" heldBefore = .error (.notFound "m") heldBefore :=
    lookup_eq_notFound_iff.mpr fun _ => by decide
  exact ⟨hname, hfree, by decide +kernel, staged_install_as_direct hname hfree _ _⟩

end Registry

end LedgerSandbox
