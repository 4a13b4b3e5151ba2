import LedgerSandbox.Proofs.Simulation.Host

/-!
# Runs of a machine

`Simulation.Host` follows one host call; here the relation of hosts is carried through
the instructions of a whole run, by induction on its budget (`Wasm.run_simulates`), and
from there through everything that runs an entry function of a module
(`HostSim.execute`).
-/

namespace LedgerSandbox

variable {σ τ : Type}

/-- Two hosts of a machine that answer alike along a relation of their states. -/
def Wasm.HostsAlike (S : σ → τ → Prop) (host : Wasm.Host σ) (host' : Wasm.Host τ) : Prop :=
  ∀ slot args memory {s t}, S s t →
    (host slot args memory s).1 = (host' slot args memory t).1 ∧
      S (host slot args memory s).2 (host' slot args memory t).2

/-- A machine does the same over two hosts that answer alike. -/
theorem Wasm.run_simulates {S : σ → τ → Prop} {host : Wasm.Host σ} {host' : Wasm.Host τ}
    (alike : HostsAlike S host host') (budget : Nat) (m : Machine) {s : σ} {t : τ} (rel : S s t) :
    (run host budget m s).1 = (run host' budget m t).1 ∧
      S (run host budget m s).2 (run host' budget m t).2 := by
  -- Between two host calls the machine does not depend on the host at all; at a call, the
  -- hosts give the same answer and the machines go on as one.
  induction budget generalizing m s t with
  | zero => exact ⟨rfl, rel⟩
  | succ budget ih =>
    unfold run
    cases m.step with
    | running m => exact ih m rel
    | finished results store => exact ⟨rfl, rel⟩
    | trapped trap => exact ⟨rfl, rel⟩
    | calling slot args m =>
      obtain ⟨functions, ⟨memory, tables, globals, elements, data⟩, frame, callers, depth⟩ := m
      obtain ⟨hanswer, rel'⟩ := alike slot args memory rel
      dsimp only
      generalize host slot args memory s = r, host' slot args memory t = r' at hanswer rel'
      obtain ⟨⟨results, memory⟩, s'⟩ := r
      obtain ⟨_, t'⟩ := r'
      cases hanswer
      exact ih _ rel'

variable [Ledger σ] [Ledger τ] {S : HostState σ → HostState τ → Prop}

namespace HostSim

variable (sim : HostSim S)

include sim

theorem host (links : List Link) (showsMemory : Bool) :
    Wasm.HostsAlike S (Run.host links showsMemory) (Run.host links showsMemory) := by
  intro slot args memory h k rel
  unfold Run.host
  dsimp only
  cases (Run.functions links)[slot]? with
  | none => exact ⟨rfl, rel⟩
  | some link =>
    obtain ⟨f, type⟩ := link
    -- The guest whose memory is hidden from the host calls without one.
    have hidden : ((f.callAs type args ⟨none, h⟩).1, memory) =
          ((f.callAs type args ⟨none, k⟩).1, memory) ∧
        S (f.callAs type args ⟨none, h⟩).2.host (f.callAs type args ⟨none, k⟩).2.host := by
      obtain ⟨hresults, rel'⟩ := sim.callAs f type args (c := ⟨none, h⟩) (d := ⟨none, k⟩) ⟨rfl, rel⟩
      exact ⟨congrArg (·, memory) hresults, rel'.host⟩
    cases showsMemory with
    | false => exact hidden
    | true =>
      cases memory with
      | none => exact hidden
      | some memory =>
        obtain ⟨data, limit⟩ := memory
        obtain ⟨hresults, rel'⟩ :=
          sim.callAs f type args (c := ⟨some data, h⟩) (d := ⟨some data, k⟩) ⟨rfl, rel⟩
        dsimp only
        generalize f.callAs type args ⟨some data, h⟩ = r, f.callAs type args ⟨some data, k⟩ = r'
          at hresults rel'
        obtain ⟨results, memory, h'⟩ := r
        obtain ⟨results', memory', k'⟩ := r'
        obtain ⟨hmemory, rel'⟩ := rel'
        dsimp only at hresults hmemory rel'
        subst hresults hmemory
        cases memory with
        | none => exact ⟨rfl, rel'⟩
        | some data => exact ⟨rfl, rel'⟩

theorem callFunction (setup : Run.Setup) (store : Wasm.Store) (steps index : Nat)
    (args : List Wasm.Value) :
    Simulates S (Run.callFunction setup store steps index args)
      (Run.callFunction setup store steps index args) := by
  intro h k rel
  obtain ⟨houtcome, rel'⟩ := Wasm.run_simulates
    (sim.host setup.links (Run.showsMemory setup.module)) steps
    (.start setup.module.instanceFunctions store index args) rel
  unfold Run.callFunction
  dsimp only
  generalize Wasm.run _ steps _ h = r, Wasm.run _ steps _ k = r' at houtcome rel'
  obtain ⟨outcome, h'⟩ := r
  obtain ⟨_, k'⟩ := r'
  cases houtcome
  cases outcome with
  | finished results store left => exact .ok _ rel'
  | trapped trap => exact .error _ rel'
  | exhausted => exact .error _ rel'

theorem callStart (setup : Run.Setup) (store : Wasm.Store) :
    Simulates S (Run.callStart setup store) (Run.callStart setup store) := by
  unfold Run.callStart
  cases setup.module.start with
  | none => exact .pure _
  | some index => exact (sim.callFunction setup store _ index []).bind fun _ => .pure _

theorem callEntry (setup : Run.Setup) (store : Wasm.Store) (steps : Nat) (entry : String) :
    Simulates S (Run.callEntry setup store steps entry)
      (Run.callEntry setup store steps entry) := by
  unfold Run.callEntry
  split
  case h_1 index _ =>
    cases setup.module.allFunctions[index]? with
    | none => exact .throw _
    | some type =>
      refine .get_bind fun h k rel => ?_
      rw [sim.args rel]
      cases Run.entryArgs type k.invocation.args.length with
      | none => exact .error _ rel
      | some args =>
        dsimp only
        cases Run.isEntryResult type.results with
        | false => exact .error _ rel
        | true => exact (sim.callFunction setup store steps index args).bind (fun _ => .pure _) rel
  case h_2 => exact .throw _

/-- **Runs cannot tell related hosts apart.** An entry function of any module gives the
same result, or fails in the same way, and leaves related hosts. -/
theorem execute (config : Config) (m : Wasm.Module) (entry : String) :
    Simulates S (Run.execute config m entry) (Run.execute config m entry) := by
  unfold Run.execute
  split
  · exact .throw _
  · split
    · exact .throw _
    · exact .throw _
    · exact (sim.callStart _ _).bind fun _ => sim.callEntry _ _ _ entry

end HostSim

end LedgerSandbox
