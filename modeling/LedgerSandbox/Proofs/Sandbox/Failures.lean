import LedgerSandbox.Proofs.Simulation.Action
import LedgerSandbox.Sandbox

/-!
# How an invocation fails

Whatever goes wrong while a module is run, it is put down to the module: its bytecode
cannot be run, it has no such entry function, or its guest was stopped
(`Session.invoke_fails`).
-/

namespace LedgerSandbox

/-- Whether a failure is one of running a module. -/
def Failure.IsOfRun : Failure → Prop
  | .invalidBytecode _ | .entryNotFound _ | .guestTrap _ => True
  | _ => False

variable {σ : Type} [Ledger σ]

namespace Run

theorem callFunction_fails (setup : Setup) (store : Wasm.Store) (steps index : Nat)
    (args : List Wasm.Value) :
    FailsOnly Failure.IsOfRun
      (callFunction setup store steps index args : EStateM Failure (HostState σ) _) := by
  intro h failure h' hres
  unfold callFunction at hres
  dsimp only at hres
  split at hres
  · cases hres
  · cases hres
    trivial
  · cases hres
    trivial

theorem callStart_fails (setup : Setup) (store : Wasm.Store) :
    FailsOnly Failure.IsOfRun (callStart setup store : EStateM Failure (HostState σ) _) := by
  unfold callStart
  cases setup.module.start with
  | none => exact .pure _
  | some index => exact (callFunction_fails setup store _ index []).bind fun _ => .pure _

theorem callEntry_fails (setup : Setup) (store : Wasm.Store) (steps : Nat) (entry : String) :
    FailsOnly Failure.IsOfRun
      (callEntry setup store steps entry : EStateM Failure (HostState σ) _) := by
  unfold callEntry
  split
  case h_1 index _ =>
    cases setup.module.allFunctions[index]? with
    | none => exact .throw trivial
    | some type =>
      refine .get_bind fun h => ?_
      cases entryArgs type h.invocation.args.length with
      | none => exact .throw trivial
      | some args =>
        dsimp only
        cases isEntryResult type.results with
        | false => exact (FailsOnly.throw trivial).bind fun _ => (callFunction_fails _ _ _ _ _).bind fun _ => .pure _
        | true => exact (callFunction_fails _ _ _ _ _).bind fun _ => .pure _
  case h_2 => exact .throw trivial

theorem execute_fails (config : Config) (m : Wasm.Module) (entry : String) :
    FailsOnly Failure.IsOfRun (execute config m entry : EStateM Failure (HostState σ) _) := by
  unfold execute
  split
  · exact .throw trivial
  · split
    · exact .throw trivial
    · exact .throw trivial
    · exact (callStart_fails _ _).bind fun _ => callEntry_fails _ _ _ entry

end Run

theorem prepare_fails {config : Config} {bytecode : Bytes} {failure : Failure}
    (h : prepare config bytecode = .error failure) : failure.IsOfRun := by
  unfold prepare at h
  split at h
  · cases h
    trivial
  · split at h
    · cases h
      trivial
    · cases h

theorem Sandbox.compile_fails {s : Sandbox} {bytecode : Bytes} {failure : Failure}
    (h : s.compile bytecode = .error failure) : failure.IsOfRun := by
  unfold compile at h
  split at h
  · cases h
  · cases hprepare : prepare s.config bytecode with
    | error e =>
      rw [hprepare] at h
      cases h
      exact prepare_fails hprepare
    | ok m =>
      rw [hprepare] at h
      cases h

theorem Session.invoke_fails (bytecode : Bytes) (entry : String) (invocation : Invocation) :
    FailsOnly Failure.IsOfRun
      (invoke bytecode entry invocation : EStateM Failure (Session σ) _) := by
  intro s failure t h
  unfold invoke at h
  split at h
  case h_1 e hcompile =>
    cases h
    exact Sandbox.compile_fails hcompile
  case h_2 =>
    dsimp only at h
    split at h
    case h_1 => cases h
    case h_2 hexecute =>
      cases h
      exact Run.execute_fails _ _ _ _ _ _ hexecute

end LedgerSandbox
