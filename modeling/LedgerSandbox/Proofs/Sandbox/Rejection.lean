import LedgerSandbox.Proofs.Sandbox.Failures
import LedgerSandbox.Proofs.Simulation.Session

/-!
# Runs that are rejected

Before its entry function is called, a module can be turned down at any of these stages: when
its bytecode is checked, when its imports are linked, when an instance is made of it, and when
the entry function is looked up and its type is checked. Guest code is stopped by a trap only,
so every other failure comes from one of these stages.

No code of the module has run by then, with one exception: making an instance ends with the
start function, and only after it the entry function is looked up. A rejected run has left the
host as it was, or as a start function that ran to its end has left it
(`Run.execute_rejects`).
-/

namespace LedgerSandbox

variable {σ : Type}

/-! ## Actions that are rejected -/

/-- Whether every state in which an action is rejected, that is, fails otherwise than by a
trap, is related to the state before. -/
def Rejects {α : Type} (R : σ → σ → Prop) (x : EStateM Failure σ α) : Prop :=
  ∀ s failure t, x s = .error failure t → failure.kind ≠ .guestTrap → R s t

namespace Rejects

variable {α β : Type} {R : σ → σ → Prop}

theorem throw {failure : Failure} (h : ∀ s, R s s) :
    Rejects R (throw failure : EStateM Failure σ α) := by
  intro s e t heq _
  cases heq
  exact h s

/-- What fails by traps only is not rejected. -/
theorem of_traps {x : EStateM Failure σ α} (h : FailsOnly (fun e => e.kind = .guestTrap) x) :
    Rejects R x :=
  fun s e t heq hkind => absurd (h s e t heq) hkind

theorem bind_pure {x : EStateM Failure σ α} (h : Rejects R x) (f : α → β) :
    Rejects R (x >>= fun a => pure (f a)) := by
  intro s e t heq hkind
  rw [bind_apply] at heq
  cases hx : x s with
  | ok a s' =>
    rw [hx] at heq
    cases heq
  | error e' s' =>
    rw [hx] at heq
    cases heq
    exact h s _ _ hx hkind

theorem get_bind {f : σ → EStateM Failure σ β} (h : ∀ s, Rejects R (f s)) :
    Rejects R (get >>= f) :=
  fun s e t heq => h s s e t heq

end Rejects

/-! ## Runs -/

namespace Run

variable [Ledger σ]

/-- Whether the start function of a module has run to its end, from one state of the host to
another. -/
inductive StartRan (config : Config) (m : Wasm.Module) (h h' : HostState σ) : Prop
  | intro {links : List Link} {store store' : Wasm.Store} {index left : Nat}
    {results : List Wasm.Value} : linkImports m.imports = .ok links →
    m.instantiate (globals links) config.memoryPages config.tableSize = .ok store →
    m.start = some index →
    callFunction ⟨m, links, config.allowance⟩ store config.allowance.steps index [] h =
      .ok (results, store', left) h' →
    StartRan config m h h'

theorem callFunction_traps (setup : Setup) (store : Wasm.Store) (steps index : Nat)
    (args : List Wasm.Value) :
    FailsOnly (fun failure => failure.kind = .guestTrap)
      (callFunction setup store steps index args : EStateM Failure (HostState σ) _) := by
  intro h failure h' hres
  unfold callFunction at hres
  dsimp only at hres
  split at hres
  · cases hres
  · cases hres
    rfl
  · cases hres
    rfl

/-- An entry function that is missing or unfit is not called. -/
theorem callEntry_rejects (setup : Setup) (store : Wasm.Store) (steps : Nat) (entry : String) :
    Rejects Eq (callEntry setup store steps entry : EStateM Failure (HostState σ) _) := by
  unfold callEntry
  split
  case h_1 index _ =>
    cases setup.module.allFunctions[index]? with
    | none => exact .throw fun _ => rfl
    | some type =>
      refine .get_bind fun h => ?_
      cases entryArgs type h.invocation.args.length with
      | none => exact .throw fun _ => rfl
      | some args =>
        dsimp only
        cases isEntryResult type.results with
        | false => exact .throw fun _ => rfl
        | true => exact .bind_pure (.of_traps (callFunction_traps _ _ _ _ _)) _
  case h_2 => exact .throw fun _ => rfl

/-- **Rejected runs.** A rejected run has left the host as it was, or as the start function
has left it. -/
theorem execute_rejects (config : Config) (m : Wasm.Module) (entry : String) :
    Rejects (fun h h' => h = h' ∨ StartRan config m h h')
      (execute config m entry : EStateM Failure (HostState σ) _) := by
  unfold execute
  split
  case h_1 => exact .throw fun _ => .inl rfl
  case h_2 links hlinks =>
    split
    case h_1 => exact .throw fun _ => .inl rfl
    case h_2 => exact .throw fun _ => .inl rfl
    case h_3 store hstore =>
      dsimp only
      cases hstart : m.start with
      | none =>
        simp only [callStart, hstart, pure_bind]
        intro h failure h' hfail hkind
        exact .inl (callEntry_rejects _ _ _ entry h failure h' hfail hkind)
      | some index =>
        intro h failure h' hfail hkind
        simp only [callStart, hstart, bind_apply] at hfail
        cases hcall : callFunction ⟨m, links, config.allowance⟩ store config.allowance.steps index
            [] h with
        | error e k =>
          simp only [hcall] at hfail
          cases hfail
          exact absurd (callFunction_traps _ _ _ _ _ h _ _ hcall) hkind
        | ok ended k =>
          obtain ⟨results, store', left⟩ := ended
          simp only [hcall, pure_apply] at hfail
          -- From here on nothing is called any more.
          have hlast : k = h' := callEntry_rejects _ _ _ entry k failure h' hfail hkind
          rw [← hlast]
          exact .inr ⟨hlinks, hstore, hstart, hcall⟩

end Run

end LedgerSandbox
