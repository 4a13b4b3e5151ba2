import LedgerSandbox.Proofs.Sandbox.Rejection
import LedgerSandbox.Proofs.Transaction.Order

/-!
# Executions that are rejected

An execution is rejected if there is no such module, if the module has no such entry function,
or if its bytecode cannot be run. Then the entry function has not been called. A rejected
execution leaves the ledger as it was, or as the start function of the module has left it
(`Session.rejected_execution_ledger`).

The latter does happen (`Session.rejected_execution_changes_ledger`): executions, unlike
installations, are not buffered, and a start function runs while an instance is made, before the
entry function is looked up.
-/

namespace LedgerSandbox

variable {σ : Type} [Ledger σ]

namespace Session

/-- The host in which a run of a module starts. -/
def startHost (sandbox : Sandbox) (ledger : σ) (invocation : Invocation) : HostState σ where
  invocation
  limits := sandbox.config.limits
  ledger
  log := sandbox.log

/-- Whether a session holds the ledger that the start function of some bytecode has left, run
from another session. -/
inductive LeftByStart (bytecode : Bytes) (invocation : Invocation) (s t : Session σ) : Prop
  | intro {m : Wasm.Module} {sandbox : Sandbox} {h : HostState σ} :
    s.sandbox.compile bytecode = .ok (m, sandbox) →
    Run.StartRan sandbox.config m (startHost sandbox s.ledger invocation) h →
    t.ledger = h.ledger → LeftByStart bytecode invocation s t

theorem invoke_rejects (bytecode : Bytes) (entry : String) (invocation : Invocation) :
    Rejects (fun s t => t.ledger = s.ledger ∨ LeftByStart bytecode invocation s t)
      (invoke bytecode entry invocation : EStateM Failure (Session σ) _) := by
  intro s failure t hfail hkind
  unfold invoke at hfail
  split at hfail
  case h_1 =>
    cases hfail
    exact .inl rfl
  case h_2 m sandbox hcompile =>
    dsimp only at hfail
    split at hfail
    case h_1 => cases hfail
    case h_2 e h hexecute =>
      cases hfail
      rcases Run.execute_rejects _ _ _ _ _ _ hexecute hkind with hsame | hstart
      · exact .inl (congrArg HostState.ledger hsame.symm)
      · exact .inr ⟨hcompile, hstart, rfl⟩

end Session

/-- A look-up reads the ledger only. -/
theorem Registry.lookup_readOnly (name : String) (s : Session σ) :
    (finalState (lookup name s)).sandbox = s.sandbox ∧
      ReadOnly s.ledger (finalState (lookup name s)).ledger := by
  unfold lookup
  cases hname : ModuleName.validate name with
  | error failure => exact ⟨rfl, .refl⟩
  | ok _ =>
    have hkey : recordKey name = .ok (recordBytes name) := recordKey_of_accepted hname
    have hread : ReadOnly s.ledger (finalState (Ledger.get (recordBytes name) s.ledger)) :=
      .get _ .refl
    simp only [findKey, hkey, pure_bind]
    rw [bind_apply, Session.onLedger]
    cases hget : (Ledger.get (recordBytes name) s.ledger : EStateM.Result LedgerError σ _) with
    | error e l =>
      rw [hget] at hread
      exact ⟨rfl, hread⟩
    | ok found l =>
      rw [hget] at hread
      cases found with
      | none => exact ⟨rfl, hread⟩
      | some bytecode => exact ⟨rfl, hread⟩

namespace Session

/-- What a rejected execution leaves on the ledger. -/
inductive AfterRejection (arguments : List Bytes) (failure : Failure) (s t : Session σ) : Prop
  /-- No code of the module has run: nothing has changed that reads do not change. -/
  | asBefore : (∀ {α : Type} (o : Observer σ α), o.observe t.ledger = o.observe s.ledger) →
    AfterRejection arguments failure s t
  /-- The module has a start function, and the ledger is as that has left it. -/
  | asStartLeft {name entry : String} {args : List Bytes} {bytecode : Bytes} {found : Session σ} :
    executeArguments arguments = .ok (name, entry, args) →
    Registry.lookup name s = .ok bytecode found →
    LeftByStart bytecode { moduleName := name, args } found t →
    failure.kind ≠ .notFound →
    AfterRejection arguments failure s t

theorem transact_execute (arguments : List Bytes) :
    (transact "execute" arguments : EStateM Failure (Session σ) Response) = execute arguments := by
  have hparse : Command.parse "execute" = .ok .execute := by decide
  unfold transact
  rw [hparse]

/-- **Rejected executions.** If an execution fails because there is no such module or entry
function, or because the bytecode cannot be run, then the ledger is as it was, or as the start
function of the module has left it. -/
theorem rejected_execution_ledger {s t : Session σ} {arguments : List Bytes} {failure : Failure}
    (hfail : transact "execute" arguments s = .error failure t)
    (hkind : failure.kind ∈ [.notFound, .entryNotFound, .invalidBytecode]) :
    dispatch "execute" arguments s = (.ofFailure failure, t) ∧
      AfterRejection arguments failure s t := by
  refine ⟨by rw [dispatch, hfail], ?_⟩
  have htrap : failure.kind ≠ .guestTrap := by
    rintro heq
    simp [heq] at hkind
  rw [transact_execute, execute_eq] at hfail
  cases harguments : executeArguments arguments with
  | error e =>
    rw [harguments] at hfail
    cases hfail
    exact .asBefore fun _ => rfl
  | ok parts =>
    obtain ⟨name, entry, args⟩ := parts
    rw [harguments] at hfail
    dsimp only at hfail
    rw [bind_apply] at hfail
    obtain ⟨-, hread⟩ := Registry.lookup_readOnly name s
    cases hlookup : Registry.lookup name s with
    | error e u =>
      rw [hlookup] at hfail hread
      cases hfail
      exact .asBefore fun o => hread.observe o
    | ok bytecode found =>
      rw [hlookup] at hfail hread
      have hinvoke : invoke bytecode entry { moduleName := name, args } found = .error failure t := by
        dsimp only at hfail
        rw [bind_apply] at hfail
        cases hrun : invoke bytecode entry { moduleName := name, args } found with
        | ok completion u =>
          rw [hrun] at hfail
          cases hfail
        | error e u =>
          rw [hrun] at hfail
          cases hfail
          rfl
      have hrun : failure.IsOfRun := invoke_fails _ _ _ _ _ _ hinvoke
      rcases invoke_rejects _ _ _ _ _ _ hinvoke htrap with hsame | hleft
      · refine .asBefore fun o => ?_
        rw [hsame]
        exact hread.observe o
      · refine .asStartLeft harguments hlookup hleft fun heq => ?_
        cases failure with
        | notFound name => exact hrun
        | _ => cases heq

/-! ## A start function that writes -/

/-- A module whose start function puts the empty value under the empty key, and whose
initializer deletes the key and returns 0. -/
def startPuts : Bytes := [
  0x00, 0x61, 0x73, 0x6D, 0x01, 0x00, 0x00, 0x00,
  -- The types of `__put_state`, of `__delete_state`, of the start function and of `init`.
  0x01, 0x16, 0x04, 0x60, 0x04, 0x7F, 0x7F, 0x7F, 0x7F, 0x01, 0x7F,
  0x60, 0x02, 0x7F, 0x7F, 0x01, 0x7F, 0x60, 0x00, 0x00, 0x60, 0x00, 0x01, 0x7F,
  -- The imports of `__put_state` and `__delete_state`.
  0x02, 0x28, 0x02, 0x03, 0x65, 0x6E, 0x76, 0x0B, 0x5F, 0x5F, 0x70, 0x75, 0x74, 0x5F, 0x73,
  0x74, 0x61, 0x74, 0x65, 0x00, 0x00, 0x03, 0x65, 0x6E, 0x76, 0x0E, 0x5F, 0x5F, 0x64, 0x65,
  0x6C, 0x65, 0x74, 0x65, 0x5F, 0x73, 0x74, 0x61, 0x74, 0x65, 0x00, 0x01,
  -- The two functions and a memory, the exports of the memory and of `init`, and the start.
  0x03, 0x03, 0x02, 0x02, 0x03, 0x05, 0x03, 0x01, 0x00, 0x00,
  0x07, 0x11, 0x02, 0x06, 0x6D, 0x65, 0x6D, 0x6F, 0x72, 0x79, 0x02, 0x00, 0x04, 0x69, 0x6E,
  0x69, 0x74, 0x00, 0x03, 0x08, 0x01, 0x02,
  -- The bodies of the start function and of `init`.
  0x0A, 0x1B, 0x02, 0x0D, 0x00, 0x41, 0x00, 0x41, 0x00, 0x41, 0x00, 0x41, 0x00, 0x10, 0x00,
  0x1A, 0x0B, 0x0B, 0x00, 0x41, 0x00, 0x41, 0x00, 0x10, 0x01, 0x1A, 0x41, 0x00, 0x0B]

/-- A session in which that module has been installed on an empty ledger, under the name `m`. -/
def startPutsInstalled : Session MemoryLedger :=
  (submit ⟨"install", [encodeUtf8 "m", startPuts]⟩ Registry.fresh).2

/-- A call of a function that the module does not have. -/
def missingEntry : List Bytes := [encodeUtf8 "m", encodeUtf8 "nope"]

/-- The entry function is not found, but the start function has put a value. -/
theorem rejected_execution_changes_ledger :
    failure? (transact "execute" missingEntry startPutsInstalled) = some (.entryNotFound "nope") ∧
      (dispatch "execute" missingEntry startPutsInstalled).2.ledger ≠ startPutsInstalled.ledger := by
  refine ⟨by decide +kernel, fun heq => ?_⟩
  have hbefore : startPutsInstalled.ledger.contents.get? (guestKey "m" []) = none := by
    decide +kernel
  have hafter : (dispatch "execute" missingEntry startPutsInstalled).2.ledger.contents.get?
      (guestKey "m" []) = some [] := by
    decide +kernel
  rw [heq, hbefore] at hafter
  cases hafter

theorem rejected_execution_ledger_missingEntry :
    failure? (transact "execute" missingEntry startPutsInstalled) = some (.entryNotFound "nope") ∧
      (Failure.entryNotFound "nope").kind ∈
        [FailureKind.notFound, .entryNotFound, .invalidBytecode] ∧
      AfterRejection missingEntry (.entryNotFound "nope") startPutsInstalled
        (finalState (transact "execute" missingEntry startPutsInstalled)) := by
  have hfail : failure? (transact "execute" missingEntry startPutsInstalled) =
      some (.entryNotFound "nope") := by
    decide +kernel
  have hkind : (Failure.entryNotFound "nope").kind ∈
      [FailureKind.notFound, .entryNotFound, .invalidBytecode] := by
    decide
  exact ⟨hfail, hkind, (rejected_execution_ledger (eq_error_of_failure? hfail) hkind).2⟩

end Session

end LedgerSandbox
