import LedgerSandbox.Proofs.Registry.WritePhase
import LedgerSandbox.Transaction

/-!
# Failed installations without a trace

The writes of an initializer are buffered, and its module is recorded at the very end. So
whatever goes wrong before the ledger is sent its first change, it leaves no trace: the
ledger has received no write, and nothing that reads do not change has changed
(`Registry.failed_install_no_trace`), the contents of a dependable ledger among others
(`View.observer`). The only other way to fail is that the ledger refuses
one of the writes it is sent.

This holds for the transaction as well, which takes its arguments apart first
(`Session.install_eq`).
-/

namespace LedgerSandbox

/-- Whether a failure is the refusal of the last one of some writes. -/
def Registry.IsRefusal {σ : Type} (failure : Failure) (writes : List (WriteRecord σ)) : Prop :=
  ∃ w e, writes.getLast? = some w ∧ w.refusal = some e ∧ failure = .ledger e

theorem Registry.not_isRefusal_of_kind {σ : Type} {failure : Failure}
    (h : failure.kind ≠ .ledgerError) (writes : List (WriteRecord σ)) :
    ¬ IsRefusal failure writes := by
  rintro ⟨w, e, -, -, rfl⟩
  exact h rfl

/-! ## The arguments of an installation -/

/-- What the arguments of an installation name: the module, its bytecode, and the arguments
of the initializer. -/
def Session.installArguments : List Bytes → Except Failure (String × Bytes × List Bytes)
  | name :: submission :: args =>
    match decodeUtf8? name with
    | none => .error (.invalidArguments "module name is not valid UTF-8")
    | some name =>
      match Submission.decode submission with
      | .error failure => .error failure
      | .ok bytecode => .ok (name, bytecode, args)
  | _ => .error (.invalidArguments "install expects a name and encoded bytecode")

variable {σ : Type} [Ledger σ]

/-- The transaction takes its arguments apart, whatever the ledger, and installs. -/
theorem Session.install_eq (arguments : List Bytes) :
    (install arguments : EStateM Failure (Session σ) Response) =
      match installArguments arguments with
      | .error failure => throw failure
      | .ok (name, bytecode, args) => do
        Registry.install name bytecode args
        return .ofPayload (encodeUtf8 installed) := by
  match arguments with
  | [] => rfl
  | [_] => rfl
  | name :: submission :: args =>
    simp only [install, installArguments, textArgument]
    cases decodeUtf8? name with
    | none => rfl
    | some name =>
      simp only [pure_bind]
      cases Submission.decode submission with
      | error failure => rfl
      | ok bytecode => rfl

theorem Session.transact_install {function : String}
    (hfunction : function = "install" ∨ function = "create") (arguments : List Bytes) :
    (transact function arguments : EStateM Failure (Session σ) Response) = install arguments := by
  unfold transact Command.parse
  rw [if_pos hfunction]

namespace Registry

/-! ## Failures before the first write -/

/-- What it means that an action has left no trace on a ledger: no write was received, and
nothing has changed that reads do not change. -/
structure NoTrace (before after : σ) (writes : List (WriteRecord σ)) : Prop where
  writes : writes = []
  observe : ∀ {α : Type} (o : Observer σ α), o.observe after = o.observe before

theorem noTrace_of_install {name : String} {bytecode : Bytes} {args : List Bytes} {s t : Session σ}
    {failure : Failure} (hfail : install name bytecode args s = .error failure t)
    (hcause : ¬ IsRefusal failure (received (install name bytecode args s.recorded))) :
    NoTrace s.ledger t.ledger (received (install name bytecode args s.recorded)) := by
  have hrec := install_recorded hfail
  have hreception := install_reception name bytecode args s
  unfold received at hcause ⊢
  generalize install name bytecode args s.recorded = result at hcause hrec hreception
  cases hreception with
  | nothing failure t' hwrites hread =>
    cases hrec with
    | error _ rel => exact ⟨hwrites, fun o => rel.ledger ▸ hread.observe o⟩
  | part accepted w rest e t' _ hwrites _ _ hw =>
    cases hrec with
    | error _ rel =>
      refine absurd ⟨w, e, ?_, hw, rfl⟩ hcause
      rw [finalState_error, hwrites, List.getLast?_concat]
  | everything t' _ _ _ => cases hrec

/-- **Failed installations leave no trace** unless it is a write that fails: called
directly, or by a transaction. -/
theorem failed_install_no_trace (s : Session σ) :
    (∀ name bytecode args failure t, install name bytecode args s = .error failure t →
      ¬ IsRefusal failure (received (install name bytecode args s.recorded)) →
      NoTrace s.ledger t.ledger (received (install name bytecode args s.recorded))) ∧
    ∀ function arguments failure t, function = "install" ∨ function = "create" →
      Session.transact function arguments s = .error failure t →
      ¬ IsRefusal failure (received (Session.transact function arguments s.recorded)) →
      Session.dispatch function arguments s = (.ofFailure failure, t) ∧
      NoTrace s.ledger t.ledger (received (Session.transact function arguments s.recorded)) := by
  refine ⟨fun name bytecode args failure t => noTrace_of_install, ?_⟩
  intro function arguments failure t hfunction hfail hcause
  refine ⟨by rw [Session.dispatch, hfail], ?_⟩
  rw [Session.transact_install hfunction, Session.install_eq] at hfail hcause ⊢
  cases harguments : Session.installArguments arguments with
  | error e =>
    rw [harguments] at hfail
    cases hfail
    exact ⟨rfl, fun _ => rfl⟩
  | ok parts =>
    obtain ⟨name, bytecode, args⟩ := parts
    rw [harguments] at hfail hcause
    dsimp only at hfail hcause ⊢
    rw [received_bind_pure] at hcause ⊢
    exact noTrace_of_install (error_of_bind_pure hfail) hcause

/-- An empty ledger. -/
def fresh : Session MemoryLedger := ⟨newSandbox, ⟨∅⟩⟩

/-- The initializer puts a value before it returns 1, and the other transaction lacks its
arguments. -/
theorem failed_install_no_trace_fresh :
    failure? (install "m" (putGuest 1) [] fresh) = some (.initFailed 1) ∧
      NoTrace fresh.ledger (finalState (install "m" (putGuest 1) [] fresh)).ledger
        (received (install "m" (putGuest 1) [] fresh.recorded)) ∧
      failure? (Session.transact "create" [] fresh) =
        some (.invalidArguments "install expects a name and encoded bytecode") ∧
      NoTrace fresh.ledger (finalState (Session.transact "create" [] fresh)).ledger
        (received (Session.transact "create" [] fresh.recorded)) := by
  have hinit : failure? (install "m" (putGuest 1) [] fresh) = some (.initFailed 1) := by
    decide +kernel
  have harguments : failure? (Session.transact "create" [] fresh) =
      some (.invalidArguments "install expects a name and encoded bytecode") := by
    decide +kernel
  refine ⟨hinit, ?_, harguments, ?_⟩
  · exact (failed_install_no_trace fresh).1 _ _ _ _ _ (eq_error_of_failure? hinit)
      (not_isRefusal_of_kind (by decide) _)
  · exact ((failed_install_no_trace fresh).2 _ _ _ _ (.inr rfl) (eq_error_of_failure? harguments)
      (not_isRefusal_of_kind (by decide) _)).2

end Registry

end LedgerSandbox
