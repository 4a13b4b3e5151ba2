import LedgerSandbox.Proofs.Sandbox.Reuse
import LedgerSandbox.Proofs.Sandbox.TypedRun
import LedgerSandbox.Proofs.Transaction.Rejection
import Mathlib

/-!
# Answers to executions

The execution of a module is answered by the last result that the guest has handed over, or else
by the number that its entry function has given back (`Session.executions_answered`). Only the
number −1 makes the answer a failure, whatever has been handed over.

The run is taken with all the calls of the host that it makes, from the start function on, so what
counts as handed over is read off the calls and not off the state of the host. That the entry
function gives back a number at all is what the checks of the module ensure.
-/

namespace LedgerSandbox

variable {σ : Type} [Ledger σ]

namespace Session

open Run (CompletedRun StandsFor)

/-! ## Executions -/

/-- An execution of an installed module whose run completes. -/
structure Execution (s : Session σ) (name entry : String) (args : List Bytes) where
  bytecode : Bytes
  /-- The session once the module has been looked up. -/
  found : Session σ
  installed : Registry.lookup name s = .ok bytecode found
  module : Wasm.Module
  sandbox : Sandbox
  compiled : found.sandbox.compile bytecode = .ok (module, sandbox)
  run : CompletedRun sandbox.config module entry
    (startHost sandbox found.ledger { moduleName := name, args })

variable {s t : Session σ} {name entry : String} {args : List Bytes} {response : Response}

/-- The calls of the host that an execution makes, from the start function on. -/
def Execution.calls (e : Execution s name entry args) : List (GuestCall σ) := e.run.final.calls

/-- The session after an execution. -/
def Execution.after (e : Execution s name entry args) : Session σ :=
  ⟨{ e.sandbox with log := e.run.final.host.log }, e.run.final.host.ledger⟩

/-- What the host has kept is what the calls have handed over. -/
theorem Execution.captured_eq (e : Execution s name entry args) :
    e.run.final.host.invocation.captured = lastResult e.calls := by
  rw [e.run.leftBy.invocation]
  exact Option.or_none

/-- In a sandbox that there is, a module that is executed has passed the checks. -/
theorem Execution.checked (e : Execution s name entry args) {config : Config}
    (hused : Sandbox.Used config s.sandbox) : e.module.Checked config.allowFloats := by
  have hsame : e.found.sandbox = s.sandbox := by
    have hlookup := (Registry.lookup_readOnly name s).1
    rwa [e.installed] at hlookup
  have hsound : Sandbox.Sound config e.found.sandbox := hsame ▸ hused.sound
  exact checked_of_prepare (hsound.prepare_of_compile e.compiled)

theorem invoke_eq_ok_iff {bytecode : Bytes} {invocation : Invocation} {completion : Completion} :
    invoke bytecode entry invocation s = .ok completion t ↔
      ∃ m sandbox, s.sandbox.compile bytecode = .ok (m, sandbox) ∧
        ∃ run : CompletedRun sandbox.config m entry (startHost sandbox s.ledger invocation),
          completion = ⟨run.code, run.final.host.invocation.captured⟩ ∧
          t = ⟨{ sandbox with log := run.final.host.log }, run.final.host.ledger⟩ := by
  unfold invoke
  constructor
  · intro heq
    split at heq
    case h_1 => cases heq
    case h_2 m sandbox hcompile =>
      dsimp only at heq
      split at heq
      case h_2 => cases heq
      case h_1 code h hexecute =>
        cases heq
        obtain ⟨run, rfl, rfl⟩ := Run.execute_eq_ok_iff.mp hexecute
        exact ⟨m, sandbox, hcompile, run, rfl, rfl⟩
  · rintro ⟨m, sandbox, hcompile, run, rfl, rfl⟩
    have hexecute := run.execute_eq
    unfold startHost at hexecute
    rw [hcompile]
    dsimp only
    rw [hexecute]
    rfl

/-- What comes of an execution whose run completes. -/
theorem Execution.transact_eq (e : Execution s name entry args) :
    transact "execute" (encodeUtf8 name :: encodeUtf8 entry :: args) s =
      .ok (.ofRun e.run.code (lastResult e.calls)) e.after := by
  have harguments : executeArguments (encodeUtf8 name :: encodeUtf8 entry :: args) =
      .ok (name, entry, args) := executeArguments_eq_ok_iff.mpr rfl
  have hinvoke := invoke_eq_ok_iff.mpr ⟨_, _, e.compiled, e.run, rfl, rfl⟩
  rw [transact_execute, execute_eq, harguments, ← e.captured_eq]
  exact bind_eq_ok_iff.mpr ⟨_, _, e.installed, bind_eq_ok_iff.mpr ⟨_, _, hinvoke, rfl⟩⟩

/-- Only runs that complete are answered as runs. -/
theorem exists_execution
    (heq : transact "execute" (encodeUtf8 name :: encodeUtf8 entry :: args) s = .ok response t) :
    Nonempty (Execution s name entry args) := by
  have harguments : executeArguments (encodeUtf8 name :: encodeUtf8 entry :: args) =
      .ok (name, entry, args) := executeArguments_eq_ok_iff.mpr rfl
  rw [transact_execute, execute_eq, harguments] at heq
  obtain ⟨bytecode, found, hlookup, heq⟩ := bind_eq_ok_iff.mp heq
  obtain ⟨completion, u, hinvoke, heq⟩ := bind_eq_ok_iff.mp heq
  obtain ⟨m, sandbox, hcompile, run, -, -⟩ := invoke_eq_ok_iff.mp hinvoke
  exact ⟨⟨bytecode, found, hlookup, m, sandbox, hcompile, run⟩⟩

/-! ## Answers -/

/-- The decimal text of a code can be read back. -/
theorem toInt?_decimal (code : Int64) :
    (decodeUtf8? (encodeUtf8 (toString code.toInt))).bind String.toInt? = some code.toInt := by
  rw [decodeUtf8?_encodeUtf8]
  exact Int.toInt?_repr code.toInt

/-- How an execution is answered. -/
structure Answered (e : Execution s name entry args) (response : Response) : Prop where
  /-- The code of the run is 0 if the entry function gives nothing back, and its result, an
  integer, otherwise. -/
  code : ∀ number, StandsFor e.run.results number → e.run.code = number
  /-- In any sandbox that there is, the entry function gives back what it declares: nothing, or an
  integer. -/
  results : ∀ config, Sandbox.Used config s.sandbox →
    e.run.results.map Wasm.Value.type = e.run.type.results ∧ StandsFor e.run.results e.run.code
  /-- The code −1 makes the answer a failure, and no other does. -/
  success : response.success = false ↔ e.run.code = -1
  /-- What was handed over last is the answer, even if it is empty. -/
  result : ∀ result, lastResult e.calls = some result → response.payload = result
  /-- If nothing was, then the code is the answer, as a text that it can be read back from. -/
  decimal : lastResult e.calls = none →
    response.payload = encodeUtf8 (toString e.run.code.toInt) ∧
      (decodeUtf8? response.payload).bind String.toInt? = some e.run.code.toInt
  /-- Each call of `__return_result` either hands over what it names and is answered with 0, or it
  is refused for its range or the length and answered with −1. -/
  calls : ∀ call ∈ e.calls, call.function = .returnResult →
    (call.code = 0 ∧ ∃ result, call.HandsOver result ∧ call.result? = some result) ∨
      (call.code = -1 ∧ (∀ result, ¬ call.HandsOver result) ∧ call.result? = none)
  limits : ∀ call ∈ e.calls, call.caller.host.limits = e.sandbox.config.limits
  /-- An entry function that takes a parameter finds the number of arguments in it as it begins to
  run. -/
  received : e.run.type.params ≠ [] →
    ∃ (inside : Wasm.Machine) (value : Wasm.Value) (number : Int64),
      (Wasm.Machine.start e.module.instanceFunctions e.run.started.store e.run.index
        e.run.args).step = .running inside ∧
      inside.frame.locals[0]? = some value ∧ e.run.type.params = [value.type] ∧
      value.signed? = some number ∧ (args.length < 2 ^ 31 → number.toInt = args.length)

theorem Execution.answered (e : Execution s name entry args) :
    Answered e (.ofRun e.run.code (lastResult e.calls)) where
  code _ hnumber := hnumber.returnCode_eq
  results config hused := ⟨e.run.results_typed (e.checked hused), e.run.standsFor (e.checked hused)⟩
  success := by
    show decide (e.run.code ≠ failureCode) = false ↔ e.run.code = -1
    rw [decide_eq_false_iff_not, not_not]
    rfl
  result result hresult := by
    show (lastResult e.calls).getD _ = result
    rw [hresult]
    rfl
  decimal hnone := by
    have hpayload : (Response.ofRun e.run.code (lastResult e.calls)).payload =
        encodeUtf8 (toString e.run.code.toInt) := by
      rw [hnone]
      rfl
    rw [hpayload]
    exact ⟨rfl, toInt?_decimal e.run.code⟩
  calls call _ hfunction := call.accepted_or_refused hfunction
  limits := e.run.leftBy.calls
  received := e.run.received

/-- **Executions are answered with what was handed over last**, or else with the number that the
entry function has given back: whenever the module is installed and the run completes. No other
execution succeeds. -/
theorem executions_answered (s : Session σ) (name entry : String) (args : List Bytes) :
    (∀ e : Execution s name entry args,
      Answered e (dispatch "execute" (encodeUtf8 name :: encodeUtf8 entry :: args) s).1) ∧
    ((∃ response t, transact "execute" (encodeUtf8 name :: encodeUtf8 entry :: args) s =
      .ok response t) ↔ Nonempty (Execution s name entry args)) := by
  refine ⟨fun e => ?_, ?_, fun ⟨e⟩ => ⟨_, _, e.transact_eq⟩⟩
  · rw [dispatch, e.transact_eq]
    exact e.answered
  · rintro ⟨response, t, heq⟩
    exact exists_execution heq

/-- A module whose start function hands over an empty result. Its initializer tries to hand over
what is beyond the end of its memory, and gives back the number of its arguments with the
opposite sign. -/
def handsOver : Bytes := [
  0x00, 0x61, 0x73, 0x6D, 0x01, 0x00, 0x00, 0x00,
  -- The types of `__return_result`, of the start function and of `init`.
  0x01, 0x0F, 0x03, 0x60, 0x02, 0x7F, 0x7F, 0x01, 0x7F, 0x60, 0x00, 0x00,
  0x60, 0x01, 0x7F, 0x01, 0x7F,
  -- The import of `__return_result`.
  0x02, 0x17, 0x01, 0x03, 0x65, 0x6E, 0x76, 0x0F, 0x5F, 0x5F, 0x72, 0x65, 0x74, 0x75, 0x72, 0x6E,
  0x5F, 0x72, 0x65, 0x73, 0x75, 0x6C, 0x74, 0x00, 0x00,
  -- The two functions and a memory, the exports of the memory and of `init`, and the start.
  0x03, 0x03, 0x02, 0x01, 0x02, 0x05, 0x03, 0x01, 0x00, 0x00,
  0x07, 0x11, 0x02, 0x06, 0x6D, 0x65, 0x6D, 0x6F, 0x72, 0x79, 0x02, 0x00, 0x04, 0x69, 0x6E,
  0x69, 0x74, 0x00, 0x02, 0x08, 0x01, 0x01,
  -- The bodies of the start function and of `init`.
  0x0A, 0x1A, 0x02, 0x09, 0x00, 0x41, 0x00, 0x41, 0x00, 0x10, 0x00, 0x1A, 0x0B,
  0x0E, 0x00, 0x41, 0x00, 0x41, 0x01, 0x10, 0x00, 0x1A, 0x41, 0x00, 0x20, 0x00, 0x6B, 0x0B]

/-- A session in which that module has been installed on an empty ledger, under the name `m`. -/
def handsOverInstalled : Session MemoryLedger :=
  (submit ⟨"install", [encodeUtf8 "m", handsOver]⟩ Registry.fresh).2

/-- Called with one argument, the module gives back −1, so the answer is a failure. It holds the
empty result. -/
theorem executions_answered_handsOver :
    ∃ e : Execution handsOverInstalled "m" "init" [[7]],
      Answered e ⟨false, []⟩ ∧ StandsFor e.run.results (-1) := by
  have hdispatch : (dispatch "execute" [encodeUtf8 "m", encodeUtf8 "init", [7]]
      handsOverInstalled).1 = ⟨false, []⟩ := by
    decide +kernel
  have hok : failure? (transact "execute" [encodeUtf8 "m", encodeUtf8 "init", [7]]
      handsOverInstalled) = none := by
    decide +kernel
  obtain ⟨hanswered, hcompletes⟩ := executions_answered handsOverInstalled "m" "init" [[7]]
  obtain ⟨e⟩ := hcompletes.mp (exists_eq_ok_of_failure? hok)
  have he := hanswered e
  rw [hdispatch] at he
  have hnew : Sandbox.Used {} Registry.fresh.sandbox := .new
  have hused : Sandbox.Used {} handsOverInstalled.sandbox := by
    unfold handsOverInstalled
    exact .submit _ hnew
  have hstands := (he.results {} hused).2
  rw [he.success.mp rfl] at hstands
  exact ⟨e, he, hstands⟩

end Session

end LedgerSandbox
