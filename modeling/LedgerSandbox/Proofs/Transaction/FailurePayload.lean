import LedgerSandbox.Proofs.Text.JsonReader
import LedgerSandbox.Response
import Mathlib

/-!
# What the answer to a failed transaction tells

The payload of such an answer is a JSON object with three members: the code and the name of the
kind of the failure, and its message (`Response.isObject_ofFailure`). As the grammar of JSON
leaves no choice, they can be read from the payload again, whatever the message quotes. And they
tell failures apart, since the message of a failure of a given kind tells what the failure
carries (`Failure.eq_of_message`).

So nothing of a failure is lost in its answer (`Response.failures_told`).
-/

namespace LedgerSandbox

open Text

/-! ## Messages -/

theorem LedgerError.message_injective {e e' : LedgerError} (h : e.message = e'.message) : e = e' := by
  -- The messages of the two kinds differ in their first letter.
  have hkinds : ∀ reason reason', (invalidKey reason).message ≠ (backend reason').message := by
    intro reason reason' heq
    have hhead : ("invalid key: " ++ reason).toList.head? =
        ("ledger backend error: " ++ reason').toList.head? := congrArg (·.toList.head?) heq
    simp at hhead
  cases e with
  | invalidKey reason =>
    cases e' with
    | invalidKey reason' => exact congrArg invalidKey ((String.append_right_inj _).mp h)
    | backend reason' => exact absurd h (hkinds reason reason')
  | backend reason =>
    cases e' with
    | invalidKey reason' => exact absurd h.symm (hkinds reason' reason)
    | backend reason' => exact congrArg backend ((String.append_right_inj _).mp h)

namespace Failure

/-- The message tells failures of one kind apart. -/
theorem eq_of_message {f g : Failure} (hkind : f.kind = g.kind) (h : f.message = g.message) :
    f = g := by
  cases f with
  | invalidArguments reason =>
    cases g with
    | invalidArguments reason' => exact congrArg _ ((String.append_right_inj _).mp h)
    | _ => cases hkind
  | alreadyExists name =>
    cases g with
    | alreadyExists name' => exact congrArg _ ((String.append_right_inj _).mp h)
    | _ => cases hkind
  | notFound name =>
    cases g with
    | notFound name' => exact congrArg _ ((String.append_right_inj _).mp h)
    | _ => cases hkind
  | unsupportedFormat reason =>
    cases g with
    | unsupportedFormat reason' => exact congrArg _ ((String.append_right_inj _).mp h)
    | _ => cases hkind
  | multipleEntries count =>
    cases g with
    | multipleEntries count' =>
      exact congrArg _ (Nat.repr_injective ((String.append_right_inj _).mp h))
    | _ => cases hkind
  | invalidBytecode reason =>
    cases g with
    | invalidBytecode reason' => exact congrArg _ ((String.append_right_inj _).mp h)
    | _ => cases hkind
  | entryNotFound name =>
    cases g with
    | entryNotFound name' =>
      have hname := (String.append_left_inj _).mp h
      exact congrArg _ ((String.append_right_inj _).mp hname)
    | _ => cases hkind
  | initFailed code =>
    cases g with
    | initFailed code' =>
      have hcode := Int.repr_injective ((String.append_right_inj _).mp h)
      exact congrArg _ (Int64.toInt_inj.mp hcode)
    | _ => cases hkind
  | guestTrap reason =>
    cases g with
    | guestTrap reason' => exact congrArg _ ((String.append_right_inj _).mp h)
    | _ => cases hkind
  | ledger e =>
    cases g with
    | ledger e' =>
      exact congrArg _ (LedgerError.message_injective ((String.append_right_inj _).mp h))
    | _ => cases hkind
  | internal reason =>
    cases g with
    | internal reason' => exact congrArg _ ((String.append_right_inj _).mp h)
    | _ => cases hkind

end Failure

theorem FailureKind.code_injective {k k' : FailureKind} (h : k.code = k'.code) : k = k' := by
  cases k <;> cases k' <;> first | rfl | cases h

/-! ## Payloads -/

namespace Response

/-- The code, the name of the kind and the message of a failure, as members of an object. -/
def members (failure : Failure) : List Json.Member := [
  ("code", .number failure.kind.code),
  ("kind", .text failure.kind.name),
  ("reason", .text failure.message)]

theorem toList_failureJson (failure : Failure) :
    (failureJson failure).toList = Json.write ("code", .number failure.kind.code)
      [("kind", .text failure.kind.name), ("reason", .text failure.message)] := by
  have hnumber : toString failure.kind.code = String.ofList (Nat.toDigits 10 failure.kind.code) :=
    Nat.repr_eq_ofList_toDigits
  have hcode : jsonString "code" = ['"', 'c', 'o', 'd', 'e', '"'] := by decide
  have hkind : jsonString "kind" = ['"', 'k', 'i', 'n', 'd', '"'] := by decide
  have hreason : jsonString "reason" = ['"', 'r', 'e', 'a', 's', 'o', 'n', '"'] := by decide
  simp [failureJson, Json.write, Json.writeMembers, Json.writeMember, Json.Value.write, hnumber,
    hcode, hkind, hreason]

/-- Whether a payload is the UTF-8 form of a JSON object with some members. -/
def IsObject (payload : Bytes) (ms : List Json.Member) : Prop :=
  ∃ text, decodeUtf8? payload = some text ∧ Json.IsObject text.toList ms

/-- The members of the JSON object that a payload is. -/
def readPayload? (payload : Bytes) : Option (List Json.Member) :=
  (decodeUtf8? payload).bind fun text => Json.read? text.toList

theorem readPayload?_eq_some_iff {payload : Bytes} {ms : List Json.Member} :
    readPayload? payload = some ms ↔ IsObject payload ms := by
  rw [readPayload?, IsObject, Option.bind_eq_some_iff]
  simp only [Json.read?_eq_some_iff]

theorem isObject_ofFailure (failure : Failure) :
    IsObject (ofFailure failure).payload (members failure) := by
  refine ⟨failureJson failure, decodeUtf8?_encodeUtf8 _, ?_⟩
  rw [toList_failureJson]
  exact Json.isObject_write _ _

/-- The members tell failures apart. -/
theorem members_injective {f g : Failure} (h : members f = members g) : f = g := by
  simp only [members, List.cons.injEq, Prod.mk.injEq, Json.Value.number.injEq,
    Json.Value.text.injEq, true_and, and_true] at h
  obtain ⟨hcode, -, hmessage⟩ := h
  exact Failure.eq_of_message (FailureKind.code_injective hcode) hmessage

/-- What it means that a response tells all of a failure. -/
structure Tells (failure : Failure) (response : Response) : Prop where
  failed : response.success = false
  /-- The payload is a JSON object of the code, the kind and the message, and of nothing else. -/
  object : ∀ ms, IsObject response.payload ms ↔ ms = members failure
  /-- So these are what is read from it. -/
  read : readPayload? response.payload = some (members failure)
  /-- No other failure is answered with this payload. -/
  alone : ∀ other, (ofFailure other).payload = response.payload → other = failure

/-- **Failures are told in full** by the answers to them. -/
theorem failures_told (failure : Failure) : Tells failure (ofFailure failure) := by
  have hread : ∀ f, readPayload? (ofFailure f).payload = some (members f) := fun f =>
    readPayload?_eq_some_iff.mpr (isObject_ofFailure f)
  refine {
    failed := rfl
    object := fun ms => ?_
    read := hread failure
    alone := fun other hpayload => ?_ }
  · rw [← readPayload?_eq_some_iff, hread, Option.some.injEq, eq_comm]
  · refine members_injective (Option.some.inj ?_)
    rw [← hread other, ← hread failure, hpayload]

example : (ofFailure (.notFound "a\"\n")).payload = encodeUtf8 (
    "\x7b\"code\":102,\"kind\":\"NotFound\"," ++
      "\"reason\":\"no chaincode installed as a\\\"\\n\"\x7d") := by
  decide +kernel

end Response

end LedgerSandbox
