import LedgerSandbox.Failure
import LedgerSandbox.Text.Json

/-!
# Responses

What a transaction answers. A failure is answered by a JSON object with its
code, kind and message. A guest's run is answered by the result the guest
handed over, or else by its return code in decimal; only the code −1 makes it a
failed run.
-/

namespace LedgerSandbox

/-- The answer to a transaction. -/
structure Response where
  success : Bool
  payload : Bytes
deriving DecidableEq

namespace Response

/-- The JSON object that describes a failure. -/
def failureJson (failure : Failure) : String :=
  "\x7b\"code\":" ++ toString failure.kind.code ++
  ",\"kind\":" ++ String.ofList (Text.jsonString failure.kind.name) ++
  ",\"reason\":" ++ String.ofList (Text.jsonString failure.message) ++ "\x7d"

/-- The answer to a transaction that failed. -/
def ofFailure (failure : Failure) : Response := ⟨false, encodeUtf8 (failureJson failure)⟩

/-- The answer to a transaction that succeeded. -/
def ofPayload (payload : Bytes) : Response := ⟨true, payload⟩

/-- The answer to a completed run of a guest. -/
def ofRun (code : Int64) (captured : Option Bytes) : Response where
  success := code ≠ failureCode
  payload := captured.getD (encodeUtf8 (toString code.toInt))

end Response

end LedgerSandbox
