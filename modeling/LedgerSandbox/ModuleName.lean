import LedgerSandbox.Failure
import LedgerSandbox.Text.Quoted

/-!
# Module names

A module's name starts all ledger keys of its guest and is a component of the
key of its record. The characters that end the one or the other may not occur
in it.
-/

namespace LedgerSandbox.ModuleName

/-- Whether a character may not occur in a module name: the underscore, which ends
the name in a guest's keys, and the two characters reserved in composite keys. -/
def isReserved (c : Char) : Bool := c = '_' || c = '\x00' || c = Char.ofNat 0x10FFFF

/-- Refuses a name that is empty or holds a reserved character. -/
def validate (name : String) : Except Failure Unit :=
  if name = "" then throw (.invalidArguments "module name is empty")
  else match name.toList.find? isReserved with
    | none => pure ()
    | some c => throw (.invalidArguments
        s!"module name {Text.quoted name} contains reserved character {Text.quotedChar c}")

end LedgerSandbox.ModuleName
