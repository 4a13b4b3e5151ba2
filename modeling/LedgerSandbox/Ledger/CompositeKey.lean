import LedgerSandbox.Ledger.Basic
import LedgerSandbox.Text.Quoted

/-!
# Composite keys

A composite key joins an index label and a list of parts into one ledger key,
each component ended by U+0000, with one more U+0000 in front. The keys of one
index, and of all part lists with a common beginning, therefore stand together
in key order, and one range scan finds them (`scan`).

Neither U+0000 nor U+10FFFF may occur in a component: the first ends components,
the second stands above all keys of a scan.
-/

namespace LedgerSandbox.CompositeKey

/-- Ends every component. -/
def delimiter : Char := '\x00'

/-- The greatest character, which no component holds. -/
def maxChar : Char := Char.ofNat 0x10FFFF

/-- Whether a character may not occur in a component. -/
def isReserved (c : Char) : Bool := c = delimiter || c = maxChar

/-- Refuses a component that holds a reserved character. -/
def checkComponent (component : String) : Except LedgerError Unit :=
  if component.toList.any isReserved then
    throw (.invalidKey s!"composite key component {Text.quoted component} contains a reserved character")
  else pure ()

/-- A component with its end. -/
def component (text : String) : Bytes := encodeUtf8 text ++ [0]

/-- The composite key of an index label and parts. -/
def create (index : String) (parts : List String) : Except LedgerError Key := do
  checkComponent index
  parts.forM checkComponent
  return 0 :: component index ++ parts.flatMap component

/-- The texts between the delimiters of a list of characters. -/
def splitComponents : List Char → List (List Char)
  | [] => [[]]
  | c :: rest =>
    if c = delimiter then [] :: splitComponents rest
    else match splitComponents rest with
      | [] => [[c]]
      | first :: others => (c :: first) :: others

/-- The index label and the parts of a composite key. -/
def split (key : Key) : Except LedgerError (String × List String) :=
  match decodeUtf8? key with
  | none => throw (.invalidKey "composite key is not valid UTF-8")
  | some text =>
    match text.toList with
    | [] => throw (.invalidKey "not a composite key")
    | c :: body =>
      if c ≠ delimiter then throw (.invalidKey "not a composite key")
      else if body.getLast? ≠ some delimiter then
        throw (.invalidKey "unterminated composite key")
      else match splitComponents body.dropLast with
        | [] => pure ("", [])
        | index :: parts => pure (String.ofList index, parts.map String.ofList)

/-- The exclusive upper bound of the range that holds the keys starting with
`start`. -/
def rangeEnd (start : Bytes) : Bytes := start ++ encodeUtf8 (String.singleton maxChar)

/-- Scans the composite keys under an index whose leading parts are the given
ones. -/
def scan {σ : Type} [Ledger σ] (index : String) (parts : List String) :
    EStateM LedgerError σ Scan := do
  match create index parts with
  | .error e => throw e
  | .ok key => Ledger.range key (rangeEnd key)

end LedgerSandbox.CompositeKey
