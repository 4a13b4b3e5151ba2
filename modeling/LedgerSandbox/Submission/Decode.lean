import LedgerSandbox.Archive.Zip
import LedgerSandbox.Failure
import LedgerSandbox.Submission.FileType
import LedgerSandbox.Submission.Hex

/-!
# Submissions

Bytecode may be submitted as hexadecimal text, as it is, or as the only entry of
a zip archive (`decode`). The form is told from the first bytes; a text may have
white space around it.
-/

namespace LedgerSandbox.Submission

/-- How all bytecode starts: the magic number, and version 1. -/
def bytecodeStart : Bytes := [0x00, 0x61, 0x73, 0x6D, 0x01, 0x00, 0x00, 0x00]

/-- How bytecode in hexadecimal starts. -/
def hexStart : Bytes := encodeUtf8 "0061736d01000000"

/-- A text without the white space around it. -/
def trim (text : Bytes) : Bytes :=
  ((text.dropWhile isBlank).reverse.dropWhile isBlank).reverse

/-- Whether a submission is hexadecimal text. -/
def isHex (raw : Bytes) : Bool := startsLike hexStart ((trim raw).take hexStart.length)

/-- Whether a submission is bytecode as it is. -/
def isBytecode (raw : Bytes) : Bool := bytecodeStart.isPrefixOf raw

/-- The ways in which an archive can start. -/
def archiveStarts : List Bytes :=
  [[0x50, 0x4B, 0x03, 0x04], [0x50, 0x4B, 0x05, 0x06], [0x50, 0x4B, 0x07, 0x08],
   [0x50, 0x4B, 0x30, 0x30, 0x50, 0x4B, 0x03, 0x04]]

/-- Whether a submission is an archive. -/
def isArchive (raw : Bytes) : Bool := archiveStarts.any (·.isPrefixOf raw)

/-- The most bytes that an archive may hold. -/
def maxContent : Nat := 16777216

/-- The only entry of an archive. -/
def extractSingle (raw : Bytes) : Except Failure Bytes :=
  let data := raw.toByteArray
  match Archive.entries? data with
  | none => throw (.unsupportedFormat "zip: no end record leads to a directory")
  | some entries =>
    let count := Archive.entryCount entries
    match if count = 1 then entries.getLast? else none with
    | none => throw (.multipleEntries count)
    | some entry =>
      match entry.read? data maxContent with
      | none => throw (.unsupportedFormat "zip entry: the data cannot be read")
      | some content =>
        if maxContent < content.size then
          throw (.unsupportedFormat s!"archive entry exceeds {maxContent} bytes")
        else return .ofByteArray content

/-- The bytecode that a submission holds. -/
def decode (raw : Bytes) : Except Failure Bytes :=
  if isHex raw then
    match Hex.decode (trim raw) with
    | .ok bytes => return bytes
    | .error fault => throw (.unsupportedFormat s!"invalid hex: {fault.message}")
  else if isBytecode raw then return raw
  else if isArchive raw then extractSingle raw
  else throw (.unsupportedFormat ((fileType? raw).getD "unknown file type"))

end LedgerSandbox.Submission
