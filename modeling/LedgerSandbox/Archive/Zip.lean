import LedgerSandbox.Archive.Checksum
import LedgerSandbox.Archive.CodePage
import LedgerSandbox.Archive.Inflate

/-!
# Zip archives

An archive ends with an *end record*, which says where the directory of its
entries is. The end record is looked for from the end of the file backwards; one
that does not lead to a sound directory is passed over. The directory may stand
later in the file than the end record says, by an offset that then applies to
all places the directory names: an archive may be put behind other data.

Sizes, methods and checksums are taken from the directory; of the header in
front of an entry's data only its own length counts.
-/

namespace LedgerSandbox.Archive

/-- A number stored with its lowest byte first; what is past the end reads as 0. -/
def littleEndian (data : ByteArray) (index : Nat) : (width : Nat) → Nat
  | 0 => 0
  | n + 1 =>
    (if h : index < data.size then data[index].toNat else 0) +
      256 * littleEndian data (index + 1) n

/-- Whether a four-byte mark stands at an index. -/
def hasMark (data : ByteArray) (index mark : Nat) : Bool :=
  index + 4 ≤ data.size && littleEndian data index 4 = mark

/-- The mark of an end record. -/
def endMark : Nat := 0x06054B50

/-- The mark of a directory record. -/
def directoryMark : Nat := 0x02014B50

/-- The mark of the header in front of an entry's data. -/
def headerMark : Nat := 0x04034B50

/-- What the directory says of an entry. -/
structure Entry where
  name : String
  isEncrypted : Bool
  method : Nat
  checksum : UInt32
  /-- The number of bytes that the data takes in the archive. -/
  storedSize : Nat
  /-- Where the header in front of the data starts. -/
  header : Nat

/-- Whether the extra fields between two indices hold one of the given kind. A field
that does not fit is ignored. -/
def hasExtraField (data : ByteArray) (kind : Nat) : (budget index stop : Nat) → Bool
  | 0, _, _ => false
  | budget + 1, index, stop =>
    if stop < index + 4 then false
    else
      let length := littleEndian data (index + 2) 2
      if stop < index + 4 + length then false
      else littleEndian data index 2 = kind || hasExtraField data kind budget (index + 4 + length) stop

/-- The method number, and the kind of extra field, of encrypted data. -/
def encryptedMethod : Nat := 99

/-- The kind of extra field that says how data is encrypted. -/
def encryptionField : Nat := 0x9901

/-- Reads the directory record at an index: the entry, and the index after the record.
`shift` is the offset of the archive in the file, `directory` the start of the
directory, before which all entries must lie. -/
def readRecord (data : ByteArray) (shift directory index : Nat) : Option (Entry × Nat) :=
  let flags := littleEndian data (index + 8) 2
  let method := littleEndian data (index + 10) 2
  let nameLength := littleEndian data (index + 28) 2
  let extraLength := littleEndian data (index + 30) 2
  let commentLength := littleEndian data (index + 32) 2
  let nameStop := index + 46 + nameLength
  let stop := nameStop + extraLength + commentLength
  let header := shift + littleEndian data (index + 42) 4
  let hasEncryption :=
    hasExtraField data encryptionField (extraLength + 1) nameStop (nameStop + extraLength)
  if !hasMark data index directoryMark || data.size < stop || directory ≤ header ||
      (method = encryptedMethod && !hasEncryption) then none
  else
    let entry := {
      name := decodeName (flags / 2048 % 2 = 1)
        (Bytes.ofByteArray (data.extract (index + 46) nameStop))
      isEncrypted := flags % 2 = 1 || hasEncryption
      method
      checksum := UInt32.ofNat (littleEndian data (index + 16) 4)
      storedSize := littleEndian data (index + 20) 4
      header }
    some (entry, stop)

/-- Reads a number of consecutive directory records. -/
def readRecords (data : ByteArray) (shift directory : Nat) :
    (count index : Nat) → Option (List Entry)
  | 0, _ => some []
  | n + 1, index => do
    let (entry, next) ← readRecord data shift directory index
    let rest ← readRecords data shift directory n next
    return entry :: rest

/-- The first of the given number of places from an index on where a directory record
starts. -/
def findRecord (data : ByteArray) (index : Nat) : (count : Nat) → Option Nat
  | 0 => none
  | n + 1 =>
    if hasMark data index directoryMark then some index else findRecord data (index + 1) n

/-- The entries of the archive whose end record stands at an index, if it is a sound
one. -/
def entriesAt (data : ByteArray) (index : Nat) : Option (List Entry) :=
  if !hasMark data index endMark || data.size < index + 22 + littleEndian data (index + 20) 2 then
    none
  else
    let diskNumber := littleEndian data (index + 4) 2
    let directoryDisk := littleEndian data (index + 6) 2
    let count := littleEndian data (index + 8) 2
    let total := littleEndian data (index + 10) 2
    let directory := littleEndian data (index + 16) 4
    -- Without entries there is no directory record to find.
    let start :=
      if total = 0 then some (max index directory)
      else if index ≤ directory then none
      else findRecord data directory (index - directory)
    match start with
    | none => none
    | some start =>
      if diskNumber ≠ directoryDisk then none
      else readRecords data (start - directory) start count start

/-- The entries of the archive with the last sound end record before an index. -/
def findEntries (data : ByteArray) : (index : Nat) → Option (List Entry)
  | 0 => none
  | n + 1 =>
    match entriesAt data n with
    | some entries => some entries
    | none => findEntries data n

/-- The entries of an archive in the order of its directory, or `none` if the file is
no archive. -/
def entries? (data : ByteArray) : Option (List Entry) := findEntries data data.size

/-- The number of different texts in a sorted list. -/
def countSorted : List String → Nat
  | [] => 0
  | [_] => 1
  | a :: b :: rest => (if a = b then 0 else 1) + countSorted (b :: rest)

/-- The number of entries of an archive. Entries of one name count once. -/
def entryCount (entries : List Entry) : Nat :=
  countSorted ((entries.map (·.name)).mergeSort fun a b => a ≤ b)

/-- The data of an entry: all of it, or more than `limit` bytes of it. -/
def Entry.read? (entry : Entry) (data : ByteArray) (limit : Nat) : Option ByteArray := do
  guard !entry.isEncrypted
  guard (hasMark data entry.header headerMark && entry.header + 30 ≤ data.size)
  let start := entry.header + 30 + littleEndian data (entry.header + 26) 2 +
    littleEndian data (entry.header + 28) 2
  let stored := data.extract start (start + entry.storedSize)
  let content ←
    if entry.method = 0 then some stored
    else if entry.method = 8 then (inflate limit stored).toOption
    else none
  -- Data that was cut off at the limit cannot be checked.
  guard (limit < content.size || crc32 content = entry.checksum)
  return content

end LedgerSandbox.Archive
