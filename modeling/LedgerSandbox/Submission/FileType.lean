import LedgerSandbox.Bytes

/-!
# File types

What a submission that cannot be read seems to be, told from its first bytes. The
signatures are tried in order, and the first that fits decides.
-/

namespace LedgerSandbox.Submission

/-- How files of a type start. -/
structure Signature where
  /-- The name of the type. -/
  mime : String
  /-- Bytes, with the index at which they stand. -/
  marks : List (Nat × Bytes)
  /-- The least length of a file of the type. -/
  minLength : Nat := 0
  /-- What else must hold of the file. -/
  also : Bytes → Bool := fun _ => true

namespace Signature

/-- Whether a file fits a signature. -/
def fits (s : Signature) (file : Bytes) : Bool :=
  s.marks.all (fun mark => mark.2.isPrefixOf (file.drop mark.1)) &&
    s.minLength ≤ file.length && s.also file

/-- The signature of a type whose files start with the given bytes. -/
def start (mime : String) (bytes : Bytes) (minLength : Nat := 0) : Signature where
  mime
  marks := [(0, bytes)]
  minLength

/-- The signature of a type whose files start with the given text. -/
def startText (mime text : String) (minLength : Nat := 0) : Signature :=
  start mime (encodeUtf8 text) minLength

end Signature

/-- An ASCII letter in lower case; any other byte as it is. -/
def lowerAscii (b : UInt8) : UInt8 := if 0x41 ≤ b && b ≤ 0x5A then b + 0x20 else b

/-- Whether a text starts with another one, the case of ASCII letters aside. -/
def startsLike (start text : Bytes) : Bool :=
  (start.map lowerAscii).isPrefixOf (text.map lowerAscii)

/-- White space in front of a document. -/
def isBlank (b : UInt8) : Bool := b = 0x09 || b = 0x0A || b = 0x0C || b = 0x0D || b = 0x20

/-- A text without the byte order marks in front of it. -/
def skipByteOrderMarks : Bytes → Bytes
  | 0xEF :: 0xBB :: 0xBF :: rest => skipByteOrderMarks rest
  | 0xFE :: 0xFF :: rest => skipByteOrderMarks rest
  | 0xFF :: 0xFE :: rest => skipByteOrderMarks rest
  | text => text

/-- The beginnings of HTML documents, each of which a space or `>` must follow. -/
def htmlStarts : List String :=
  ["<!DOCTYPE HTML", "<HTML", "<HEAD", "<SCRIPT", "<IFRAME", "<H1", "<DIV", "<FONT", "<TABLE",
   "<A", "<STYLE", "<TITLE", "<B", "<BODY", "<BR", "<P", "<!--"]

/-- Whether a file looks like HTML. -/
def isHtml (file : Bytes) : Bool :=
  let text := file.dropWhile isBlank
  htmlStarts.any fun tag =>
    startsLike (encodeUtf8 tag) (text.take tag.length) &&
      match text.drop tag.length with
      | next :: _ => next = 0x20 || next = 0x3E
      | [] => false

/-- Whether a file looks like XML. -/
def isXml (file : Bytes) : Bool :=
  startsLike (encodeUtf8 "<?xml") ((skipByteOrderMarks (file.dropWhile isBlank)).take 5)

/-- The number made up by four bytes from index 4 on, the highest byte first. -/
def wordAtFour (file : Bytes) : Nat :=
  ((file.drop 4).take 4).foldl (fun n b => 256 * n + b.toNat) 0

/-- The first four bytes of a compiled class and of a fat binary. -/
def classMark : Bytes := [0xCA, 0xFE, 0xBA, 0xBE]

/-- The signatures of the known types. -/
def signatures : List Signature := [
  .start "application/x-executable" [0x7F, 0x45, 0x4C, 0x46] 53,
  .startText "application/vnd.microsoft.portable-executable" "MZ",
  { Signature.start "application/java" classMark 8 with also := fun file => 45 ≤ wordAtFour file },
  .startText "application/x-llvm" "BC",
  .start "application/x-mach-binary" classMark 8,
  .startText "application/x-x509-ca-cert" "-----BEGIN " 12,
  .start "image/jpeg" [0xFF, 0xD8, 0xFF],
  .start "image/png" [0x89, 0x50, 0x4E, 0x47],
  .startText "image/gif" "GIF",
  ⟨"image/webp", [(8, encodeUtf8 "WEBP")], 0, fun _ => true⟩,
  .start "image/tiff" [0x49, 0x49, 0x2A, 0x00] 10,
  .startText "image/bmp" "BM",
  .startText "image/vnd.adobe.photoshop" "8BPS",
  .start "image/vnd.microsoft.icon" [0x00, 0x00, 0x01, 0x00],
  .startText "audio/midi" "MThd",
  .startText "audio/mpeg" "ID3",
  .startText "audio/ogg" "OggS",
  .startText "audio/x-flac" "fLaC",
  ⟨"audio/x-wav", [(0, encodeUtf8 "RIFF"), (8, encodeUtf8 "WAVE")], 0, fun _ => true⟩,
  .start "application/font-woff" (encodeUtf8 "wOFF" ++ [0x00, 0x01, 0x00, 0x00]),
  ⟨"application/x-tar", [(257, encodeUtf8 "ustar")], 0, fun _ => true⟩,
  .start "application/vnd.rar" (encodeUtf8 "Rar!" ++ [0x1A, 0x07, 0x00]),
  .start "application/vnd.rar" (encodeUtf8 "Rar!" ++ [0x1A, 0x07, 0x01]),
  .start "application/gzip" [0x1F, 0x8B, 0x08],
  .startText "application/x-bzip2" "BZh",
  .start "application/x-7z-compressed" [0x37, 0x7A, 0xBC, 0xAF, 0x27, 0x1C],
  .start "application/x-xz" [0xFD, 0x37, 0x7A, 0x58, 0x5A, 0x00],
  .startText "application/pdf" "%PDF",
  .start "application/rtf" [0x7B, 0x5C, 0x72, 0x74, 0x66],
  .startText "application/vnd.sqlite3" "SQLi",
  .startText "application/x-unix-archive" "!<arch>",
  .start "application/zstd" [0x28, 0xB5, 0x2F, 0xFD],
  ⟨"text/html", [], 0, isHtml⟩,
  ⟨"text/xml", [], 0, isXml⟩,
  .startText "text/x-shellscript" "#!" 3]

/-- The name of the type of a file, if it is known. -/
def fileType? (file : Bytes) : Option String :=
  (signatures.find? (·.fits file)).map (·.mime)

end LedgerSandbox.Submission
