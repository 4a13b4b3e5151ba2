import LedgerSandbox.Text.Lossy

/-!
# Names of archive entries

An archive says for each entry whether its name is UTF-8. If not, the name is in
code page 437, whose upper half is listed here.
-/

namespace LedgerSandbox.Archive

/-- The characters 128 to 255 of code page 437. -/
def codePage437 : Array Char :=
  ("ÇüéâäàåçêëèïîìÄÅÉæÆôöòûùÿÖÜ¢£¥₧ƒáíóúñÑªº¿⌐¬½¼¡«»░▒▓│┤╡╢╖╕╣║╗╝╜╛┐└┴┬├─┼╞╟╚╔╩╦╠═╬╧" ++
   "╨╤╥╙╘╒╓╫╪┘┌█▄▌▐▀αßΓπΣσµτΦΘΩδ∞φε∩≡±≥≤⌠⌡÷≈°∙·√ⁿ²■\u00a0").toList.toArray

/-- A byte as a character of code page 437. -/
def codePageChar (b : UInt8) : Char :=
  if b < 0x80 then Char.ofNat b.toNat
  else codePage437[b.toNat - 0x80]?.getD Text.replacementChar

/-- The name of an entry. -/
def decodeName (isUtf8 : Bool) (name : Bytes) : String :=
  if isUtf8 then Text.decodeLossy name else String.ofList (name.map codePageChar)

end LedgerSandbox.Archive
