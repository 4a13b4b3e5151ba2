import LedgerSandbox.Text.Unprintable

/-!
# Quoted text

How a message shows a text or a character that it was given: between quotes,
with the quote itself, the backslash and all unprintable characters escaped, so
that the message stays on one line and shows where the quoted part ends.
-/

namespace LedgerSandbox.Text

/-- A code point in hexadecimal, in lower case and without leading zeros. -/
def hexDigits (n : Nat) : List Char := Nat.toDigits 16 n

/-- A character as it stands between two of the given quotes. -/
def quoteChar (quote c : Char) : List Char :=
  if c = '\x00' then ['\\', '0']
  else if c = '\t' then ['\\', 't']
  else if c = '\r' then ['\\', 'r']
  else if c = '\n' then ['\\', 'n']
  else if c = '\\' then ['\\', '\\']
  else if c = quote then ['\\', quote]
  else if isUnprintable c then ['\\', 'u', '\x7b'] ++ hexDigits c.toNat ++ ['\x7d']
  else [c]

/-- A text in double quotes. A single quote in it is left as it is. -/
def quoted (text : String) : String :=
  String.ofList ('"' :: text.toList.flatMap (quoteChar '"') ++ ['"'])

/-- A character in single quotes. A double quote is left as it is. -/
def quotedChar (c : Char) : String :=
  String.ofList ('\'' :: quoteChar '\'' c ++ ['\''])

end LedgerSandbox.Text
