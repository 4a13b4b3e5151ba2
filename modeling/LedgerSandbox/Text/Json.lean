/-!
# JSON strings

The string form of JSON as responses write it: quote, backslash and control
characters are escaped, with the two-character escape where JSON has one and
`\u00xx` in lower case otherwise. All other characters stand for themselves.
-/

namespace LedgerSandbox.Text

/-- The hexadecimal digit of a number below 16, in lower case. -/
def hexDigit (n : Nat) : Char :=
  if n < 10 then Char.ofNat (0x30 + n) else Char.ofNat (0x57 + n)

/-- A character as it stands inside a JSON string. -/
def jsonChar (c : Char) : List Char :=
  if c = '"' then ['\\', '"']
  else if c = '\\' then ['\\', '\\']
  else if c = '\x08' then ['\\', 'b']
  else if c = '\x0c' then ['\\', 'f']
  else if c = '\n' then ['\\', 'n']
  else if c = '\r' then ['\\', 'r']
  else if c = '\t' then ['\\', 't']
  else if c.toNat < 0x20 then
    ['\\', 'u', '0', '0', hexDigit (c.toNat / 16), hexDigit (c.toNat % 16)]
  else [c]

/-- A text as a JSON string, quotes included. -/
def jsonString (text : String) : List Char :=
  '"' :: text.toList.flatMap jsonChar ++ ['"']

end LedgerSandbox.Text
