import EditionCheck.Text.Printable

/-!
# Quoted text

A text in double quotes, as messages show it. Quotes and backslashes are escaped, and a character that
cannot be shown is written by a short name or by its code point.
-/

set_option autoImplicit false

namespace EditionCheck.Text

/-- The code point of a character in lower-case hexadecimal digits. -/
def hexDigits (c : Char) : List Char := Nat.toDigits 16 c.toNat

/-- A character inside quotes. -/
def quoteChar (c : Char) : List Char :=
  if c == '\x00' then ['\\', '0']
  else if c == '\t' then ['\\', 't']
  else if c == '\n' then ['\\', 'n']
  else if c == '\r' then ['\\', 'r']
  else if c == '\x22' || c == '\\' then ['\\', c]
  else if isPrintable c then [c]
  else ['\\', 'u', '\x7b'] ++ hexDigits c ++ ['\x7d']

/-- A text in double quotes. -/
def quoteChars (cs : List Char) : List Char := '\x22' :: (cs.flatMap quoteChar ++ ['\x22'])

/-- A text in double quotes. -/
def quote (s : String) : String := String.ofList (quoteChars s.toList)

end EditionCheck.Text
