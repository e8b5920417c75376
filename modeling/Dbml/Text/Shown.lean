import Dbml.Text.CharTable

/-!
# Texts shown in messages

A message shows a text between double quotes, with escapes for the quote, the
backslash and the usual controls, and every other character that cannot be
seen by its number in braces.
-/

namespace Dbml.Text

/-- The digits of a code point, in lower-case hexadecimal. -/
def hex (n : Nat) : List Char := Nat.toDigits 16 n

def showChar (c : Char) : List Char :=
  if c = '"' then ['\\', '"']
  else if c = '\\' then ['\\', '\\']
  else if c = '\n' then ['\\', 'n']
  else if c = '\r' then ['\\', 'r']
  else if c = '\t' then ['\\', 't']
  else if c.toNat = 0 then ['\\', '0']
  else if c.toNat < 0x20 ∨ c.toNat = 0x7F ∨ unprintable.contains c then
    '\\' :: 'u' :: '{' :: (hex c.toNat ++ ['}'])
  else [c]

/-- The text in quotes. -/
def shown (s : String) : String := String.ofList ('"' :: (s.toList.flatMap showChar ++ ['"']))

end Dbml.Text
