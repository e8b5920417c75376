import Dbml.Json.Value

/-!
# Printing JSON

The compact form has no blanks (`Value.compact`); the pretty form has a line for
each item and member, indented by two blanks for each enclosing array or object,
and nothing inside an empty one (`Value.pretty`). A string escapes the quote, the
backslash and the controls below U+0020, and keeps every other character.
-/

namespace Dbml.Json

/-- A hexadecimal digit, in lower case. -/
def hexDigit (n : Nat) : Char := if n < 10 then Char.ofNat (48 + n) else Char.ofNat (87 + n)

def escapeChar (c : Char) : List Char :=
  if c = '"' then ['\\', '"']
  else if c = '\\' then ['\\', '\\']
  else if c = '\n' then ['\\', 'n']
  else if c = '\r' then ['\\', 'r']
  else if c = '\t' then ['\\', 't']
  else if c.toNat = 0x08 then ['\\', 'b']
  else if c.toNat = 0x0C then ['\\', 'f']
  else if c.toNat < 0x20 then
    ['\\', 'u', '0', '0', hexDigit (c.toNat / 16), hexDigit (c.toNat % 16)]
  else [c]

def stringChars (s : String) : List Char := '"' :: (s.toList.flatMap escapeChar ++ ['"'])

namespace Value

mutual

def chars : Value → List Char
  | .null => ['n', 'u', 'l', 'l']
  | .bool true => ['t', 'r', 'u', 'e']
  | .bool false => ['f', 'a', 'l', 's', 'e']
  | .number n => n.text.toList
  | .string s => stringChars s
  | .array items => '[' :: itemsChars items
  | .object members => '{' :: membersChars members

/-- Items and the closing bracket. -/
def itemsChars : List Value → List Char
  | [] => [']']
  | item :: items => item.chars ++ moreItemsChars items

def moreItemsChars : List Value → List Char
  | [] => [']']
  | item :: items => ',' :: (item.chars ++ moreItemsChars items)

/-- Members and the closing brace. -/
def membersChars : List (String × Value) → List Char
  | [] => ['}']
  | (name, value) :: members =>
    stringChars name ++ ':' :: (value.chars ++ moreMembersChars members)

def moreMembersChars : List (String × Value) → List Char
  | [] => ['}']
  | (name, value) :: members =>
    ',' :: (stringChars name ++ ':' :: (value.chars ++ moreMembersChars members))

end

def compact (v : Value) : String := String.ofList v.chars

/-- A new line at a depth of nesting. -/
def newLine (depth : Nat) : List Char := '\n' :: List.replicate (2 * depth) ' '

mutual

def prettyChars (depth : Nat) : Value → List Char
  | .array [] => ['[', ']']
  | .array (item :: items) =>
    '[' :: (newLine (depth + 1) ++ item.prettyChars (depth + 1) ++ prettyItems depth items)
  | .object [] => ['{', '}']
  | .object ((name, value) :: members) =>
    '{' :: (newLine (depth + 1) ++ stringChars name ++ [':', ' '] ++
      value.prettyChars (depth + 1) ++ prettyMembers depth members)
  | .null => ['n', 'u', 'l', 'l']
  | .bool true => ['t', 'r', 'u', 'e']
  | .bool false => ['f', 'a', 'l', 's', 'e']
  | .number n => n.text.toList
  | .string s => stringChars s

def prettyItems (depth : Nat) : List Value → List Char
  | [] => newLine depth ++ [']']
  | item :: items =>
    ',' :: (newLine (depth + 1) ++ item.prettyChars (depth + 1) ++ prettyItems depth items)

def prettyMembers (depth : Nat) : List (String × Value) → List Char
  | [] => newLine depth ++ ['}']
  | (name, value) :: members =>
    ',' :: (newLine (depth + 1) ++ stringChars name ++ [':', ' '] ++
      value.prettyChars (depth + 1) ++ prettyMembers depth members)

end

def pretty (v : Value) : String := String.ofList (v.prettyChars 0)

end Value

end Dbml.Json
