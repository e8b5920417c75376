/-!
# Quoted texts

A quoted text stands between two delimiters, and a backslash before a delimiter
makes it part of the text (`quote`). Nothing else is escaped, a backslash
included. A reader takes the character after a backslash as it is and ends at
the first delimiter that no backslash precedes (`readQuoted`).
-/

namespace Dbml.Text

/-- A backslash before every delimiter. -/
def escape (delimiter : Char) : List Char → List Char
  | [] => []
  | c :: cs =>
    if c = delimiter then '\\' :: c :: escape delimiter cs else c :: escape delimiter cs

/-- The text between two delimiters. -/
def quote (delimiter : Char) (s : String) : String :=
  String.ofList (delimiter :: (escape delimiter s.toList ++ [delimiter]))

/-- Reads up to the delimiter that ends the text: the text, and what follows
the delimiter. -/
def readToDelimiter (delimiter : Char) : List Char → Option (List Char × List Char)
  | [] => none
  | ['\\'] => none
  | '\\' :: c :: cs => (readToDelimiter delimiter cs).map fun (s, rest) => (c :: s, rest)
  | c :: cs =>
    if c = delimiter then some ([], cs)
    else (readToDelimiter delimiter cs).map fun (s, rest) => (c :: s, rest)

/-- Reads a quoted text at the start of `cs`. -/
def readQuoted (delimiter : Char) : List Char → Option (List Char × List Char)
  | [] => none
  | c :: cs => if c = delimiter then readToDelimiter delimiter cs else none

end Dbml.Text
