/-!
# Places in a YAML text

YAML looks at characters by class and at where they stand: a `Cursor` is the
rest of a text with the number of octets before it, its line and its column.
A line ends at a line feed, a carriage return, both in this order, or one of
three further breaks; all but the last two are read as a line feed.
-/

namespace Dbml.Yaml

def isBreak (c : Char) : Bool :=
  c == '\n' || c == '\r' || c == '\u0085' || c == '\u2028' || c == '\u2029'

/-- A blank or a tab. -/
def isBlank (c : Char) : Bool := c == ' ' || c == '\t'

/-- Whether nothing, a blank or a break comes next. -/
def isGap : Option Char → Bool
  | none => true
  | some c => isBlank c || isBreak c

/-- Characters of anchors, directives and handles. -/
def isWordChar (c : Char) : Bool := c.isAlphanum || c == '_' || c == '-'

/-- Characters that a text may hold. -/
def isAllowed (c : Char) : Bool :=
  let n := c.toNat
  n == 0x09 || n == 0x0A || n == 0x0D || (0x20 ≤ n && n ≤ 0x7E) || n == 0x85 ||
    (0xA0 ≤ n && n ≤ 0xD7FF) || (0xE000 ≤ n && n ≤ 0xFFFD) || 0x10000 ≤ n

/-- The number of octets that encode characters. -/
def octets (cs : List Char) : Nat := cs.foldl (fun n c => n + c.utf8Size) 0

structure Cursor where
  rest : List Char
  /-- The number of octets before. -/
  index : Nat := 0
  line : Nat := 0
  column : Nat := 0
  deriving Repr

namespace Cursor

def next? (c : Cursor) : Option Char := c.rest.head?

/-- The character `n` places further on. -/
def ahead? (c : Cursor) (n : Nat) : Option Char := c.rest[n]?

def atEnd (c : Cursor) : Bool := c.rest.isEmpty

/-- Past one character, which is no break. -/
def skip (c : Cursor) : Cursor :=
  match c.rest with
  | [] => c
  | ch :: rest => { c with rest, index := c.index + ch.utf8Size, column := c.column + 1 }

/-- Past `n` characters. -/
def skipN (c : Cursor) : Nat → Cursor
  | 0 => c
  | n + 1 => c.skip.skipN n

/-- A line break, as it is read, and the start of the next line. -/
def takeBreak (c : Cursor) : List Char × Cursor :=
  match c.rest with
  | [] => ([], c)
  | '\r' :: '\n' :: rest =>
    (['\n'], { rest, index := c.index + 2, line := c.line + 1, column := 0 })
  | b :: rest =>
    if isBreak b then
      ([if b == '\u2028' || b == '\u2029' then b else '\n'],
        { rest, index := c.index + b.utf8Size, line := c.line + 1, column := 0 })
    else ([], c)

def skipBreak (c : Cursor) : Cursor := c.takeBreak.2

/-- Past all characters in front that satisfy `p`, none of which is a break. -/
def skipWhile (p : Char → Bool) (c : Cursor) : Cursor :=
  let skipped := c.rest.takeWhile p
  { c with
    rest := c.rest.drop skipped.length
    index := c.index + octets skipped
    column := c.column + skipped.length }

/-- The characters in front that satisfy `p`, none of which is a break. -/
def takeWhile (p : Char → Bool) (c : Cursor) : List Char × Cursor :=
  (c.rest.takeWhile p, c.skipWhile p)

/-- Up to the end of the line. -/
def skipLine (c : Cursor) : Cursor := c.skipWhile (!isBreak ·)

/-- Whether three times `mark`, and then a gap, are next at the start of a
line. -/
def atMark (mark : Char) (c : Cursor) : Bool :=
  c.column == 0 && c.rest.take 3 == [mark, mark, mark] && isGap (c.ahead? 3)

/-- Whether a document starts or ends here. -/
def atDocumentMark (c : Cursor) : Bool := c.atMark '-' || c.atMark '.'

end Cursor

end Dbml.Yaml
