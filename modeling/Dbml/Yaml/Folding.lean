import Dbml.Yaml.Cursor

/-!
# Folding

In a scalar that runs over lines, the blanks between two words are kept if they
stand on one line. A single line feed between words becomes a blank, and of
several line feeds the first is left out. Nothing is known of blanks until the
next word comes, so that they are pending meanwhile (`Pending`).
-/

namespace Dbml.Yaml

inductive Pending
  | nothing
  /-- Blanks on one line. -/
  | blanks (blanks : List Char)
  /-- The first break, if it counts, and the breaks after it. -/
  | breaks (first : List Char) (others : List Char)
  deriving DecidableEq, Repr

namespace Pending

/-- One more blank; at the start of a line it does not count. -/
def blank (c : Char) : Pending → Pending
  | .nothing => .blanks [c]
  | .blanks bs => .blanks (bs ++ [c])
  | .breaks first others => .breaks first others

/-- One more break. -/
def lineBreak (b : List Char) : Pending → Pending
  | .nothing | .blanks _ => .breaks b []
  | .breaks first others => .breaks first (others ++ b)

/-- What stands for the blanks between two words. -/
def text : Pending → List Char
  | .nothing => []
  | .blanks bs => bs
  | .breaks first others =>
    if first = ['\n'] then (if others = [] then [' '] else others) else first ++ others

def hasBreak : Pending → Bool
  | .breaks _ _ => true
  | .nothing | .blanks _ => false

end Pending

/-- What is read of a scalar so far, last character first, and what is pending. -/
structure Scanned where
  text : List Char := []
  pending : Pending := .nothing

namespace Scanned

/-- Makes up its mind about what is pending. -/
def settle (s : Scanned) : Scanned :=
  { text := s.pending.text.reverse ++ s.text, pending := .nothing }

def push (s : Scanned) (c : Char) : Scanned := { s.settle with text := c :: s.settle.text }

def blank (s : Scanned) (c : Char) : Scanned := { s with pending := s.pending.blank c }

def lineBreak (s : Scanned) (b : List Char) : Scanned :=
  { s with pending := s.pending.lineBreak b }

/-- The text, without what is pending. -/
def value (s : Scanned) : String := String.ofList s.text.reverse

end Scanned

end Dbml.Yaml
