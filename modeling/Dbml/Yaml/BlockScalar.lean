import Dbml.Yaml.Cursor

/-!
# Block scalars

A block scalar follows an indicator line. Its text is on the lines that are
indented as its first one, or as the indicator says, without that indentation.
A literal scalar keeps its line breaks. A folded one turns a single break
between two lines that start with no blank into a blank, and leaves out the
first of several. What becomes of the breaks at the end is chosen on the
indicator line (`Chomping`).
-/

namespace Dbml.Yaml

/-- Which of the breaks at the end belong to the text. -/
inductive Chomping
  | strip
  | clip
  | keep
  deriving DecidableEq, Repr

def chomping? : Option Char → Option Chomping
  | some '+' => some .keep
  | some '-' => some .strip
  | _ => none

/-- Reads the digit that gives the indentation; a zero is none. -/
def indentDigit (c : Cursor) : Option (Option Nat × Cursor) :=
  match c.next? with
  | some d =>
    if d.isDigit then
      if d = '0' then none else some (some (d.toNat - 48), c.skip)
    else some (none, c)
  | none => some (none, c)

/-- Reads the indicators, in either order. -/
def blockHeader (c : Cursor) : Option (Chomping × Option Nat × Cursor) := do
  match chomping? c.next? with
  | some chomping =>
    let (increment, c) ← indentDigit c.skip
    return (chomping, increment, c)
  | none =>
    let (increment, c) ← indentDigit c
    match increment, chomping? c.next? with
    | some _, some chomping => return (chomping, increment, c.skip)
    | _, _ => return (.clip, increment, c)

/-- Reads indentation and empty lines up to a line with text: the breaks, the
greatest column seen, and that line. An unknown indentation is `none`. -/
def blockBreaks (indent : Option Nat) : Nat → Nat → List Char → Cursor →
    Option (List Char × Nat × Cursor)
  | 0, _, _, _ => none
  | fuel + 1, widest, breaks, c =>
    let indentation := match indent with
      | some n => c.rest.take (n - c.column)
      | none => c.rest
    let c := c.skipN (indentation.takeWhile (· == ' ')).length
    let widest := max widest c.column
    if indent.all (c.column < ·) && c.next? == some '\t' then none
    else if (c.next?.map isBreak).getD false then
      blockBreaks indent fuel widest (breaks ++ c.takeBreak.1) c.skipBreak
    else some (breaks, widest, c)

/-- What stands between two lines of text: the break after the first, empty
lines, and whether either line starts with a blank. -/
def blockJoin (literal : Bool) (first others : List Char) (blankBefore blankAfter : Bool) :
    List Char :=
  if !literal ∧ first = ['\n'] ∧ !blankBefore ∧ !blankAfter then
    if others = [] then [' '] else others
  else first ++ others

/-- Reads lines of text: what is read, last character first, the last break, the
empty lines after it, and the place after these. The first argument bounds the
number of characters. -/
def blockLines (literal : Bool) (indent : Nat) : Nat → List Char → List Char → List Char → Bool →
    Cursor → Option (List Char × List Char × List Char × Cursor)
  | 0, _, _, _, _, _ => none
  | fuel + 1, text, first, others, blankBefore, c =>
    if c.column = indent ∧ !c.atEnd then do
      let blank := (c.next?.map isBlank).getD false
      let join := blockJoin literal first others blankBefore blank
      let (line, c) := c.takeWhile (!isBreak ·)
      let (first, c) := c.takeBreak
      let (others, _, c) ← blockBreaks (some indent) fuel 0 [] c
      blockLines literal indent fuel (line.reverse ++ (join.reverse ++ text)) first others blank c
    else some (text, first, others, c)

/-- Reads a block scalar, from its first indicator on, inside a block that is
indented by `parent`. -/
def blockScalar (literal : Bool) (parent : Int) (c : Cursor) : Option (String × Cursor) := do
  let (chomping, increment, c) ← blockHeader c.skip
  let c := c.skipWhile isBlank
  let c := if c.next? = some '#' then c.skipLine else c
  guard (c.atEnd ∨ (c.next?.map isBreak).getD false)
  let c := c.skipBreak
  let given := increment.map fun n => (max parent 0).toNat + n
  let (others, widest, c) ← blockBreaks given (c.rest.length + 1) 0 [] c
  let indent := given.getD (max widest (max (parent + 1).toNat 1))
  let (text, first, others, c) ← blockLines literal indent (c.rest.length + 1) [] [] others false c
  let tail := match chomping with
    | .strip => []
    | .clip => first
    | .keep => first ++ others
  return (String.ofList (text.reverse ++ tail), c)

end Dbml.Yaml
