import Dbml.Json.Literal
import Dbml.Json.StringToken

/-!
# JSON text as a tree

A text is scanned as far as it is JSON, and where it ceases to be, the tree says
so at that place (`Tree.scan`). Walking the tree from left to right thus meets
what is written and what is wrong in the order of the text, and a reader who
stops at the first fault reports the one that comes first. Whether a fault is
one may depend on whether the value is read or passed over, so that numbers and
strings are kept as they are written.
-/

namespace Dbml.Json

/-- How a list of items ends. -/
inductive ArrayEnd
  | closed
  | trailingComma
  | cutAfterComma
  | noSeparator
  | cut
  deriving DecidableEq, Repr

/-- How a list of members ends. -/
inductive ObjectEnd
  | closed
  | trailingComma
  | cutAfterComma
  | noSeparator
  | noKey
  | cut
  deriving DecidableEq, Repr

inductive Tree
  /-- No value, or a `started` word or number that goes wrong. -/
  | broken (started : Bool) (fault : Broken)
  | null
  | bool (value : Bool)
  | number (literal : Literal)
  | string (token : StringToken)
  | array (items : List Tree) (ending : ArrayEnd)
  | object (members : List (StringToken × Tree)) (ending : ObjectEnd)
  deriving Inhabited

namespace ArrayEnd

/-- Asking for one more item. -/
def more : ArrayEnd → Except Malformed Unit
  | .closed => .ok ()
  | .trailingComma => .error .trailingComma
  | .cutAfterComma => .error .cutValue
  | .noSeparator => .error .noListSeparator
  | .cut => .error .cutList

/-- Passing over the rest. -/
def pass : ArrayEnd → Except Malformed Unit
  | .trailingComma => .error .noValue
  | ending => ending.more

/-- Expecting the list to be over. -/
def close : ArrayEnd → Except Malformed Unit
  | .closed => .ok ()
  | .trailingComma => .error .trailingComma
  | .cutAfterComma | .noSeparator => .error .trailingCharacters
  | .cut => .error .cutList

end ArrayEnd

namespace ObjectEnd

/-- Asking for one more member. -/
def more : ObjectEnd → Except Malformed Unit
  | .closed => .ok ()
  | .trailingComma => .error .trailingComma
  | .cutAfterComma => .error .cutValue
  | .noSeparator => .error .noObjectSeparator
  | .noKey => .error .noKey
  | .cut => .error .cutObject

/-- Passing over the rest. -/
def pass : ObjectEnd → Except Malformed Unit
  | .trailingComma => .error .noKey
  | .cutAfterComma => .error .cutObject
  | ending => ending.more

end ObjectEnd

def isBlank (c : Char) : Bool := c == ' ' || c == '\t' || c == '\n' || c == '\r'

def skipBlanks (cs : List Char) : List Char := cs.dropWhile isBlank

namespace Tree

/-- Reads the rest of a word that stands for a value. -/
def scanWord (value : Tree) : List Char → List Char → Tree × List Char
  | [], cs => (value, cs)
  | _ :: _, [] => (.broken true (.either .cutValue), [])
  | w :: word, c :: cs =>
    if w = c then scanWord value word cs else (.broken true (.either .misspelledWord), [])

def scanNumber (cs : List Char) : Tree × List Char :=
  match Literal.scan cs with
  | .ok (literal, rest) => (.number literal, rest)
  | .error fault => (.broken true fault, [])

mutual

/-- Scans a value at the start of a text: the tree, and the text after it. The
first argument bounds the depth. -/
def scanValue : Nat → List Char → Tree × List Char
  | 0, _ => (.broken false (.either .noValue), [])
  | fuel + 1, cs =>
    match skipBlanks cs with
    | [] => (.broken false (.either .cutValue), [])
    | 'n' :: cs => scanWord .null ['u', 'l', 'l'] cs
    | 't' :: cs => scanWord (.bool true) ['r', 'u', 'e'] cs
    | 'f' :: cs => scanWord (.bool false) ['a', 'l', 's', 'e'] cs
    | '"' :: cs =>
      let (token, rest) := StringToken.scan cs
      (.string token, rest)
    | '[' :: cs =>
      let (items, ending, rest) := scanItems fuel true cs
      (.array items ending, rest)
    | '{' :: cs =>
      let (members, ending, rest) := scanMembers fuel true cs
      (.object members ending, rest)
    | c :: cs =>
      if c = '-' ∨ c.isDigit then scanNumber (c :: cs)
      else (.broken false (.either .noValue), [])

/-- Scans items up to the end of their list. -/
def scanItems : Nat → Bool → List Char → List Tree × ArrayEnd × List Char
  | 0, _, _ => ([], .cut, [])
  | fuel + 1, first, cs =>
    match skipBlanks cs with
    | [] => ([], .cut, [])
    | ']' :: cs => ([], .closed, cs)
    | c :: cs =>
      if first then scanItem fuel (c :: cs)
      else if c = ',' then
        match skipBlanks cs with
        | [] => ([], .cutAfterComma, [])
        | ']' :: _ => ([], .trailingComma, [])
        | cs => scanItem fuel cs
      else ([], .noSeparator, [])

/-- Scans an item and those after it. -/
def scanItem : Nat → List Char → List Tree × ArrayEnd × List Char
  | 0, _ => ([], .cut, [])
  | fuel + 1, cs =>
    let (item, rest) := scanValue fuel cs
    let (items, ending, rest) := scanItems fuel false rest
    (item :: items, ending, rest)

/-- Scans members up to the end of their list. -/
def scanMembers : Nat → Bool → List Char → List (StringToken × Tree) × ObjectEnd × List Char
  | 0, _, _ => ([], .cut, [])
  | fuel + 1, first, cs =>
    match skipBlanks cs with
    | [] => ([], .cut, [])
    | '}' :: cs => ([], .closed, cs)
    | c :: cs =>
      if first then
        if c = '"' then scanMember fuel cs else ([], .noKey, [])
      else if c = ',' then
        match skipBlanks cs with
        | [] => ([], .cutAfterComma, [])
        | '}' :: _ => ([], .trailingComma, [])
        | '"' :: cs => scanMember fuel cs
        | _ => ([], .noKey, [])
      else ([], .noSeparator, [])

/-- Scans a member, from what follows the quote of its key, and those after it. -/
def scanMember : Nat → List Char → List (StringToken × Tree) × ObjectEnd × List Char
  | 0, _ => ([], .cut, [])
  | fuel + 1, cs =>
    let (key, rest) := StringToken.scan cs
    match skipBlanks rest with
    | [] => ([(key, .broken false (.either .cutObject))], .cut, [])
    | ':' :: cs =>
      let (value, rest) := scanValue fuel cs
      let (members, ending, rest) := scanMembers fuel false rest
      ((key, value) :: members, ending, rest)
    | _ => ([(key, .broken false (.either .noColon))], .cut, [])

end

/-- More than the depth of any tree that `cs` can hold. -/
def fuelFor (cs : List Char) : Nat := 3 * cs.length + 3

/-- The value at the start of a text, and whether anything but blanks follows
it. -/
def scan (cs : List Char) : Tree × Bool :=
  let (tree, rest) := scanValue (fuelFor cs) cs
  (tree, !(skipBlanks rest).isEmpty)

mutual

/-- Passes over a value: its first fault, if it has one that matters to values
that are not read. -/
def pass : Tree → Except Malformed Unit
  | .broken _ fault => .error fault.passed
  | .null | .bool _ | .number _ => .ok ()
  | .string token => token.skip
  | .array items ending => do
    passItems items
    ending.pass
  | .object members ending => do
    passMembers members
    ending.pass

def passItems : List Tree → Except Malformed Unit
  | [] => .ok ()
  | item :: items => do
    item.pass
    passItems items

def passMembers : List (StringToken × Tree) → Except Malformed Unit
  | [] => .ok ()
  | (key, value) :: members => do
    key.skip
    value.pass
    passMembers members

end

end Tree

end Dbml.Json
