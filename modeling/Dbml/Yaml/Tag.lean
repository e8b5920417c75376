import Dbml.Yaml.FlowScalar

/-!
# Tags and directives

A tag is verbatim between angle brackets, or a handle and a suffix; the handle
stands for what a directive of the document says (`TagHandles`). The characters
of a tag are those of a URI, others being written as the octets of their UTF-8
encoding. These are only checked to be grouped as the first octet of each group
says, so that a tag is a list of octets, which need not be a text. It ends
before a zero octet.
-/

namespace Dbml.Yaml

/-- The octets of a tag. -/
abbrev Tag := List UInt8

/-- The tag of a text. -/
def Tag.ofText (s : String) : Tag := s.toUTF8.toList

/-- Whether a document chooses the tag itself: it starts with an exclamation
mark. -/
def Tag.isLocal (t : Tag) : Bool := t.head? == some 0x21

/-- The name that such a tag gives: what follows the mark, if that is a text, or
the mark where nothing does. -/
def Tag.localName? : Tag → Option String
  | 0x21 :: name => if name.isEmpty then some "!" else String.fromUTF8? ⟨name.toArray⟩
  | _ => none

/-- A tag of the core schema. -/
def Tag.core (name : String) : Tag := .ofText ("tag:yaml.org,2002:" ++ name)

/-- A tag as it is written. -/
structure TagToken where
  handle : String
  suffix : Tag
  deriving DecidableEq, Repr

/-- Characters of a tag, and those of a verbatim one or a directive besides. -/
def isUriChar (verbatim : Bool) (c : Char) : Bool :=
  isWordChar c || ";/?:@&=+$.%!~*'()".toList.contains c || (verbatim && ",[]".toList.contains c)

/-- The number of octets that have to follow the first one of a group. -/
def octetsAfter? (first : Nat) : Option Nat :=
  if first < 0x80 then some 0
  else if first < 0xC0 then none
  else if first < 0xE0 then some 1
  else if first < 0xF0 then some 2
  else if first < 0xF8 then some 3
  else none

/-- Replaces escaped octets by themselves. The first argument is the number of
octets that still have to follow. -/
def decodeUri : Nat → List Char → Option Tag
  | 0, [] => some []
  | 0, '%' :: a :: b :: cs => do
    let octet ← hexNumber? [a, b]
    let following ← octetsAfter? octet
    return UInt8.ofNat octet :: (← decodeUri following cs)
  | following + 1, '%' :: a :: b :: cs => do
    let octet ← hexNumber? [a, b]
    guard (0x80 ≤ octet ∧ octet < 0xC0)
    return UInt8.ofNat octet :: (← decodeUri following cs)
  | 0, c :: cs => do
    guard (c ≠ '%')
    return (Tag.ofText (String.singleton c)) ++ (← decodeUri 0 cs)
  | _ + 1, _ => none

/-- Reads the characters of a tag. There must be one, unless some precede them. -/
def tagUri (verbatim : Bool) (before : List Char) (c : Cursor) : Option (Tag × Cursor) := do
  let (cs, c) := c.takeWhile (isUriChar verbatim)
  guard (!(before.isEmpty && cs.isEmpty))
  let octets ← decodeUri 0 cs
  return ((Tag.ofText (String.ofList before.tail) ++ octets).takeWhile (· ≠ 0), c)

/-- Reads a handle: an exclamation mark, or a word between two of them. Outside
a directive a word without the second one may be part of the suffix. -/
def tagHandle (directive : Bool) (c : Cursor) : Option (List Char × Cursor) := do
  guard (c.next? = some '!')
  let (word, c) := c.skip.takeWhile isWordChar
  if c.next? = some '!' then return ('!' :: (word ++ ['!']), c.skip)
  else
    guard (!directive || word.isEmpty)
    return ('!' :: word, c)

/-- Reads a tag, from its exclamation mark on. -/
def tagToken (flow : Bool) (c : Cursor) : Option (TagToken × Cursor) := do
  let (tag, c) ←
    if c.ahead? 1 = some '<' then do
      let (suffix, c) ← tagUri true [] (c.skipN 2)
      guard (c.next? = some '>')
      pure (TagToken.mk "" suffix, c.skip)
    else do
      let (handle, c) ← tagHandle false c
      if 1 < handle.length ∧ handle.getLast? = some '!' then
        let (suffix, c) ← tagUri false [] c
        pure (TagToken.mk (String.ofList handle) suffix, c)
      else
        let (suffix, c) ← tagUri false handle c
        pure (if suffix.isEmpty then TagToken.mk "" (.ofText "!") else TagToken.mk "!" suffix, c)
  guard ((flow && c.next? == some ',') || isGap c.next?)
  return (tag, c)

inductive Directive
  | version (major minor : Nat)
  | tag (handle : String) (meaning : Tag)
  deriving DecidableEq, Repr

/-- Reads a number of at most nine digits. -/
def versionNumber (c : Cursor) : Option (Nat × Cursor) := do
  let (digits, c) := c.takeWhile Char.isDigit
  guard (0 < digits.length ∧ digits.length ≤ 9)
  return (digits.foldl (fun n d => 10 * n + (d.toNat - 48)) 0, c)

/-- Reads what follows the name of a directive. -/
def directiveValue (name : List Char) (c : Cursor) : Option (Directive × Cursor) := do
  let c := c.skipWhile isBlank
  if name = "YAML".toList then
    let (major, c) ← versionNumber c
    guard (c.next? = some '.')
    let (minor, c) ← versionNumber c.skip
    return (.version major minor, c)
  else if name = "TAG".toList then
    let (handle, c) ← tagHandle true c
    guard ((c.next?.map isBlank).getD false)
    let (meaning, c) ← tagUri true [] (c.skipWhile isBlank)
    guard (isGap c.next?)
    return (.tag (String.ofList handle) meaning, c)
  else none

/-- Reads a directive, from its per cent sign to the next line. -/
def directive (c : Cursor) : Option (Directive × Cursor) := do
  let (name, c) := c.skip.takeWhile isWordChar
  guard (!name.isEmpty && isGap c.next?)
  let (directive, c) ← directiveValue name c
  let c := c.skipWhile isBlank
  let c := if c.next? = some '#' then c.skipLine else c
  guard (c.atEnd ∨ (c.next?.map isBreak).getD false)
  return (directive, c.skipBreak)

/-- What handles stand for. -/
abbrev TagHandles := List (String × Tag)

/-- The handles that every document has. -/
def standardHandles : TagHandles :=
  [("!", .ofText "!"), ("!!", .ofText "tag:yaml.org,2002:")]

/-- The tag that a token stands for. A verbatim tag stands for itself. -/
def TagToken.resolve? (handles : TagHandles) (t : TagToken) : Option Tag :=
  if t.handle.isEmpty then some t.suffix else (handles.lookup t.handle).map (· ++ t.suffix)

end Dbml.Yaml
