import Dbml.Yaml.Folding

/-!
# Quoted and plain scalars

A scalar in single quotes escapes only the quote, by doubling it; one in double
quotes has escapes after a backslash, of which one, before a line break, joins
two lines. A plain scalar ends before an indicator, a comment, or a line that is
not indented enough.
-/

namespace Dbml.Yaml

def hexValue? (c : Char) : Option Nat :=
  if '0' ≤ c ∧ c ≤ '9' then some (c.toNat - 48)
  else if 'a' ≤ c ∧ c ≤ 'f' then some (c.toNat - 87)
  else if 'A' ≤ c ∧ c ≤ 'F' then some (c.toNat - 55)
  else none

/-- The natural that hexadecimal digits denote. -/
def hexNumber? (cs : List Char) : Option Nat :=
  cs.foldlM (fun n c => (hexValue? c).map (16 * n + ·)) 0

/-- The character that an escape without digits denotes. -/
def simpleEscape? : Char → Option Char
  | '0' => some '\x00'
  | 'a' => some '\x07'
  | 'b' => some '\x08'
  | 't' | '\t' => some '\t'
  | 'n' => some '\n'
  | 'v' => some '\x0b'
  | 'f' => some '\x0c'
  | 'r' => some '\r'
  | 'e' => some '\x1b'
  | ' ' => some ' '
  | '"' => some '"'
  | '/' => some '/'
  | '\\' => some '\\'
  | 'N' => some '\u0085'
  | '_' => some '\u00a0'
  | 'L' => some '\u2028'
  | 'P' => some '\u2029'
  | _ => none

/-- The number of digits of an escape that has them. -/
def escapeDigits? : Char → Option Nat
  | 'x' => some 2
  | 'u' => some 4
  | 'U' => some 8
  | _ => none

/-- The character that digits denote, which is no surrogate. -/
def codePoint? (digits : List Char) (count : Nat) : Option Char := do
  guard (digits.length = count)
  let n ← hexNumber? digits
  guard (n < 0xD800 ∨ (0xDFFF < n ∧ n ≤ 0x10FFFF))
  return Char.ofNat n

/-- Reads an escape, from its backslash on. -/
def scanEscape (c : Cursor) : Option (Char × Cursor) := do
  let kind ← c.ahead? 1
  match simpleEscape? kind with
  | some e => return (e, c.skipN 2)
  | none =>
    let count ← escapeDigits? kind
    let e ← codePoint? ((c.rest.drop 2).take count) count
    return (e, c.skipN (2 + count))

/-- Reads a quoted scalar, from what follows its opening quote. The first
argument bounds the number of characters. -/
def scanQuoted (single : Bool) : Nat → Scanned → Cursor → Option (String × Cursor)
  | 0, _, _ => none
  | fuel + 1, s, c =>
    match c.rest with
    | [] => none
    | ch :: rest =>
      if c.atDocumentMark then none
      else if isBlank ch then scanQuoted single fuel (s.blank ch) c.skip
      else if isBreak ch then scanQuoted single fuel (s.lineBreak c.takeBreak.1) c.skipBreak
      else if single then
        if ch = '\'' then
          if rest.head? = some '\'' then scanQuoted single fuel (s.push '\'') (c.skipN 2)
          else some (s.settle.value, c.skip)
        else scanQuoted single fuel (s.push ch) c.skip
      else if ch = '"' then some (s.settle.value, c.skip)
      else if ch = '\\' then
        if (rest.head?.map isBreak).getD false then
          scanQuoted single fuel { s.settle with pending := .breaks [] [] } c.skip.skipBreak
        else
          (scanEscape c).bind fun (e, next) => scanQuoted single fuel (s.push e) next
      else scanQuoted single fuel (s.push ch) c.skip

/-- Reads a quoted scalar, from its opening quote on. -/
def quotedScalar (single : Bool) (c : Cursor) : Option (String × Cursor) :=
  scanQuoted single (c.rest.length + 1) {} c.skip

/-- The characters that part the elements of flow collections. -/
def isFlowIndicator (c : Char) : Bool :=
  c == ',' || c == '[' || c == ']' || c == '{' || c == '}'

/-- A plain scalar that ends: its text, whether line breaks follow it, and the
place after these. -/
def plainEnd (s : Scanned) (c : Cursor) : String × Bool × Cursor :=
  (s.value, s.pending.hasBreak, c)

/-- Reads a plain scalar, which goes on at `indent` or further to the right. The
first argument bounds the number of characters. -/
def scanPlain (flow : Bool) (indent : Int) : Nat → Scanned → Cursor →
    Option (String × Bool × Cursor)
  | 0, _, _ => none
  | fuel + 1, s, c =>
    match c.rest with
    | [] => some (plainEnd s c)
    | ch :: rest =>
      if isBlank ch then
        if s.pending.hasBreak ∧ c.column < indent ∧ ch = '\t' then none
        else scanPlain flow indent fuel (s.blank ch) c.skip
      else if isBreak ch then
        scanPlain flow indent fuel (s.lineBreak c.takeBreak.1) c.skipBreak
      else if s.pending ≠ .nothing ∧
          ((!flow ∧ c.column < indent) ∨ c.atDocumentMark ∨ ch = '#') then some (plainEnd s c)
      else if flow ∧ ch = ':' ∧
          (rest.head?.map fun n => isFlowIndicator n || n == '?').getD false then none
      else if (ch = ':' ∧ isGap rest.head?) ∨ (flow ∧ isFlowIndicator ch) then
        some (plainEnd s c)
      else scanPlain flow indent fuel (s.push ch) c.skip

/-- Reads a plain scalar at its first character. -/
def plainScalar (flow : Bool) (indent : Int) (c : Cursor) : Option (String × Bool × Cursor) :=
  scanPlain flow indent (c.rest.length + 1) {} c

end Dbml.Yaml
