import Dbml.Json.Malformed

/-!
# String tokens

A string token is what follows an opening quote (`StringToken.scan`). One that
is passed over must end and have well-formed escapes; one that is read must
also denote a text, so that its surrogates come in pairs.
-/

namespace Dbml.Json

inductive StringToken
  | text (value : String)
  /-- It ends, but denotes no text. -/
  | unreadable (fault : Malformed)
  | broken (fault : Broken)
  deriving DecidableEq, Repr

namespace StringToken

def hexValue? (c : Char) : Option Nat :=
  if '0' ≤ c ∧ c ≤ '9' then some (c.toNat - 48)
  else if 'a' ≤ c ∧ c ≤ 'f' then some (c.toNat - 87)
  else if 'A' ≤ c ∧ c ≤ 'F' then some (c.toNat - 55)
  else none

/-- The four digits after `\u`. They are four bytes of the text, so that it ends
too early where fewer are left. -/
def codeUnit : List Char → Except Malformed (Nat × List Char)
  | a :: b :: c :: d :: cs =>
    match hexValue? a, hexValue? b, hexValue? c, hexValue? d with
    | some a, some b, some c, some d => .ok (4096 * a + 256 * b + 16 * c + d, cs)
    | _, _, _, _ => .error .badEscape
  | cs => .error (if (String.ofList cs).utf8ByteSize < 4 then .cutString else .badEscape)

/-- The low surrogate that has to follow a high one. -/
def lowSurrogate (high : Nat) : List Char → Except Malformed (Char × List Char)
  | [] | ['\\'] => .error .cutString
  | '\\' :: 'u' :: cs => do
    let (low, rest) ← codeUnit cs
    if 0xDC00 ≤ low ∧ low ≤ 0xDFFF then
      return (Char.ofNat (0x10000 + 0x400 * (high - 0xD800) + (low - 0xDC00)), rest)
    else throw .loneSurrogate
  | _ => .error .unpairedSurrogate

/-- The character that a code unit starts. -/
def unicodeEscape (cs : List Char) : Except Malformed (Char × List Char) := do
  let (unit, rest) ← codeUnit cs
  if 0xDC00 ≤ unit ∧ unit ≤ 0xDFFF then throw .loneSurrogate
  else if 0xD800 ≤ unit ∧ unit ≤ 0xDBFF then lowSurrogate unit rest
  else return (Char.ofNat unit, rest)

/-- The character that stands for itself or for a control after a backslash. -/
def shortEscape? : Char → Option Char
  | '"' => some '"'
  | '\\' => some '\\'
  | '/' => some '/'
  | 'b' => some '\x08'
  | 'f' => some '\x0c'
  | 'n' => some '\n'
  | 'r' => some '\r'
  | 't' => some '\t'
  | _ => none

/-- The character that an escape denotes, from what follows its backslash. -/
def escaped : List Char → Except Malformed (Char × List Char)
  | [] => .error .cutString
  | 'u' :: cs => unicodeEscape cs
  | c :: cs =>
    match shortEscape? c with
    | some e => .ok (e, cs)
    | none => .error .badEscape

/-- Checks an escape without reading it. -/
def passEscape : List Char → Except Malformed (List Char)
  | [] => .error .cutString
  | 'u' :: cs => (codeUnit cs).map (·.2)
  | c :: cs => if (shortEscape? c).isSome then .ok cs else .error .badEscape

/-- Reads up to the closing quote. The first argument bounds the number of
characters. -/
def read : Nat → List Char → Except Malformed (List Char × List Char)
  | 0, _ | _, [] => .error .cutString
  | fuel + 1, c :: cs =>
    if c = '"' then .ok ([], cs)
    else if c = '\\' then do
      let (e, rest) ← escaped cs
      let (following, rest) ← read fuel rest
      return (e :: following, rest)
    else if c.toNat < 0x20 then .error .controlCharacter
    else do
      let (following, rest) ← read fuel cs
      return (c :: following, rest)

/-- Passes over everything up to the closing quote. -/
def pass : Nat → List Char → Except Malformed (List Char)
  | 0, _ | _, [] => .error .cutString
  | fuel + 1, c :: cs =>
    if c = '"' then .ok cs
    else if c = '\\' then passEscape cs >>= pass fuel
    else if c.toNat < 0x20 then .error .controlCharacter
    else pass fuel cs

/-- Scans what follows an opening quote: the token, and the text after it. -/
def scan (cs : List Char) : StringToken × List Char :=
  match read (cs.length + 1) cs, pass (cs.length + 1) cs with
  | .ok (cs, rest), _ => (.text (String.ofList cs), rest)
  | .error fault, .ok rest => (.unreadable fault, rest)
  | .error read, .error passed => (.broken ⟨read, passed⟩, [])

/-- The text of a token that is read. -/
def value : StringToken → Except Malformed String
  | .text s => .ok s
  | .unreadable fault => .error fault
  | .broken fault => .error fault.read

/-- A token that is passed over. -/
def skip : StringToken → Except Malformed Unit
  | .text _ | .unreadable _ => .ok ()
  | .broken fault => .error fault.passed

end StringToken

end Dbml.Json
