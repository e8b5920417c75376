import Dbml.Yaml.BlockScalar
import Dbml.Yaml.Tag

/-!
# YAML tokens

A text is cut into tokens from left to right (`Token.scan?`). Blocks have no
brackets of their own: where a line is indented further a block starts, and where
it is indented less blocks end. Nor does a key announce itself: a token that may
turn out to be one is remembered, and the mark of a key, with the start of a
mapping if need be, is put in front of it when a colon follows (`SimpleKey`).
-/

namespace Dbml.Yaml

inductive Style
  | plain
  | quoted
  | literal
  | folded
  deriving DecidableEq, Repr

inductive Token
  | directive (directive : Directive)
  | documentStart
  | documentEnd
  | blockSequenceStart
  | blockMappingStart
  | blockEnd
  | flowSequenceStart
  | flowSequenceEnd
  | flowMappingStart
  | flowMappingEnd
  | blockEntry
  | flowEntry
  | key
  | value
  | alias (name : String)
  | anchor (name : String)
  | tag (tag : TagToken)
  | scalar (text : String) (style : Style)
  deriving DecidableEq, Repr

/-- A token that is a key if a colon follows, on its line and not too far on. -/
structure SimpleKey where
  /-- A colon has to follow. -/
  required : Bool
  /-- The number of tokens before it. -/
  token : Nat
  index : Nat
  line : Nat
  column : Nat
  deriving Repr

/-- The greatest number of octets of a simple key. -/
def SimpleKey.maxLength : Nat := 1024

/-- What is known when a part of a text is cut into tokens. -/
structure Scanner where
  cursor : Cursor
  /-- The tokens so far, last one first. -/
  tokens : List Token := []
  /-- The possible key of the collection that is open. -/
  key : Option SimpleKey := none
  /-- Those of the collections around it, one for each open bracket. -/
  outerKeys : List (Option SimpleKey) := []
  /-- The column of the block that is open, and those of the blocks around it. -/
  indent : Int := -1
  outerIndents : List Int := []
  /-- Whether a simple key may start here. -/
  keyAllowed : Bool := true

namespace Scanner

/-- Inside brackets. -/
def inFlow (s : Scanner) : Bool := !s.outerKeys.isEmpty

def push (s : Scanner) (t : Token) : Scanner := { s with tokens := t :: s.tokens }

/-- Puts a token before all but the first `n` tokens. -/
def insert (s : Scanner) (n : Nat) (t : Token) : Scanner :=
  let later := s.tokens.length - n
  { s with tokens := s.tokens.take later ++ t :: s.tokens.drop later }

/-- Past blanks, comments and line breaks. A tab is a blank only where no key may
start, and a byte order mark may start a line. -/
def skipGap : Nat → Scanner → Scanner
  | 0, s => s
  | fuel + 1, s =>
    let c := s.cursor
    let c := if c.column = 0 ∧ c.next? = some '\ufeff' then c.skip else c
    let tabs := s.inFlow || !s.keyAllowed
    let c := c.skipWhile fun ch => ch == ' ' || (tabs && ch == '\t')
    let c := if c.next? = some '#' then c.skipLine else c
    if (c.next?.map isBreak).getD false then
      skipGap fuel { s with cursor := c.skipBreak, keyAllowed := s.keyAllowed || !s.inFlow }
    else { s with cursor := c }

/-- A key that lies on another line, or too far back, is none any more; `none`
if it has to be one. -/
def dropStaleKey (c : Cursor) : Option SimpleKey → Option (Option SimpleKey)
  | none => some none
  | some key =>
    if key.line < c.line ∨ key.index + SimpleKey.maxLength < c.index then
      if key.required then none else some none
    else some (some key)

def dropStaleKeys (s : Scanner) : Option Scanner := do
  let key ← dropStaleKey s.cursor s.key
  let outerKeys ← s.outerKeys.mapM (dropStaleKey s.cursor)
  return { s with key, outerKeys }

/-- Gives up the possible key. -/
def removeKey (s : Scanner) : Option Scanner :=
  if s.key.any (·.required) then none else some { s with key := none }

/-- Remembers the next token as a possible key. -/
def saveKey (s : Scanner) : Option Scanner :=
  if s.keyAllowed then do
    let c := s.cursor
    let key : SimpleKey :=
      { required := !s.inFlow && s.indent == c.column, token := s.tokens.length,
        index := c.index, line := c.line, column := c.column }
    let s ← s.removeKey
    return { s with key := some key }
  else some s

/-- Opens a block at a column, if that lies further to the right; its token goes
before all but the first `n` tokens. -/
def rollIndent (s : Scanner) (column n : Nat) (t : Token) : Scanner :=
  if !s.inFlow ∧ s.indent < column then
    { s.insert n t with indent := column, outerIndents := s.indent :: s.outerIndents }
  else s

/-- Closes the blocks that are open further to the right than `column`. -/
def unrollIndents (column : Int) : List Int → Int → List Token → Int × List Int × List Token
  | [], indent, tokens => (indent, [], tokens)
  | outer :: indents, indent, tokens =>
    if column < indent then unrollIndents column indents outer (.blockEnd :: tokens)
    else (indent, outer :: indents, tokens)

def unrollIndent (s : Scanner) (column : Int) : Scanner :=
  if s.inFlow then s
  else
    let (indent, outerIndents, tokens) := unrollIndents column s.outerIndents s.indent s.tokens
    { s with indent, outerIndents, tokens }

/-- The token for what stands at the cursor, which is `n` characters long. -/
def take (s : Scanner) (n : Nat) (t : Token) : Scanner :=
  { s.push t with cursor := s.cursor.skipN n }

def allowKey (s : Scanner) (allowed : Bool) : Scanner := { s with keyAllowed := allowed }

def fetchDirective (s : Scanner) : Option Scanner := do
  let s ← (s.unrollIndent (-1)).removeKey
  let (d, cursor) ← directive s.cursor
  return { (s.allowKey false).push (.directive d) with cursor }

def fetchDocumentMark (s : Scanner) (t : Token) : Option Scanner := do
  let s ← (s.unrollIndent (-1)).removeKey
  return (s.allowKey false).take 3 t

def fetchFlowStart (s : Scanner) (t : Token) : Option Scanner := do
  let s ← s.saveKey
  return { (s.allowKey true).take 1 t with key := none, outerKeys := s.key :: s.outerKeys }

def fetchFlowEnd (s : Scanner) (t : Token) : Option Scanner := do
  let s ← s.removeKey
  let s := (s.allowKey false).take 1 t
  match s.outerKeys with
  | [] => return s
  | key :: outerKeys => return { s with key, outerKeys }

def fetchFlowEntry (s : Scanner) : Option Scanner := do
  let s ← s.removeKey
  return (s.allowKey true).take 1 .flowEntry

/-- Opens a block of entries or of keys at the cursor. -/
def openBlock (s : Scanner) (t : Token) : Option Scanner :=
  if s.inFlow then some s
  else if s.keyAllowed then some (s.rollIndent s.cursor.column s.tokens.length t)
  else none

def fetchBlockEntry (s : Scanner) : Option Scanner := do
  let s ← s.openBlock .blockSequenceStart
  let s ← s.removeKey
  return (s.allowKey true).take 1 .blockEntry

def fetchKey (s : Scanner) : Option Scanner := do
  let s ← s.openBlock .blockMappingStart
  let s ← s.removeKey
  return (s.allowKey (!s.inFlow)).take 1 .key

def fetchValue (s : Scanner) : Option Scanner :=
  match s.key with
  | some key =>
    let s := (s.insert key.token .key).rollIndent key.column key.token .blockMappingStart
    some (({ s with key := none }.allowKey false).take 1 .value)
  | none => do
    let s ← s.openBlock .blockMappingStart
    return (s.allowKey (!s.inFlow)).take 1 .value

/-- Reads the name of an anchor or an alias, which ends before a gap or certain
indicators. -/
def anchorName (c : Cursor) : Option (String × Cursor) := do
  let (name, c) := c.skip.takeWhile isWordChar
  guard (!name.isEmpty && (isGap c.next? || (c.next?.map "?:,]\x7d%@`".toList.contains).getD false))
  return (String.ofList name, c)

def fetchAnchor (s : Scanner) (token : String → Token) : Option Scanner := do
  let s ← s.saveKey
  let (name, cursor) ← anchorName s.cursor
  return { (s.allowKey false).push (token name) with cursor }

def fetchTag (s : Scanner) : Option Scanner := do
  let s ← s.saveKey
  let (tag, cursor) ← tagToken s.inFlow s.cursor
  return { (s.allowKey false).push (.tag tag) with cursor }

def fetchBlockScalar (s : Scanner) (literal : Bool) : Option Scanner := do
  let s ← s.removeKey
  let (text, cursor) ← blockScalar literal s.indent s.cursor
  let style := if literal then Style.literal else .folded
  return { (s.allowKey true).push (.scalar text style) with cursor }

def fetchQuotedScalar (s : Scanner) (single : Bool) : Option Scanner := do
  let s ← s.saveKey
  let (text, cursor) ← quotedScalar single s.cursor
  return { (s.allowKey false).push (.scalar text .quoted) with cursor }

def fetchPlainScalar (s : Scanner) : Option Scanner := do
  let s ← s.saveKey
  let (text, hasBreak, cursor) ← plainScalar s.inFlow (s.indent + 1) s.cursor
  return { (s.allowKey hasBreak).push (.scalar text .plain) with cursor }

/-- Closes everything at the end of the text. -/
def finish (s : Scanner) : Option (List Token) := do
  let s ← (s.unrollIndent (-1)).removeKey
  return s.tokens.reverse

/-- Characters that no plain scalar starts with. -/
def isIndicator (c : Char) : Bool := "-?:,[]\x7b\x7d#&*!|>'\"%@`".toList.contains c

/-- Whether a plain scalar starts with `c`, before `next`. Where that is part of
a word, some indicators are part of it too. -/
def startsPlain (flow : Bool) (c : Char) (next : Option Char) : Bool :=
  !(isGap (some c) || isIndicator c) || (c == '-' && !(next.map isBlank).getD false) ||
    (!flow && (c == '?' || c == ':') && !isGap next)

/-- Reads the token that starts with `ch` at the cursor. -/
def fetch (s : Scanner) (ch : Char) : Option Scanner :=
  let c := s.cursor
  let next := c.ahead? 1
  let flow := s.inFlow
  if c.column = 0 ∧ ch = '%' then s.fetchDirective
  else if c.atMark '-' then s.fetchDocumentMark .documentStart
  else if c.atMark '.' then s.fetchDocumentMark .documentEnd
  else if ch = '[' then s.fetchFlowStart .flowSequenceStart
  else if ch = '{' then s.fetchFlowStart .flowMappingStart
  else if ch = ']' then s.fetchFlowEnd .flowSequenceEnd
  else if ch = '}' then s.fetchFlowEnd .flowMappingEnd
  else if ch = ',' then s.fetchFlowEntry
  else if ch = '-' ∧ isGap next then s.fetchBlockEntry
  else if ch = '?' ∧ (flow ∨ isGap next) then s.fetchKey
  else if ch = ':' ∧ (flow ∨ isGap next) then s.fetchValue
  else if ch = '*' then s.fetchAnchor .alias
  else if ch = '&' then s.fetchAnchor .anchor
  else if ch = '!' then s.fetchTag
  else if ch = '|' ∧ !flow then s.fetchBlockScalar true
  else if ch = '>' ∧ !flow then s.fetchBlockScalar false
  else if ch = '\'' then s.fetchQuotedScalar true
  else if ch = '"' then s.fetchQuotedScalar false
  else if startsPlain flow ch next then s.fetchPlainScalar
  else none

/-- Reads tokens to the end of the text. Each takes a character at least, so that
the first argument, which is greater than the number of characters, bounds their
number and that of the lines before each. -/
def run : Nat → Scanner → Option (List Token)
  | 0, _ => none
  | fuel + 1, s => do
    let s := skipGap (fuel + 1) s
    let s ← s.dropStaleKeys
    let s := s.unrollIndent s.cursor.column
    match s.cursor.next? with
    | none => s.finish
    | some ch => s.fetch ch >>= run fuel

end Scanner

/-- Cuts a text into tokens; `none` for one that holds a character that is not
allowed or that cannot be cut. -/
def Token.scan? (text : List Char) : Option (List Token) :=
  if text.all isAllowed then Scanner.run (text.length + 1) { cursor := { rest := text } }
  else none

end Dbml.Yaml
