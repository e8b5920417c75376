import Dbml.Yaml.Token

/-!
# YAML nodes

Tokens form a tree of nodes (`Node.ofTokens?`). A node may have an anchor and a
tag; where nothing is written, a node is an empty scalar. A text is one document,
and whatever follows that is more than its end is an error.
-/

namespace Dbml.Yaml

/-- What a node may have whatever it is. -/
structure Properties where
  anchor : Option String := none
  tag : Option Tag := none
  deriving DecidableEq, Repr

inductive Node
  | scalar (properties : Properties) (text : String) (style : Style)
  | sequence (properties : Properties) (items : List Node)
  | mapping (properties : Properties) (entries : List (Node × Node))
  | alias (name : String)
  deriving Inhabited

/-- Reads an `α` that some tokens start with, and leaves the tokens after it. -/
abbrev TokenReader (α : Type) := List Token → Option (α × List Token)

namespace Node

/-- Where nothing is written. -/
def empty : Node := .scalar {} "" .plain

/-- The tag of a token, by the handles of the document. -/
def tagOf (handles : TagHandles) (t : TagToken) : Option (Option Tag) :=
  (t.resolve? handles).map some

/-- Reads an anchor and a tag, in either order. -/
def properties (handles : TagHandles) : TokenReader Properties
  | .anchor a :: .tag t :: ts => do return ({ anchor := a, tag := ← tagOf handles t }, ts)
  | .tag t :: .anchor a :: ts => do return ({ anchor := a, tag := ← tagOf handles t }, ts)
  | .anchor a :: ts => some ({ anchor := a }, ts)
  | .tag t :: ts => do return ({ tag := ← tagOf handles t }, ts)
  | ts => some ({}, ts)

/-- A node of which only properties are written. -/
def emptyNode (p : Properties) : TokenReader Node := fun ts =>
  if p = {} then none else some (.scalar p "" .plain, ts)

/-- Whether nothing is written for an entry of a block. -/
def endsBlockEntry (indentless : Bool) : List Token → Bool
  | .blockEntry :: _ | .blockEnd :: _ => true
  | .key :: _ | .value :: _ => indentless
  | _ => false

/-- Whether nothing is written for a key or a value in a block. -/
def endsBlockPair : List Token → Bool
  | .key :: _ | .value :: _ | .blockEnd :: _ => true
  | _ => false

mutual

/-- Reads a node. In a block it may be a block; after a key or a value a sequence
may start at the column of the mapping. -/
def parse (handles : TagHandles) : Nat → Bool → Bool → TokenReader Node
  | 0, _, _, _ => none
  | _, _, _, .alias name :: ts => some (.alias name, ts)
  | fuel + 1, block, indentless, ts => do
    let (p, ts) ← properties handles ts
    match ts with
    | .scalar text style :: ts => return (.scalar p text style, ts)
    | .flowSequenceStart :: ts =>
      let (items, ts) ← parseFlowSequence handles fuel true ts
      return (.sequence p items, ts)
    | .flowMappingStart :: ts =>
      let (entries, ts) ← parseFlowMapping handles fuel true ts
      return (.mapping p entries, ts)
    | .blockEntry :: _ =>
      if indentless then
        let (items, ts) ← parseBlockSequence handles fuel true ts
        return (.sequence p items, ts)
      else emptyNode p ts
    | .blockSequenceStart :: rest =>
      if block then
        let (items, ts) ← parseBlockSequence handles fuel false rest
        return (.sequence p items, ts)
      else emptyNode p ts
    | .blockMappingStart :: rest =>
      if block then
        let (entries, ts) ← parseBlockMapping handles fuel rest
        return (.mapping p entries, ts)
      else emptyNode p ts
    | _ => emptyNode p ts

/-- Reads the entries of a block sequence. One at the column of its mapping has
no end of its own. -/
def parseBlockSequence (handles : TagHandles) : Nat → Bool → TokenReader (List Node)
  | 0, _, _ => none
  | fuel + 1, indentless, .blockEntry :: ts => do
    let (item, ts) ←
      if endsBlockEntry indentless ts then pure (Node.empty, ts)
      else parse handles fuel true false ts
    let (items, ts) ← parseBlockSequence handles fuel indentless ts
    return (item :: items, ts)
  | _, false, .blockEnd :: ts => some ([], ts)
  | _, true, ts => some ([], ts)
  | _, false, _ => none

/-- Reads the pairs of a block mapping. -/
def parseBlockMapping (handles : TagHandles) : Nat → TokenReader (List (Node × Node))
  | 0, _ => none
  | fuel + 1, .key :: ts => do
    let (key, ts) ←
      if endsBlockPair ts then pure (Node.empty, ts) else parse handles fuel true true ts
    let (value, ts) ← parseBlockValue handles fuel ts
    let (entries, ts) ← parseBlockMapping handles fuel ts
    return ((key, value) :: entries, ts)
  | _, .blockEnd :: ts => some ([], ts)
  | _, _ => none

/-- Reads the value of a pair in a block, if there is one. -/
def parseBlockValue (handles : TagHandles) : Nat → TokenReader Node
  | fuel + 1, .value :: ts =>
    if endsBlockPair ts then some (Node.empty, ts) else parse handles fuel true true ts
  | _, ts => some (Node.empty, ts)

/-- Reads the elements of a flow sequence. A pair among them is a mapping. -/
def parseFlowSequence (handles : TagHandles) : Nat → Bool → TokenReader (List Node)
  | 0, _, _ => none
  | _, _, .flowSequenceEnd :: ts => some ([], ts)
  | fuel + 1, false, .flowEntry :: ts => parseFlowElement handles fuel ts
  | fuel + 1, true, ts => parseFlowElement handles fuel ts
  | _, false, _ => none

/-- Reads an element of a flow sequence, if there is one, and those after it. -/
def parseFlowElement (handles : TagHandles) : Nat → TokenReader (List Node)
  | 0, _ => none
  | _, .flowSequenceEnd :: ts => some ([], ts)
  | fuel + 1, .key :: ts => do
    let (pair, ts) ← parseFlowPair handles fuel ts
    let (items, ts) ← parseFlowSequence handles fuel false ts
    return (.mapping {} [pair] :: items, ts)
  | fuel + 1, ts => do
    let (item, ts) ← parse handles fuel false false ts
    let (items, ts) ← parseFlowSequence handles fuel false ts
    return (item :: items, ts)

/-- Reads a pair in a flow sequence. Where its key is empty, the token after the
mark of the key is passed over. -/
def parseFlowPair (handles : TagHandles) : Nat → TokenReader (Node × Node)
  | 0, _ => none
  | fuel + 1, ts => do
    let (key, ts) ← match ts with
      | .value :: ts | .flowEntry :: ts | .flowSequenceEnd :: ts => pure (Node.empty, ts)
      | ts => parse handles fuel false false ts
    match ts with
    | .value :: .flowEntry :: ts => return ((key, .empty), .flowEntry :: ts)
    | .value :: .flowSequenceEnd :: ts => return ((key, .empty), .flowSequenceEnd :: ts)
    | .value :: ts =>
      let (value, ts) ← parse handles fuel false false ts
      return ((key, value), ts)
    | ts => return ((key, .empty), ts)

/-- Reads the pairs of a flow mapping. -/
def parseFlowMapping (handles : TagHandles) : Nat → Bool → TokenReader (List (Node × Node))
  | 0, _, _ => none
  | _, _, .flowMappingEnd :: ts => some ([], ts)
  | fuel + 1, false, .flowEntry :: ts => parseFlowEntry handles fuel ts
  | fuel + 1, true, ts => parseFlowEntry handles fuel ts
  | _, false, _ => none

/-- Reads a pair of a flow mapping, if there is one, and those after it. A node
without the mark of a key is a key without a value. -/
def parseFlowEntry (handles : TagHandles) : Nat → TokenReader (List (Node × Node))
  | 0, _ => none
  | _, .flowMappingEnd :: ts => some ([], ts)
  | fuel + 1, .key :: ts => do
    let (key, ts) ← match ts with
      | .value :: _ | .flowEntry :: _ | .flowMappingEnd :: _ => pure (Node.empty, ts)
      | ts => parse handles fuel false false ts
    let (value, ts) ← parseFlowValue handles fuel ts
    let (entries, ts) ← parseFlowMapping handles fuel false ts
    return ((key, value) :: entries, ts)
  | fuel + 1, ts => do
    let (key, ts) ← parse handles fuel false false ts
    let (entries, ts) ← parseFlowMapping handles fuel false ts
    return ((key, .empty) :: entries, ts)

/-- Reads the value of a pair in a flow mapping, if there is one. -/
def parseFlowValue (handles : TagHandles) : Nat → TokenReader Node
  | 0, _ => none
  | fuel + 1, .value :: ts =>
    match ts with
    | .flowEntry :: _ | .flowMappingEnd :: _ => some (Node.empty, ts)
    | ts => parse handles fuel false false ts
  | _, ts => some (Node.empty, ts)

end

/-- Reads the directives of a document: whether it has a version, and its
handles, none of them twice. -/
def directives (versioned : Bool) (handles : TagHandles) : TokenReader TagHandles
  | .directive (.version major minor) :: ts =>
    if versioned ∨ major ≠ 1 ∨ (minor ≠ 1 ∧ minor ≠ 2) then none
    else directives true handles ts
  | .directive (.tag handle meaning) :: ts =>
    if (handles.lookup handle).isSome then none
    else directives versioned ((handle, meaning) :: handles) ts
  | ts => some (handles, ts)

/-- Whether nothing is written for a document after its start. -/
def endsDocument : List Token → Bool
  | [] | .directive _ :: _ | .documentStart :: _ | .documentEnd :: _ => true
  | _ => false

/-- More than the depth of any tree of these tokens. -/
def fuelFor (ts : List Token) : Nat := 4 * ts.length + 4

/-- Reads a document that starts with directives or a mark. -/
def parseExplicit : TokenReader Node := fun ts => do
  let (handles, ts) ← directives false [] ts
  match ts with
  | .documentStart :: ts =>
    if endsDocument ts then return (.empty, ts)
    else parse (handles ++ standardHandles) (fuelFor ts) true false ts
  | _ => none

/-- Reads the one document of a text: nothing, or a node. -/
def ofTokens? (ts : List Token) : Option (Option Node) :=
  match ts with
  | [] => some none
  | _ => do
    let (node, rest) ←
      if endsDocument ts && ts.head? != some .documentEnd then parseExplicit ts
      else parse standardHandles (fuelFor ts) true false ts
    guard (rest.all (· = .documentEnd))
    return some node

end Node

end Dbml.Yaml
