import Dbml.Data.Record
import Dbml.Yaml.Scalar

/-!
# Reading data from YAML

A place of a YAML document is a node with the way that led to it (`Place`). A
text is taken from any scalar, whatever it looks like; truth values, numbers and
nothing are told from it. Where nothing is written, a list or a record has no
parts. The document as a whole is looked at first, so that a fault of its form
is reported before any of its content (`Yaml.read`).
-/

namespace Dbml.Yaml

open Data (Datum Expected Found Items Members Mismatch Source Wording)

/-- The way from the root to a node. -/
inductive Path
  | root
  | index (parent : Path) (index : Nat)
  | key (parent : Path) (name : String)
  | unknown (parent : Path)
  /-- Through an alias. -/
  | alias (parent : Path)
  deriving DecidableEq, Repr

namespace Path

mutual

def text : Path → String
  | .root => "."
  | .index parent i => parent.text ++ "[" ++ Nat.repr i ++ "]"
  | .key parent name => parent.leading ++ name
  | .unknown parent => parent.leading ++ "?"
  | .alias parent => parent.text

/-- What leads to a key. -/
def leading : Path → String
  | .root => ""
  | .index parent i => parent.text ++ "[" ++ Nat.repr i ++ "]."
  | .key parent name => parent.leading ++ name ++ "."
  | .unknown parent => parent.leading ++ "?."
  | .alias parent => parent.text ++ "."

end

end Path

/-- Why a document cannot be read. -/
inductive Error
  | malformed
  | tooDeep
  | tooManyAliases
  | noDocument
  | mismatch (path : Option Path) (fault : Mismatch)
  deriving DecidableEq, Repr

/-- Nothing is a unit, and numbers are always written out. -/
def wording : Wording := ⟨"unit value", Binary64.writePositional⟩

/-- The wording of a fault of the content; a malformed text has none. -/
def Error.message? : Error → Option String
  | .malformed => none
  | .tooDeep => some "recursion limit exceeded"
  | .tooManyAliases => some "repetition limit exceeded"
  | .noDocument => some "EOF while parsing a value"
  | .mismatch (some path) fault =>
    if path.text = Path.root.text then some (fault.message wording)
    else some (path.text ++ ": " ++ fault.message wording)
  | .mismatch none fault => some (fault.message wording)

/-- The deepest nesting of collections. -/
def maxDepth : Nat := 128

/-- Aliases are followed at most this often for each part of a document. -/
def aliasesPerPart : Nat := 100

/-- Reading with the number of aliases that may still be followed. -/
abbrev Reading := StateT Nat (Except Error)

/-- A place of a document; without a node if the text holds no document. -/
structure Place where
  document : Anchored
  node : Option Linked
  path : Path
  depth : Nat

namespace Place

/-- A mismatch at a place. -/
def fault (path : Path) (m : Mismatch) : Error := .mismatch (some path) m

/-- Follows an alias to its node. -/
def follow (document : Anchored) (number : Nat) : Reading Linked := do
  match ← get with
  | 0 => throw .tooManyAliases
  | left + 1 =>
    set left
    match document.lookup number with
    | some node => return node
    | none => throw .malformed

/-- The place that a place stands for. -/
def resolved (c : Place) : Reading Place := do
  match c.node with
  | some (.alias n) => return { c with node := some (← follow c.document n), path := .alias c.path }
  | _ => return c

/-- The fault of a place that is not as expected. -/
def refusal (c : Place) (expected : Expected) : Error :=
  match c.node with
  | none => .noDocument
  | some (.scalar tag text style) =>
    match resolve tag text style with
    | .ok found => fault c.path (.wrongType found expected)
    | .error m => fault c.path m
  | some (.sequence _ _) => fault c.path (.wrongType .sequence expected)
  | some (.mapping _ _) => fault c.path (.wrongType .map expected)
  | some (.alias _) => .malformed

def refuse {α : Type} (c : Place) (expected : Expected) : Reading α := throw (c.refusal expected)

def text (expected : Expected) (c : Place) : Reading String := do
  let c ← c.resolved
  match c.node with
  | some (.scalar _ text _) => return text
  | _ => c.refuse expected

/-- Whether a scalar may be taken for a truth value. -/
def mayBeBool (tag : Option Tag) (style : Style) : Bool :=
  style = .plain || (style = .literal && tag == some (Tag.core "bool"))

/-- The truth value that a node is. -/
def boolOfNode? : Linked → Option Bool
  | .scalar tag text style => if mayBeBool tag style then boolOf? text else none
  | _ => none

def bool (c : Place) : Reading Bool := do
  let c ← c.resolved
  match c.node.bind boolOfNode? with
  | some b => return b
  | none => c.refuse .bool

/-- Whether a scalar is nothing: a plain one that looks so, unless a tag says
otherwise. -/
def isNothing (tag : Option Tag) (text : String) (style : Style) : Except Mismatch Bool :=
  if style ≠ .plain then .ok false
  else match tag with
    | none => .ok (isNullOrEmpty text)
    | some tag =>
      if tag = Tag.core "null" then
        if isNull text then .ok true else .error (.wrongText text .nullText)
      else .ok false

def optional (c : Place) : Reading (Option Place) := do
  let c ← c.resolved
  match c.node with
  | none => return none
  | some (.scalar tag text style) =>
    let nothing ← (isNothing tag text style).mapError (Error.mismatch none)
    return if nothing then none else some c
  | some _ => return some c

/-- The nesting left inside a collection. -/
def enter (depth : Nat) : Except Error Nat :=
  match depth with
  | 0 => .error .tooDeep
  | depth + 1 => .ok depth

/-- A place further in. -/
def child (c : Place) (depth : Nat) (path : Path) (node : Linked) : Place :=
  { c with node := some node, path, depth }

/-- A list of places that ends well. -/
def itemsOf (places : List Place) : Items Place Reading where
  elements := places
  beyond := return ()
  leftover _ := return ()

/-- Whether nothing is written where a collection should be. -/
def isBlank (c : Place) : Bool :=
  match c.node with
  | none => true
  | some (.scalar _ text style) => text.isEmpty && style = .plain
  | some _ => false

/-- The places of the items of a sequence. -/
def elements (c : Place) (depth : Nat) (items : List Linked) : List Place :=
  items.zipIdx.map fun (item, i) => c.child depth (.index c.path i) item

def items (c : Place) : Reading (Items Place Reading) := do
  let c ← c.resolved
  match c.node with
  | some (.sequence _ items) => return itemsOf (c.elements (← enter c.depth) items)
  | _ => if c.isBlank then return itemsOf [] else c.refuse .sequence

/-- The way to the value of a key. -/
def keyPath (path : Path) : Linked → Path
  | .scalar _ text _ => .key path text
  | _ => .unknown path

/-- The places of the values of a mapping, with keys that are read by `readKey`. -/
def named (c : Place) (depth : Nat) (readKey : Place → Reading Datum)
    (entries : List (Linked × Linked)) : Members Place Reading :=
  .named (entries.map fun (key, value) =>
    (readKey (c.child depth c.path key), c.child depth (keyPath c.path key) value)) (return ())

def members (expected : Expected) (c : Place) : Reading (Members Place Reading) := do
  let c ← c.resolved
  match c.node with
  | some (.mapping _ entries) =>
    return c.named (← enter c.depth) (fun key => Datum.text <$> key.text .fieldName) entries
  | _ => if c.isBlank then return .named [] (return ()) else c.refuse expected

/-- A scalar as a datum, where `expected` would do. -/
def scalarDatum (expected : Expected) (path : Path) : Except Mismatch Found → Except Error Datum
  | .ok .null => .ok .null
  | .ok (.bool b) => .ok (.bool b)
  | .ok (.number n) => .ok (.number n)
  | .ok .minusZero => .ok .minusZero
  | .ok (.special x) => .ok (.special x)
  | .ok (.text s) => .ok (.text s)
  | .ok found => .error (fault path (.wrongType found expected))
  | .error m => .error (fault path m)

def tagOf : Linked → Option Tag
  | .scalar tag _ _ | .sequence tag _ | .mapping tag _ => tag
  | .alias _ => none

/-- The name that a node has from a tag of the document's choice. -/
def chosenName? (node : Linked) : Option String := (tagOf node).bind Tag.localName?

mutual

/-- Reads a node as an untyped datum, a scalar where `expected` would do. -/
def datumOf (document : Anchored) (expected : Expected) : Nat → Path → Linked → Reading Datum
  | depth, path, .alias n => do
    let node ← follow document n
    ownDatum document expected depth (.alias path) node
  | depth, path, node => ownDatum document expected depth path node

/-- Reads a node that is no alias. -/
def ownDatum (document : Anchored) (expected : Expected) (depth : Nat) (path : Path)
    (node : Linked) : Reading Datum :=
  if (chosenName? node).isSome then throw (fault path .strayTag)
  else match depth, node with
  | _, .scalar tag text style => liftM (scalarDatum expected path (resolve tag text style))
  | 0, _ => throw .tooDeep
  | depth + 1, .sequence _ items =>
    .sequence <$> items.zipIdx.mapM fun (item, i) =>
      datumOf document .anything depth (.index path i) item
  | depth + 1, .mapping _ entries =>
    .map <$> entries.mapM fun (key, value) => do
      let k ← datumOf document .anything depth path key
      let v ← datumOf document .anything depth (keyPath path key) value
      return (k, v)
  | _, .alias _ => throw .malformed

end

/-- Reads a place as an untyped datum. -/
def datum (expected : Expected) (c : Place) : Reading Datum :=
  match c.node with
  | none => return .null
  | some node => datumOf c.document expected c.depth c.path node

/-- The members of a tagged record: a mapping with untyped keys, or a sequence. -/
def taggedMembers (tag : String) (expected : Expected) (c : Place) :
    Reading (Members Place Reading) := do
  let c ← c.resolved
  match c.node with
  | none => throw (fault c.path (.wrongType .nothing expected))
  | some node =>
    if (chosenName? node).isSome then throw (fault c.path (.wrongType .tagged expected))
    else match node with
      | .mapping _ entries => return c.named (← enter c.depth) (datum (.tagOrAnything tag)) entries
      | .sequence _ items => return .positional (itemsOf (c.elements (← enter c.depth) items))
      | _ => c.refuse expected

/-- A name given by a tag has nothing else with it. -/
def unit (c : Place) : Reading Unit :=
  match c.node with
  | some (.scalar _ text style) =>
    if style = .plain ∧ isNullOrEmpty text then return ()
    else throw (fault c.path (.wrongText text .nullText))
  | none => return ()
  | some _ => c.refuse .unit

def variant {α : Type} (recognise : String → Except Mismatch α) (c : Place) : Reading α := do
  let c ← c.resolved
  match c.node, c.node.bind chosenName? with
  | none, _ => throw .noDocument
  | some _, some name =>
    let result ← (recognise name).mapError (Error.mismatch none)
    c.unit
    return result
  | some (.scalar _ text _), none => (recognise text).mapError (fault c.path)
  | some _, none => c.refuse .tag

/-- Gives a mismatch a place. -/
def placeError (c : Place) : Error → Error
  | .mismatch none m => fault c.path m
  | e => e

end Place

instance : Source Place Reading where
  fail m := throw (.mismatch none m)
  place c result := fun left => (result left).mapError c.placeError
  text := Place.text
  bool := Place.bool
  optional := Place.optional
  items := Place.items
  members := Place.members
  taggedMembers := Place.taggedMembers
  variant := Place.variant
  datum := Place.datum .anything
  pass _ := return ()

/-- The one document of a text, if it has one, with what its aliases stand for. -/
def document? (text : String) : Option (Option Anchored) := do
  match ← Node.ofTokens? (← Token.scan? text.toList) with
  | none => return none
  | some node => some <$> Anchored.ofNode? node

/-- Reads a document, or that there is none. -/
def readDocument {α : Type} (reader : Place → Reading α) (document : Option Anchored) :
    Except Error α :=
  match document with
  | none => (reader ⟨⟨default, []⟩, none, .root, maxDepth⟩).run' 0
  | some d => (reader ⟨d, some d.root, .root, maxDepth⟩).run' (aliasesPerPart * d.root.size)

/-- Reads the document of a text. -/
def read {α : Type} (reader : Place → Reading α) (text : String) : Except Error α :=
  match document? text with
  | none => .error .malformed
  | some document => readDocument reader document

end Dbml.Yaml
