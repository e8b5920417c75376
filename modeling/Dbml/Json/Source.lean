import Dbml.Data.Record
import Dbml.Json.Tree

/-!
# Reading data from JSON

A place of a JSON document is a tree with the nesting that is left to it
(`Place`). Faults of the text and of its shape are met in the order of the text,
and what follows the document is looked at last (`Json.read`).
-/

namespace Dbml.Json

open Data (Datum Expected Found Items Members Mismatch Source Wording)

/-- Why a document cannot be read. -/
inductive Error
  | malformed (fault : Malformed)
  | mismatch (fault : Mismatch)
  deriving DecidableEq, Repr

/-- Nothing is called `null`, and numbers are written as in documents. -/
def wording : Wording := ⟨"null", Binary64.writeBounded⟩

def Error.message : Error → String
  | .malformed fault => fault.message
  | .mismatch fault => fault.message wording

/-- A fault of the text, as a fault of the document. -/
def lift {α : Type} (result : Except Malformed α) : Except Error α := result.mapError .malformed

/-- The deepest nesting of values that are read is one less. -/
def maxDepth : Nat := 128

/-- The nesting left inside a list or an object. -/
def enter (depth : Nat) : Except Malformed Nat :=
  if depth ≤ 1 then .error .tooDeep else .ok (depth - 1)

namespace Literal

/-- The value of a literal that is read. -/
def value (l : Literal) : Except Malformed Number :=
  match l.value? with
  | some n => .ok n
  | none => .error .numberOutOfRange

end Literal

namespace Tree

mutual

/-- Reads a tree as an untyped datum. -/
def datum (depth : Nat) : Tree → Except Malformed Datum
  | .broken _ fault => .error fault.read
  | .null => .ok .null
  | .bool b => .ok (.bool b)
  | .number literal => .number <$> literal.value
  | .string token => .text <$> token.value
  | .array items ending => do
    let depth ← enter depth
    let data ← dataOf depth items
    ending.more
    return .sequence data
  | .object members ending => do
    let depth ← enter depth
    let entries ← entriesOf depth members
    ending.more
    return .map entries

def dataOf (depth : Nat) : List Tree → Except Malformed (List Datum)
  | [] => .ok []
  | item :: items => do
    let first ← item.datum depth
    let rest ← dataOf depth items
    return first :: rest

def entriesOf (depth : Nat) : List (StringToken × Tree) → Except Malformed (List (Datum × Datum))
  | [] => .ok []
  | (key, value) :: members => do
    let name ← key.value
    let first ← value.datum depth
    let rest ← entriesOf depth members
    return (.text name, first) :: rest

end

/-- What a tree is, to a reader who expects something else: scalars are read
before they are refused, lists and objects are not. -/
def found : Tree → Except Malformed Found
  | .broken _ fault => .error fault.read
  | .null => .ok .null
  | .bool b => .ok (.bool b)
  | .number literal => .number <$> literal.value
  | .string token => .text <$> token.value
  | .array _ _ => .ok .sequence
  | .object _ _ => .ok .map

end Tree

/-- A place of a document. -/
structure Place where
  tree : Tree
  depth : Nat

namespace Place

/-- Refuses the place. -/
def refuse {α : Type} (c : Place) (expected : Expected) : Except Error α := do
  let found ← lift c.tree.found
  throw (.mismatch (.wrongType found expected))

def text (expected : Expected) (c : Place) : Except Error String :=
  match c.tree with
  | .string token => lift token.value
  | _ => c.refuse expected

def bool (c : Place) : Except Error Bool :=
  match c.tree with
  | .bool b => .ok b
  | _ => c.refuse .bool

def optional (c : Place) : Except Error (Option Place) :=
  match c.tree with
  | .null => .ok none
  | _ => .ok (some c)

/-- The items of a list one level further in. -/
def itemsAt (depth : Nat) (items : List Tree) (ending : ArrayEnd) : Items Place (Except Error) where
  elements := items.map (⟨·, depth⟩)
  beyond := lift ending.more
  leftover n := lift (if n < items.length then .error .trailingCharacters else ending.close)

def items (c : Place) : Except Error (Items Place (Except Error)) :=
  match c.tree with
  | .array items ending => do
    let depth ← lift (enter c.depth)
    return itemsAt depth items ending
  | _ => c.refuse .sequence

def members (expected : Expected) (c : Place) : Except Error (Members Place (Except Error)) :=
  match c.tree with
  | .object members ending => do
    let depth ← lift (enter c.depth)
    let named := members.map fun (key, value) =>
      (lift (Datum.text <$> key.value), ⟨value, depth⟩)
    return .named named (lift ending.more)
  | .array items ending => do
    let depth ← lift (enter c.depth)
    return .positional (itemsAt depth items ending)
  | _ => c.refuse expected

/-- The members of a tagged record, of which a list has to be read to its end. -/
def taggedMembers (expected : Expected) (c : Place) : Except Error (Members Place (Except Error)) :=
  c.members expected

/-- A name stands alone or as the one key of an object that gives it nothing. What
does not start like either is refused unread. -/
def variant {α : Type} (recognise : String → Except Mismatch α) (c : Place) : Except Error α :=
  match c.tree with
  | .string token => do
    let name ← lift token.value
    (recognise name).mapError .mismatch
  | .object members ending => do
    let depth ← lift (enter c.depth)
    match members, ending with
    | [], ending =>
      lift ending.more
      throw (.malformed .noValue)
    | (key, value) :: more, ending =>
      let name ← lift key.value
      let result ← (recognise name).mapError .mismatch
      match value with
      | .null => pure ()
      | value => Place.refuse ⟨value, depth⟩ .unit
      match more, ending with
      | [], .closed => return result
      | [], .cut => throw (.malformed .cutObject)
      | _, _ => throw (.malformed .noValue)
  | .broken false fault => throw (.malformed fault.read)
  | _ => throw (.malformed .noValue)

end Place

instance : Source Place (Except Error) where
  fail fault := .error (.mismatch fault)
  place _ result := result
  text := Place.text
  bool := Place.bool
  optional := Place.optional
  items := Place.items
  members := Place.members
  taggedMembers _ := Place.taggedMembers
  variant := Place.variant
  datum c := lift (c.tree.datum c.depth)
  pass c := lift c.tree.pass

/-- Reads a document: its value, and then that nothing follows. -/
def read {α : Type} (reader : Place → Except Error α) (text : String) : Except Error α := do
  let (tree, trailing) := Tree.scan text.toList
  let value ← reader ⟨tree, maxDepth⟩
  if trailing then throw (.malformed .trailingCharacters) else return value

end Dbml.Json
