import Dbml.Schema.ColumnDefault

/-!
# Fields

A field of a model is a column of its table or, if its kind is `object`, one
side of a relation. The side that lists columns in `fromFields` holds the
foreign key; the columns in `toFields` are the ones it references.
-/

namespace Dbml

open Data (Mismatch Slot Source)
open Json (Value)

/-- What the type of a field refers to. -/
inductive FieldKind
  | scalar
  | object
  | enumeration
  | unsupported
  deriving DecidableEq, Repr

namespace FieldKind

def all : List FieldKind := [.scalar, .object, .enumeration, .unsupported]

def name : FieldKind → String
  | .scalar => "scalar"
  | .object => "object"
  | .enumeration => "enum"
  | .unsupported => "unsupported"

end FieldKind

/-- What becomes of a row when the row that it references is deleted. -/
inductive DeleteAction
  | cascade
  | restrict
  | noAction
  | setNull
  | setDefault
  deriving DecidableEq, Repr

namespace DeleteAction

def all : List DeleteAction := [.cascade, .restrict, .noAction, .setNull, .setDefault]

/-- The name in a document. -/
def name : DeleteAction → String
  | .cascade => "Cascade"
  | .restrict => "Restrict"
  | .noAction => "NoAction"
  | .setNull => "SetNull"
  | .setDefault => "SetDefault"

/-- The words in a reference. -/
def words : DeleteAction → String
  | .cascade => "Cascade"
  | .restrict => "Restrict"
  | .noAction => "No Action"
  | .setNull => "Set Null"
  | .setDefault => "Set Default"

end DeleteAction

/-- Finds the value of a name among all values of a type. -/
def recognise {α : Type} (all : List α) (nameOf : α → String) (name : String) :
    Except Mismatch α :=
  match all.find? (nameOf · == name) with
  | some value => .ok value
  | none => .error (.unknownVariant name (all.map nameOf))

/-- What a field says about its relation. -/
structure RelationSide where
  name : Option String := none
  fromFields : List String := []
  toFields : List String := []
  onDelete : Option DeleteAction := none
  deriving DecidableEq, Repr, Inhabited

def RelationSide.holdsForeignKey (side : RelationSide) : Bool := !side.fromFields.isEmpty

structure Field where
  name : String
  kind : FieldKind
  type : String
  isId : Bool := false
  isUnique : Bool := false
  isRequired : Bool := false
  isList : Bool := false
  default : Option ColumnDefault := none
  documentation : Option String := none
  relation : Option RelationSide := none
  deriving Repr

namespace Field

/-- One side of a relation. -/
def isRelation (f : Field) : Bool := f.kind = .object

def holdsForeignKey (f : Field) : Bool := f.relation.any (·.holdsForeignKey)

/-- The name that the field gives its relation. -/
def relationName (f : Field) : Option String := f.relation.bind (·.name)

end Field

/-- A member that is written only if there is a value. -/
def optionalMember (name : String) (value : Option Value) : List (String × Value) :=
  match value with
  | some value => [(name, value)]
  | none => []

/-- A list of texts. -/
def textsValue (texts : List String) : Value := .array (texts.map .string)

/-- A member that is written only if the list is not empty. -/
def textsMember (name : String) (texts : List String) : List (String × Value) :=
  if texts.isEmpty then [] else [(name, textsValue texts)]

namespace RelationSide

def toValue (side : RelationSide) : Value :=
  .object (optionalMember "name" (side.name.map .string) ++
    textsMember "fromFields" side.fromFields ++ textsMember "toFields" side.toFields ++
    optionalMember "onDelete" (side.onDelete.map fun action => .string action.name))

end RelationSide

namespace Field

def toValue (f : Field) : Value :=
  .object ([("name", .string f.name), ("kind", .string f.kind.name), ("type", .string f.type),
      ("isId", .bool f.isId), ("isUnique", .bool f.isUnique), ("isRequired", .bool f.isRequired),
      ("isList", .bool f.isList)] ++
    optionalMember "default" (f.default.map (·.toValue)) ++
    optionalMember "documentation" (f.documentation.map .string) ++
    optionalMember "relation" (f.relation.map (·.toValue)))

end Field

variable {σ : Type} {m : Type → Type} [Monad m] [Source σ m]

def FieldKind.read (c : σ) : m FieldKind :=
  Source.variant (recognise FieldKind.all FieldKind.name) c

def DeleteAction.read (c : σ) : m DeleteAction :=
  Source.variant (recognise DeleteAction.all DeleteAction.name) c

/-- Reads a list of texts. -/
def readTexts : σ → m (List String) := Data.readList Data.readText

namespace RelationSide

structure Draft where
  name : Option (Option String) := none
  fromFields : Option (List String) := none
  toFields : Option (List String) := none
  onDelete : Option (Option DeleteAction) := none

def slots : List (Slot σ m Draft) :=
  [.ofLens "name" false (·.name) (fun d v => { d with name := some v })
    (Data.readOptional Data.readText),
   .ofLens "fromFields" false (·.fromFields) (fun d v => { d with fromFields := some v }) readTexts,
   .ofLens "toFields" false (·.toFields) (fun d v => { d with toFields := some v }) readTexts,
   .ofLens "onDelete" false (·.onDelete) (fun d v => { d with onDelete := some v })
    (Data.readOptional DeleteAction.read)]

def ofDraft (d : Draft) : Except Mismatch RelationSide :=
  .ok { name := d.name.join, fromFields := d.fromFields.getD [], toFields := d.toFields.getD [],
        onDelete := d.onDelete.join }

def read (c : σ) : m RelationSide := Data.readRecord "RelationDef" slots {} ofDraft c

end RelationSide

namespace Field

structure Draft where
  name : Option String := none
  kind : Option FieldKind := none
  type : Option String := none
  isId : Option Bool := none
  isUnique : Option Bool := none
  isRequired : Option Bool := none
  isList : Option Bool := none
  default : Option (Option ColumnDefault) := none
  documentation : Option (Option String) := none
  relation : Option (Option RelationSide) := none

def slots : List (Slot σ m Draft) :=
  [.ofLens "name" true (·.name) (fun d v => { d with name := some v }) Data.readText,
   .ofLens "kind" true (·.kind) (fun d v => { d with kind := some v }) FieldKind.read,
   .ofLens "type" true (·.type) (fun d v => { d with type := some v }) Data.readText,
   .ofLens "isId" false (·.isId) (fun d v => { d with isId := some v }) Data.readBool,
   .ofLens "isUnique" false (·.isUnique) (fun d v => { d with isUnique := some v }) Data.readBool,
   .ofLens "isRequired" false (·.isRequired) (fun d v => { d with isRequired := some v })
    Data.readBool,
   .ofLens "isList" false (·.isList) (fun d v => { d with isList := some v }) Data.readBool,
   .ofLens "default" false (·.default) (fun d v => { d with default := some v })
    (Data.readOptional ColumnDefault.read),
   .ofLens "documentation" false (·.documentation) (fun d v => { d with documentation := some v })
    (Data.readOptional Data.readText),
   .ofLens "relation" false (·.relation) (fun d v => { d with relation := some v })
    (Data.readOptional RelationSide.read)]

def ofDraft (d : Draft) : Except Mismatch Field := do
  let name ← Data.required "name" d.name
  let kind ← Data.required "kind" d.kind
  let type ← Data.required "type" d.type
  return {
    name, kind, type
    isId := d.isId.getD false
    isUnique := d.isUnique.getD false
    isRequired := d.isRequired.getD false
    isList := d.isList.getD false
    default := d.default.join
    documentation := d.documentation.join
    relation := d.relation.join }

def read (c : σ) : m Field := Data.readRecord "FieldDef" slots {} ofDraft c

end Field

end Dbml
