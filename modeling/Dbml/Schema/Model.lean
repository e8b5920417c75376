import Dbml.Schema.Field

/-!
# Models and enumerations

A schema description lists models and enumerations (`DataModel`). A model has
fields in order and, beside the keys that single fields declare, keys of several
fields (`Model.isUniqueKey`).
-/

namespace Dbml

open Data (Mismatch Slot Source)
open Json (Value)

structure Model where
  name : String
  /-- The name of the table, where that differs. -/
  dbName : Option String := none
  fields : List Field
  documentation : Option String := none
  primaryKey : Option (List String) := none
  uniqueFields : List (List String) := []
  deriving Repr

structure Enumeration where
  name : String
  values : List String
  deriving DecidableEq, Repr

structure DataModel where
  models : List Model := []
  enums : List Enumeration := []
  deriving Repr

namespace Model

/-- The first field with the given name. -/
def field? (m : Model) (name : String) : Option Field := m.fields.find? (·.name == name)

/-- The first field that identifies the rows. -/
def idField? (m : Model) : Option Field := m.fields.find? (·.isId)

/-- The name in a document: that of the table if `mapped`. -/
def outputName (m : Model) (mapped : Bool) : String :=
  if mapped then m.dbName.getD m.name else m.name

/-- Whether a declared key of several fields consists of `fields`. -/
def keyMatches (fields key : List String) : Bool :=
  key.length == fields.length && fields.all key.contains

/-- Whether `fields` together are declared unique: a single field that the
model has says so itself, other lists are a declared key in any order. -/
def isUniqueKey (m : Model) (fields : List String) : Bool :=
  match fields with
  | [single] =>
    match m.field? single with
    | some f => f.isUnique || f.isId
    | none => declared
  | _ => declared
where
  /-- One of the keys that the model declares. -/
  declared : Bool :=
    m.primaryKey.any (keyMatches fields) || m.uniqueFields.any (keyMatches fields)

def toValue (m : Model) : Value :=
  .object ([("name", .string m.name)] ++
    optionalMember "dbName" (m.dbName.map .string) ++
    [("fields", .array (m.fields.map (·.toValue)))] ++
    optionalMember "documentation" (m.documentation.map .string) ++
    optionalMember "primaryKey" (m.primaryKey.map textsValue) ++
    if m.uniqueFields.isEmpty then []
    else [("uniqueFields", .array (m.uniqueFields.map textsValue))])

end Model

def Enumeration.toValue (e : Enumeration) : Value :=
  .object [("name", .string e.name), ("values", textsValue e.values)]

namespace DataModel

/-- The first model with the given name. -/
def model? (dm : DataModel) (name : String) : Option Model := dm.models.find? (·.name == name)

def toValue (dm : DataModel) : Value :=
  .object [("models", .array (dm.models.map (·.toValue))),
    ("enums", .array (dm.enums.map (·.toValue)))]

end DataModel

variable {σ : Type} {m : Type → Type} [Monad m] [Source σ m]

namespace Model

structure Draft where
  name : Option String := none
  dbName : Option (Option String) := none
  fields : Option (List Field) := none
  documentation : Option (Option String) := none
  primaryKey : Option (Option (List String)) := none
  uniqueFields : Option (List (List String)) := none

def slots : List (Slot σ m Draft) :=
  [.ofLens "name" true (·.name) (fun d v => { d with name := some v }) Data.readText,
   .ofLens "dbName" false (·.dbName) (fun d v => { d with dbName := some v })
    (Data.readOptional Data.readText),
   .ofLens "fields" true (·.fields) (fun d v => { d with fields := some v })
    (Data.readList Field.read),
   .ofLens "documentation" false (·.documentation) (fun d v => { d with documentation := some v })
    (Data.readOptional Data.readText),
   .ofLens "primaryKey" false (·.primaryKey) (fun d v => { d with primaryKey := some v })
    (Data.readOptional readTexts),
   .ofLens "uniqueFields" false (·.uniqueFields) (fun d v => { d with uniqueFields := some v })
    (Data.readList readTexts)]

def ofDraft (d : Draft) : Except Mismatch Model := do
  let name ← Data.required "name" d.name
  let fields ← Data.required "fields" d.fields
  return {
    name, fields
    dbName := d.dbName.join
    documentation := d.documentation.join
    primaryKey := d.primaryKey.join
    uniqueFields := d.uniqueFields.getD [] }

def read (c : σ) : m Model := Data.readRecord "ModelDef" slots {} ofDraft c

end Model

namespace Enumeration

structure Draft where
  name : Option String := none
  values : Option (List String) := none

def slots : List (Slot σ m Draft) :=
  [.ofLens "name" true (·.name) (fun d v => { d with name := some v }) Data.readText,
   .ofLens "values" true (·.values) (fun d v => { d with values := some v }) readTexts]

def ofDraft (d : Draft) : Except Mismatch Enumeration := do
  let name ← Data.required "name" d.name
  let values ← Data.required "values" d.values
  return { name, values }

def read (c : σ) : m Enumeration := Data.readRecord "EnumDef" slots {} ofDraft c

end Enumeration

namespace DataModel

structure Draft where
  models : Option (List Model) := none
  enums : Option (List Enumeration) := none

def slots : List (Slot σ m Draft) :=
  [.ofLens "models" false (·.models) (fun d v => { d with models := some v })
    (Data.readList Model.read),
   .ofLens "enums" false (·.enums) (fun d v => { d with enums := some v })
    (Data.readList Enumeration.read)]

def ofDraft (d : Draft) : Except Mismatch DataModel :=
  .ok { models := d.models.getD [], enums := d.enums.getD [] }

def read (c : σ) : m DataModel := Data.readRecord "Datamodel" slots {} ofDraft c

end DataModel

end Dbml
