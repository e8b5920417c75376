import Dbml.Config
import Dbml.Schema.Model

/-!
# JSON schemas

The shapes of schema descriptions and of configurations, for editors to check
them by. A schema is given by its members, in the order in which they are
written.
-/

namespace Dbml

open Json (Value)

/-- A JSON schema, by its members. -/
abbrev JsonSchema := List (String × Value)

namespace JsonSchema

def described (description : String) : JsonSchema := [("description", .string description)]

def typed (type : String) : JsonSchema := [("type", .string type)]

def oneOfTexts (texts : List String) : JsonSchema :=
  typed "string" ++ [("enum", textsValue texts)]

def orNull (type : String) : JsonSchema := [("type", textsValue [type, "null"])]

def standard (value : Value) : JsonSchema := [("default", value)]

def reference (name : String) : JsonSchema := [("$ref", .string ("#/$defs/" ++ name))]

def items (schema : JsonSchema) : JsonSchema := [("items", .object schema)]

def const (text : String) : JsonSchema := [("const", .string text)]

def oneOf (schemas : List JsonSchema) : JsonSchema := [("oneOf", .array (schemas.map .object))]

def referenceOrNull (name : String) : JsonSchema :=
  [("anyOf", .array [.object (reference name), .object (typed "null")])]

def flag (value : Bool) : JsonSchema := typed "boolean" ++ standard (.bool value)

def listOf (schema : JsonSchema) : JsonSchema := typed "array" ++ items schema

def properties (properties : List (String × JsonSchema)) : JsonSchema :=
  typed "object" ++ [("properties", .object (properties.map fun (name, s) => (name, .object s)))]

def required (names : List String) : JsonSchema := [("required", textsValue names)]

/-- A whole document: a schema with a title, and those that it refers to. -/
def document (title : String) (schema : JsonSchema) (definitions : List (String × JsonSchema)) :
    Value :=
  .object ([("$schema", .string "https://json-schema.org/draft/2020-12/schema"),
      ("title", .string title)] ++ schema ++
    [("$defs", .object (definitions.map fun (name, s) => (name, .object s)))])

/-! ## Configurations -/

def projectOptions : JsonSchema :=
  described "Optional `Project` block written at the top of the document." ++
  properties
    [("databaseType", described "e.g. `PostgreSQL`" ++ orNull "string"),
     ("name", typed "string"),
     ("note", orNull "string")] ++
  required ["name"]

def options : JsonSchema :=
  let o : Options := {}
  described "Options controlling how the schema description is rendered." ++
  properties
    [("includeRelationFields",
      described "Keep relation fields (`author User`) inside table blocks.\nDefault: `true`" ++
      flag o.includeRelationFields),
     ("manyToMany",
      described "Synthesize join tables for many-to-many relations.\nDefault: `true`" ++
      flag o.manyToMany),
     ("mapToDbSchema",
      described ("Use mapped database names (`dbName`) for tables instead of model names.\n" ++
        "Default: `false`") ++
      flag o.mapToDbSchema),
     ("project", referenceOrNull "ProjectOptions")]

/-- The values that options have if they are left out, by name. -/
def standardOptions : Value :=
  let o : Options := {}
  .object
    [("includeRelationFields", .bool o.includeRelationFields),
     ("manyToMany", .bool o.manyToMany),
     ("mapToDbSchema", .bool o.mapToDbSchema)]

def config : Value :=
  let c : Config := {}
  document "DbmlgenConfig"
    (described "Top-level dbmlgen configuration (`dbmlgen.json`)." ++
     properties
      [("dbml", reference "DbmlOptions" ++ standard standardOptions),
       ("outputDir", described "Directory the DBML file is written to." ++ typed "string"),
       ("outputName", typed "string" ++ standard (.string c.outputName)),
       ("schemaPath",
        described "Schema description file (`.json`, `.yaml` or `.yml`)." ++ typed "string")] ++
     required ["schemaPath", "outputDir"])
    [("DbmlOptions", options), ("ProjectOptions", projectOptions)]

/-! ## Schema descriptions -/

/-- One kind of default, which its tag tells. -/
def defaultOf (kind : String) (before after : List (String × JsonSchema))
    (names : List String) : JsonSchema :=
  properties (before ++ [("kind", typed "string" ++ const kind)] ++ after) ++
  required ("kind" :: names)

def defaultWith (kind type : String) : JsonSchema :=
  defaultOf kind [] [("value", typed type)] ["value"]

def columnDefault : JsonSchema :=
  described ("Default value of a field, tagged by kind.\n\n```json\n" ++
    "\x7b \"kind\": \"string\", \"value\": \"guest\" \x7d\n" ++
    "\x7b \"kind\": \"generated\", \"name\": \"now\" \x7d\n```") ++
  oneOf
    [defaultWith "string" "string",
     defaultWith "number" "number",
     defaultWith "boolean" "boolean",
     described "Member of an enum, e.g. `USER`." ++ defaultWith "enum" "string",
     described "Function-style value computed by the database or client, e.g. `now()`." ++
       defaultOf "generated" [("args", typed "array" ++ [("items", .bool true)])]
        [("name", typed "string")] ["name"],
     described "Any kind this crate does not know about." ++ defaultOf "unsupported" [] [] []]

def enumeration : JsonSchema :=
  properties [("name", typed "string"), ("values", listOf (typed "string"))] ++
  required ["name", "values"]

def field : JsonSchema :=
  properties
    [("default", referenceOrNull "DefaultValue"),
     ("documentation", orNull "string"),
     ("isId", flag false),
     ("isList", flag false),
     ("isRequired", flag false),
     ("isUnique", flag false),
     ("kind", reference "FieldKind"),
     ("name", typed "string"),
     ("relation", referenceOrNull "RelationDef"),
     ("type",
      described "Scalar type name, or the referenced model / enum name." ++ typed "string")] ++
  required ["name", "kind", "type"]

def fieldKind : JsonSchema :=
  described "What a field's `type` refers to." ++
  oneOf
    [oneOfTexts ((FieldKind.all.filter (· ≠ .object)).map (·.name)),
     described "Relation to another model." ++ typed "string" ++ const FieldKind.object.name]

def model : JsonSchema :=
  properties
    [("dbName",
      described "Name of the underlying database table, when mapped." ++ orNull "string"),
     ("documentation", orNull "string"),
     ("fields", listOf (reference "FieldDef")),
     ("name", typed "string"),
     ("primaryKey",
      described "Composite primary key, when declared at model level." ++
      orNull "array" ++ items (typed "string")),
     ("uniqueFields",
      described "Composite unique constraints declared at model level." ++
      listOf (listOf (typed "string")))] ++
  required ["name", "fields"]

def deleteAction : JsonSchema :=
  described
    "Referential action applied to dependent rows when the referenced row is deleted." ++
  oneOfTexts (DeleteAction.all.map (·.name))

def relationSide : JsonSchema :=
  described ("Relation metadata carried by a relation field.\n\n" ++
    "The side that holds the foreign key lists its scalar FK fields in\n" ++
    "`from_fields` and the referenced fields in `to_fields`. The back-reference\n" ++
    "side leaves both empty.") ++
  properties
    [("fromFields", listOf (typed "string")),
     ("name",
      described "Logical relation name, when one was assigned at declaration." ++
      orNull "string"),
     ("onDelete", referenceOrNull "ReferenceAction"),
     ("toFields", listOf (typed "string"))]

def dataModel : Value :=
  let listOfAll (name : String) : JsonSchema :=
    typed "array" ++ standard (.array []) ++ items (reference name)
  document "Datamodel"
    (described "The schema description: every model and enum, in declaration order." ++
     properties [("enums", listOfAll "EnumDef"), ("models", listOfAll "ModelDef")])
    [("DefaultValue", columnDefault), ("EnumDef", enumeration), ("FieldDef", field),
     ("FieldKind", fieldKind), ("ModelDef", model), ("ReferenceAction", deleteAction),
     ("RelationDef", relationSide)]

end JsonSchema

end Dbml
