import Dbml.Path
import Dbml.Schema.Field

/-!
# Configuration

A project says where its schema description is, where the document goes, and
how it is rendered. Whatever is left out of a configuration file has the value
that it has without one.
-/

namespace Dbml

open Data (Mismatch Slot Source)
open Json (Value)

/-- The project that a document opens with. -/
structure Project where
  name : String
  databaseType : Option String := none
  note : Option String := none
  deriving DecidableEq, Repr

/-- How a document is rendered. -/
structure Options where
  /-- Many-to-many relations have join tables. -/
  manyToMany : Bool := true
  /-- Tables have rows for the sides of relations. -/
  includeRelationFields : Bool := true
  /-- Tables have their own names, not those of the models. -/
  mapToDbSchema : Bool := false
  project : Option Project := none
  deriving DecidableEq, Repr, Inhabited

structure Config where
  schemaPath : Path := ⟨"schema.json"⟩
  outputDir : Path := ⟨"dbml"⟩
  outputName : String := "schema.dbml"
  dbml : Options := {}
  deriving DecidableEq, Repr, Inhabited

namespace Config

/-- Where the document goes. -/
def outputPath (c : Config) : Path := c.outputDir.join ⟨c.outputName⟩

end Config

def Project.toValue (p : Project) : Value :=
  .object ([("name", .string p.name)] ++
    optionalMember "databaseType" (p.databaseType.map .string) ++
    optionalMember "note" (p.note.map .string))

def Options.toValue (o : Options) : Value :=
  .object ([("manyToMany", .bool o.manyToMany),
      ("includeRelationFields", .bool o.includeRelationFields),
      ("mapToDbSchema", .bool o.mapToDbSchema)] ++
    optionalMember "project" (o.project.map (·.toValue)))

def Config.toValue (c : Config) : Value :=
  .object [("schemaPath", .string c.schemaPath.text), ("outputDir", .string c.outputDir.text),
    ("outputName", .string c.outputName), ("dbml", c.dbml.toValue)]

variable {σ : Type} {m : Type → Type} [Monad m] [Source σ m]

namespace Project

structure Draft where
  name : Option String := none
  databaseType : Option (Option String) := none
  note : Option (Option String) := none

def slots : List (Slot σ m Draft) :=
  [.ofLens "name" true (·.name) (fun d v => { d with name := some v }) Data.readText,
   .ofLens "databaseType" false (·.databaseType) (fun d v => { d with databaseType := some v })
    (Data.readOptional Data.readText),
   .ofLens "note" false (·.note) (fun d v => { d with note := some v })
    (Data.readOptional Data.readText)]

def ofDraft (d : Draft) : Except Mismatch Project := do
  let name ← Data.required "name" d.name
  return { name, databaseType := d.databaseType.join, note := d.note.join }

def read (c : σ) : m Project := Data.readRecord "ProjectOptions" slots {} ofDraft c

end Project

namespace Options

structure Draft where
  manyToMany : Option Bool := none
  includeRelationFields : Option Bool := none
  mapToDbSchema : Option Bool := none
  project : Option (Option Project) := none

def slots : List (Slot σ m Draft) :=
  [.ofLens "manyToMany" false (·.manyToMany) (fun d v => { d with manyToMany := some v })
    Data.readBool,
   .ofLens "includeRelationFields" false (·.includeRelationFields)
    (fun d v => { d with includeRelationFields := some v }) Data.readBool,
   .ofLens "mapToDbSchema" false (·.mapToDbSchema) (fun d v => { d with mapToDbSchema := some v })
    Data.readBool,
   .ofLens "project" false (·.project) (fun d v => { d with project := some v })
    (Data.readOptional Project.read)]

def ofDraft (d : Draft) : Except Mismatch Options :=
  let standard : Options := {}
  .ok {
    manyToMany := d.manyToMany.getD standard.manyToMany
    includeRelationFields := d.includeRelationFields.getD standard.includeRelationFields
    mapToDbSchema := d.mapToDbSchema.getD standard.mapToDbSchema
    project := d.project.join }

def read (c : σ) : m Options := Data.readRecord "DbmlOptions" slots {} ofDraft c

end Options

namespace Config

structure Draft where
  schemaPath : Option String := none
  outputDir : Option String := none
  outputName : Option String := none
  dbml : Option Options := none

def slots : List (Slot σ m Draft) :=
  [.ofLens "schemaPath" true (·.schemaPath) (fun d v => { d with schemaPath := some v })
    Data.readPath,
   .ofLens "outputDir" true (·.outputDir) (fun d v => { d with outputDir := some v })
    Data.readPath,
   .ofLens "outputName" false (·.outputName) (fun d v => { d with outputName := some v })
    Data.readText,
   .ofLens "dbml" false (·.dbml) (fun d v => { d with dbml := some v }) Options.read]

def ofDraft (d : Draft) : Except Mismatch Config := do
  let standard : Config := {}
  let schemaPath ← Data.required "schemaPath" d.schemaPath
  let outputDir ← Data.required "outputDir" d.outputDir
  return {
    schemaPath := ⟨schemaPath⟩
    outputDir := ⟨outputDir⟩
    outputName := d.outputName.getD standard.outputName
    dbml := d.dbml.getD standard.dbml }

def read (c : σ) : m Config := Data.readRecord "DbmlgenConfig" slots {} ofDraft c

end Config

end Dbml
