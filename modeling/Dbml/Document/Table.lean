import Dbml.Config
import Dbml.Json.Printer
import Dbml.Naming
import Dbml.RenderError
import Dbml.Schema.Model
import Dbml.Text.Quoted

/-!
# Tables

A table has a row for each field of its model, an index for each key of several
columns, and a note. A row lists the settings of its column between brackets
(`Setting`), in a fixed order: what identifies and what generates the value,
what constrains it, a literal default, and a note.
-/

namespace Dbml

open Text (quote)

/-- A setting of a column. -/
inductive Setting
  | pk
  | increment
  | unique
  | notNull
  | default (value : String)
  | note (text : String)
  deriving DecidableEq, Repr

def Setting.text : Setting → String
  | .pk => "pk"
  | .increment => "increment"
  | .unique => "unique"
  | .notNull => "not null"
  | .default value => "default: " ++ value
  | .note text => "note: " ++ quote '\'' text

/-- The text of a default; none for one of an unknown kind. Members of an
enumeration are quoted like strings, and expressions stand between backticks. -/
def ColumnDefault.text? : ColumnDefault → Option String
  | .string value | .member value => some (quote '\'' value)
  | .number value => some value.text
  | .boolean value => some (if value then "true" else "false")
  | .generated name args =>
    some ("`" ++ name ++ "(" ++ ", ".intercalate (args.map (·.compact)) ++ ")`")
  | .unsupported => none

/-- The text of a default of a field. -/
def ColumnDefault.render (model : Model) (field : Field) (d : ColumnDefault) :
    Except RenderError String :=
  match d.text? with
  | some text => .ok text
  | none => .error (.unsupportedDefault model.name field.name)

/-- A setting that is there under a condition. -/
def settingIf (condition : Bool) (setting : Setting) : List Setting :=
  if condition then [setting] else []

/-- A note, unless it is empty. -/
def noteOf (documentation : Option String) : Option String := documentation.filter (· ≠ "")

/-- The default of a field, split by whether it stands before the constraints or
after them. -/
def defaultSettings (model : Model) (field : Field) :
    Except RenderError (List Setting × List Setting) :=
  match field.default with
  | none => .ok ([], [])
  | some d =>
    if d.isAutoincrement then .ok ([.increment], [])
    else do
      let text ← d.render model field
      return if d.isGenerated then ([.default text], []) else ([], [.default text])

/-- The settings of the column of a field. -/
def columnSettings (model : Model) (field : Field) : Except RenderError (List Setting) := do
  let (generated, literal) ← defaultSettings model field
  return settingIf field.isId .pk ++ generated ++
    settingIf (field.isUnique && !field.isId) .unique ++
    settingIf (field.isRequired && !field.isId) .notNull ++ literal ++
    ((noteOf field.documentation).map .note).toList

/-- Settings between brackets, after a blank; nothing if there are none. -/
def attributesText : List Setting → String
  | [] => ""
  | settings => " [" ++ ", ".intercalate (settings.map (·.text)) ++ "]"

/-- A row of a table. -/
structure Row where
  name : String
  type : String
  settings : List Setting
  deriving DecidableEq, Repr

def Row.text (r : Row) : String := "  " ++ r.name ++ " " ++ r.type ++ attributesText r.settings

inductive IndexKind
  | pk
  | unique
  deriving DecidableEq, Repr

def IndexKind.text : IndexKind → String
  | .pk => "[pk]"
  | .unique => "[unique]"

/-- A key of several columns. -/
structure Index where
  columns : List String
  kind : IndexKind
  deriving DecidableEq, Repr

def Index.text (i : Index) : String :=
  "    (" ++ ", ".intercalate i.columns ++ ") " ++ i.kind.text

structure Table where
  name : String
  rows : List Row
  indexes : List Index
  note : Option String
  deriving DecidableEq, Repr

/-- The line that opens the block of a table. -/
def tableHeader (name : String) : String := "Table " ++ name ++ " \x7b"

namespace Table

/-- The block of indexes after an empty line, if there are any. -/
def indexLines : List Index → List String
  | [] => []
  | indexes => "" :: "  indexes \x7b" :: (indexes.map (·.text) ++ ["  \x7d"])

/-- The note after an empty line, if there is one. -/
def noteLines : Option String → List String
  | none => []
  | some note => ["", "  Note: " ++ quote '\'' note]

def lines (t : Table) : List String :=
  tableHeader t.name ::
    (t.rows.map (·.text) ++ indexLines t.indexes ++ noteLines t.note ++ ["\x7d"])

def text (t : Table) : String := "\n".intercalate t.lines

end Table

/-- The name of the table of a model. -/
def Options.tableName (o : Options) (m : Model) : String := m.outputName o.mapToDbSchema

/-- The name of the table of the model called `name`, or that name if there is
no such model. -/
def Options.tableNameOf (o : Options) (dm : DataModel) (name : String) : String :=
  match dm.model? name with
  | some m => o.tableName m
  | none => name

/-- The type of a row: a relation has that of the table it points at, and any
other list is marked as one. -/
def Options.rowType (o : Options) (dm : DataModel) (field : Field) : String :=
  if field.isRelation then o.tableNameOf dm field.type
  else if field.isList then field.type ++ "[]"
  else field.type

/-- The row of a field. -/
def Options.row (o : Options) (dm : DataModel) (model : Model) (field : Field) :
    Except RenderError Row := do
  let settings ← columnSettings model field
  return { name := field.name, type := o.rowType dm field, settings }

/-- The fields that have rows. -/
def Options.shownFields (o : Options) (model : Model) : List Field :=
  model.fields.filter fun field => o.includeRelationFields || !field.isRelation

/-- The keys of a model that are declared for several columns, the primary one
first. -/
def Model.indexes (m : Model) : List Index :=
  ((m.primaryKey.filter (· ≠ [])).map (⟨·, .pk⟩)).toList ++
    (m.uniqueFields.filter (1 < ·.length)).map (⟨·, .unique⟩)

/-- The table of a model. -/
def Options.table (o : Options) (dm : DataModel) (model : Model) : Except RenderError Table := do
  let rows ← (o.shownFields model).mapM (o.row dm model)
  return { name := o.tableName model, rows, indexes := model.indexes,
           note := noteOf model.documentation }

end Dbml
