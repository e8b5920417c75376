import Dbml.Document.Reference

/-!
# Documents

A document is a list of blocks: a banner, the project, a table for each model,
the enumerations, the references, and the join tables. It is made from a data
model as a whole or not at all (`Options.document`), and written with an empty
line between blocks (`Document.text`).
-/

namespace Dbml

open Text (quote)

/-- The comment that opens every document. -/
def banner : String :=
  "//// ------------------------------------------------------\n" ++
  "//// THIS FILE WAS AUTOMATICALLY GENERATED (DO NOT MODIFY)\n" ++
  "//// ------------------------------------------------------"

namespace Project

/-- A line that is there if there is a text for it. -/
def line (label : String) (text : Option String) : List String :=
  (text.map fun text => "  " ++ label ++ ": " ++ quote '\'' text).toList

def lines (p : Project) : List String :=
  ("Project " ++ quote '"' p.name ++ " \x7b") ::
    (line "database_type" p.databaseType ++ line "Note" p.note ++ ["\x7d"])

def text (p : Project) : String := "\n".intercalate p.lines

end Project

namespace Enumeration

def lines (e : Enumeration) : List String :=
  ("Enum " ++ e.name ++ " \x7b") :: (e.values.map ("  " ++ ·) ++ ["\x7d"])

def text (e : Enumeration) : String := "\n".intercalate e.lines

end Enumeration

structure Document where
  project : Option Project
  tables : List Table
  enums : List Enumeration
  references : List Reference
  joinTables : List JoinTable
  deriving DecidableEq, Repr

namespace Document

def blocks (d : Document) : List String :=
  banner :: ((d.project.map (·.text)).toList ++ d.tables.map (·.text) ++ d.enums.map (·.text) ++
    d.references.map (·.text) ++ d.joinTables.map (·.text))

def text (d : Document) : String := "\n\n".intercalate d.blocks

end Document

/-- The join tables of relations, if there are to be any. -/
def Options.joinTables (o : Options) (relations : List Relation) :
    Except RenderError (List JoinTable) :=
  if o.manyToMany then (relations.filterMap Relation.manyToMany?).mapM o.joinTable else .ok []

/-- The document of a data model. -/
def Options.document (o : Options) (dm : DataModel) : Except RenderError Document := do
  let relations ← dm.relations
  let tables ← dm.models.mapM (o.table dm)
  let joinTables ← o.joinTables relations
  return { project := o.project, tables, enums := dm.enums,
           references := relations.filterMap o.reference?, joinTables }

/-- The text of the document of a data model. -/
def Options.render (o : Options) (dm : DataModel) : Except RenderError String :=
  Document.text <$> o.document dm

end Dbml
