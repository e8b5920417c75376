import Dbml.Document.Table
import Dbml.Relation.Classification

/-!
# References and join tables

A relation with a foreign key is a line that references one table from another
(`Reference`). A relation between lists is a table of its own, with a column for
each end that references the table the end points at (`JoinTable`).
-/

namespace Dbml

structure Reference where
  fromTable : String
  fromColumns : List String
  /-- Whether a referenced row has at most one row that references it. -/
  toOne : Bool
  toTable : String
  toColumns : List String
  onDelete : Option DeleteAction
  deriving DecidableEq, Repr

namespace Reference

def actionText : Option DeleteAction → String
  | some action => " [delete: " ++ action.words ++ "]"
  | none => ""

/-- The sign between the two sides. -/
def sign (r : Reference) : String := if r.toOne then " - " else " > "

def text (r : Reference) : String :=
  "Ref: " ++ r.fromTable ++ "." ++ combineKeys r.fromColumns ++ r.sign ++
    r.toTable ++ "." ++ combineKeys r.toColumns ++ actionText r.onDelete

end Reference

structure JoinColumn where
  name : String
  type : String
  /-- The table and the column that are referenced. -/
  table : String
  column : String
  deriving DecidableEq, Repr

def JoinColumn.text (c : JoinColumn) : String :=
  "  " ++ c.name ++ " " ++ c.type ++ " [ref: > " ++ c.table ++ "." ++ c.column ++ "]"

structure JoinTable where
  name : String
  first : JoinColumn
  second : JoinColumn
  deriving DecidableEq, Repr

namespace JoinTable

def lines (t : JoinTable) : List String := [tableHeader t.name, t.first.text, t.second.text, "\x7d"]

def text (t : JoinTable) : String := "\n".intercalate t.lines

end JoinTable

/-- The reference of a relation with a foreign key. -/
def Options.directReference (o : Options) (toOne : Bool) (r : DirectRelation) : Reference where
  fromTable := o.tableName r.foreignKey.owner
  fromColumns := r.fromFields
  toOne := toOne
  toTable := o.tableName r.foreignKey.target
  toColumns := r.toFields
  onDelete := r.onDelete

/-- The reference of a relation, unless that is between lists. -/
def Options.reference? (o : Options) : Relation → Option Reference
  | .oneToOne r => some (o.directReference true r)
  | .oneToMany r => some (o.directReference false r)
  | .manyToMany _ => none

/-- The column for one end of a relation between lists. -/
def Options.joinColumn (o : Options) (explicit : Bool) (e : Endpoint) :
    Except RenderError JoinColumn :=
  match e.target.idField? with
  | some id => .ok { name := joinColumnName e.field.name explicit, type := id.type,
                     table := o.tableName e.target, column := id.name }
  | none => .error (.missingIdField e.target.name)

/-- The join table of a relation between lists. -/
def Options.joinTable (o : Options) (r : ManyToMany) : Except RenderError JoinTable := do
  let first ← o.joinColumn r.explicit r.first
  let second ← o.joinColumn r.explicit r.second
  return { name := r.name, first, second }

end Dbml
