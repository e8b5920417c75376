import Dbml.Text.Lowercase

/-!
# Names

A relation has the name that it is given or a default one, made of the names of
its two models in lexicographic order (`defaultRelationName`). The columns of a
join table are named after the fields of the relation, and several columns that
form a key are put in parentheses.
-/

namespace Dbml

/-- The names of two models around `To`, the lesser one first. -/
def defaultRelationName (a b : String) : String :=
  if a ≤ b then a ++ "To" ++ b else b ++ "To" ++ a

/-- Whether a relation is given a name other than the default one. -/
def isExplicitName (name : Option String) (a b : String) : Bool :=
  match name with
  | some name => name ≠ defaultRelationName a b
  | none => false

/-- The name given, or the default one. -/
def effectiveName (name : Option String) (a b : String) : String :=
  name.getD (defaultRelationName a b)

/-- The column of a join table for a field: in lower case if the relation has an
explicit name. -/
def joinColumnName (field : String) (explicit : Bool) : String :=
  (if explicit then Text.lowercase field else field) ++ "Id"

/-- A single column, or columns in parentheses. -/
def combineKeys : List String → String
  | [key] => key
  | keys => "(" ++ ", ".intercalate keys ++ ")"

end Dbml
