import Dbml.Naming
import Dbml.RenderError
import Dbml.Schema.Model

/-!
# The ends of relations

Every field of kind `object` is an end of one relation. It knows its place in
the data model, the model that owns it and the one that it points at. Two ends
belong together if they have the same relation name and join the same two
models (`Endpoint.key`).
-/

namespace Dbml

/-- The place of a field: the index of its model, and its index there. -/
structure Position where
  model : Nat
  field : Nat
  deriving DecidableEq, Repr

/-- By model, then by field. -/
def Position.le (p q : Position) : Bool :=
  p.model < q.model || (p.model == q.model && p.field ≤ q.field)

/-- A field of kind `object`, with its place and the model that owns it. -/
structure RelationField where
  position : Position
  owner : Model
  field : Field
  deriving Repr

/-- The name of the relation that a field is an end of. -/
def RelationField.relationName (x : RelationField) : String :=
  effectiveName x.field.relationName x.owner.name x.field.type

structure Endpoint extends RelationField where
  /-- The model that the field points at. -/
  target : Model
  deriving Repr

/-- What the two ends of a relation have in common: its name, and the names of
the models in order. -/
structure RelationKey where
  name : String
  low : String
  high : String
  deriving DecidableEq, Repr

namespace Endpoint

/-- Whether the relation is given a name of its own here. -/
def isExplicit (e : Endpoint) : Bool :=
  isExplicitName e.field.relationName e.owner.name e.target.name

def key (e : Endpoint) : RelationKey :=
  if e.owner.name ≤ e.target.name then ⟨e.relationName, e.owner.name, e.target.name⟩
  else ⟨e.relationName, e.target.name, e.owner.name⟩

def holdsForeignKey (e : Endpoint) : Bool := e.field.holdsForeignKey

end Endpoint

namespace DataModel

/-- The fields of kind `object`, in order. -/
def relationFields (dm : DataModel) : List RelationField :=
  dm.models.zipIdx.flatMap fun (owner, i) =>
    (owner.fields.zipIdx.filter (·.1.isRelation)).map fun (field, j) => ⟨⟨i, j⟩, owner, field⟩

/-- The end that a field is, unless it points nowhere. -/
def endpoint (dm : DataModel) (x : RelationField) : Except RenderError Endpoint :=
  match dm.model? x.field.type with
  | some target => .ok ⟨x, target⟩
  | none => .error (.unclassifiable x.relationName
      (.unknownModel x.owner.name x.field.name x.field.type))

/-- The ends of all relations, in order. -/
def endpoints (dm : DataModel) : Except RenderError (List Endpoint) :=
  dm.relationFields.mapM dm.endpoint

end DataModel

end Dbml
