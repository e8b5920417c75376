import Dbml.Relation.Grouping

/-!
# Classified relations

The ends of relations are grouped by what they have in common, and each group is
one relation or a fault (`DataModel.relations`). A relation has exactly two ends.
If one of them holds a foreign key, the other end is a list iff that key is not
unique; if none does, both are lists. Relations are ordered by the end that
holds the foreign key or, where there is none, by the first end.
-/

namespace Dbml

/-- A relation with a foreign key. -/
structure DirectRelation where
  /-- The end that holds the foreign key. -/
  foreignKey : Endpoint
  /-- The end on the side of the referenced model. -/
  referenced : Endpoint
  fromFields : List String
  toFields : List String
  onDelete : Option DeleteAction
  deriving Repr

/-- A relation between lists, with its ends in order. -/
structure ManyToMany where
  name : String
  /-- Whether that is another name than the default one. -/
  explicit : Bool
  first : Endpoint
  second : Endpoint
  deriving Repr

inductive Relation
  | oneToOne (relation : DirectRelation)
  | oneToMany (relation : DirectRelation)
  | manyToMany (relation : ManyToMany)
  deriving Repr

namespace Relation

/-- The end that decides where the relation stands among others. -/
def anchor : Relation → Endpoint
  | .oneToOne r | .oneToMany r => r.foreignKey
  | .manyToMany r => r.first

def direct? : Relation → Option DirectRelation
  | .oneToOne r | .oneToMany r => some r
  | .manyToMany _ => none

def manyToMany? : Relation → Option ManyToMany
  | .manyToMany r => some r
  | .oneToOne _ | .oneToMany _ => none

/-- The relation of two ends of which the first holds the foreign key. -/
def ofForeignKey (foreignKey referenced : Endpoint) : Except RelationFault Relation :=
  match foreignKey.field.relation with
  | none => .error .undescribed
  | some side =>
    if side.toFields.length ≠ side.fromFields.length then
      .error (.keyLengths foreignKey.owner.name foreignKey.field.name side.fromFields.length
        side.toFields.length)
    else if foreignKey.field.isList then
      .error (.listForeignKey foreignKey.owner.name foreignKey.field.name)
    else
      let relation : DirectRelation :=
        { foreignKey, referenced, fromFields := side.fromFields, toFields := side.toFields,
          onDelete := side.onDelete }
      match referenced.field.isList, foreignKey.owner.isUniqueKey side.fromFields with
      | true, false => .ok (.oneToMany relation)
      | false, true => .ok (.oneToOne relation)
      | true, true => .error .uniqueKeyOfList
      | false, false => .error .sharedKeyOfOne

/-- The relation of two ends that have a name in common. -/
def ofPair (name : String) (explicit : Bool) (first second : Endpoint) :
    Except RelationFault Relation :=
  match first.holdsForeignKey, second.holdsForeignKey with
  | true, true => .error .twoForeignKeys
  | true, false => ofForeignKey first second
  | false, true => ofForeignKey second first
  | false, false =>
    if first.field.isList && second.field.isList then
      .ok (.manyToMany { name, explicit, first, second })
    else .error .noForeignKey

/-- Before or at the same place. -/
def le (r s : Relation) : Bool := r.anchor.position.le s.anchor.position

end Relation

/-- The relation that a group is. -/
def RelationGroup.relation (g : RelationGroup) : Except RenderError Relation :=
  match g.ends with
  | [first, second] =>
    (Relation.ofPair g.name g.explicit first second).mapError (.unclassifiable g.name)
  | ends => .error (.unclassifiable g.name (.fieldCount ends.length))

/-- The relations of a data model, in order. -/
def DataModel.relations (dm : DataModel) : Except RenderError (List Relation) := do
  let ends ← dm.endpoints
  let relations ← (Grouping.ofEnds ends).groups.mapM RelationGroup.relation
  return relations.mergeSort Relation.le

end Dbml
