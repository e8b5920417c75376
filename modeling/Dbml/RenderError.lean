/-!
# Why a document cannot be made

A relation may fail to be one of the three shapes, a default may be of an unknown
kind, and a join table may have no column to reference.
-/

namespace Dbml

/-- What is wrong with a relation. -/
inductive RelationFault
  | unknownModel (model field type : String)
  | fieldCount (count : Nat)
  | twoForeignKeys
  | noForeignKey
  /-- The end that holds the foreign key does not say what it refers to. -/
  | undescribed
  | keyLengths (model field : String) (own referenced : Nat)
  | listForeignKey (model field : String)
  | uniqueKeyOfList
  | sharedKeyOfOne
  deriving DecidableEq, Repr

inductive RenderError
  | unclassifiable (relation : String) (fault : RelationFault)
  | unsupportedDefault (model field : String)
  | missingIdField (model : String)
  deriving DecidableEq, Repr

def RelationFault.message : RelationFault → String
  | .unknownModel model field type =>
    "field " ++ model ++ "." ++ field ++ " points at unknown model '" ++ type ++ "'"
  | .fieldCount count => "expected 2 relation fields, found " ++ Nat.repr count
  | .twoForeignKeys => "both sides hold a foreign key"
  | .noForeignKey => "neither side holds a foreign key and the relation is not list-to-list"
  | .undescribed => "missing relation descriptor"
  | .keyLengths model field own referenced =>
    model ++ "." ++ field ++ " lists " ++ Nat.repr own ++ " foreign key field(s) but " ++
      Nat.repr referenced ++ " referenced field(s)"
  | .listForeignKey model field => "foreign key side " ++ model ++ "." ++ field ++ " is a list"
  | .uniqueKeyOfList => "foreign key is unique but the back-reference is a list"
  | .sharedKeyOfOne => "foreign key is not unique but the back-reference is singular"

def RenderError.message : RenderError → String
  | .unclassifiable relation fault =>
    "relation '" ++ relation ++ "' cannot be classified: " ++ fault.message
  | .unsupportedDefault model field =>
    "unsupported default value kind on field " ++ model ++ "." ++ field
  | .missingIdField model =>
    "model '" ++ model ++ "' has no single identifier field to reference from a join table"

end Dbml
