import Dbml.Json.Value

/-!
# Untyped data

A datum is what a document says where its reader has no type to expect:
a scalar, a sequence, or a map whose keys are data too and may repeat.
-/

namespace Dbml.Data

open Json (Number Value)

/-- The values of a number format that are no numbers. -/
inductive Special
  | infinity (negative : Bool)
  | undefined
  deriving DecidableEq, Repr

inductive Datum
  | null
  | bool (value : Bool)
  | number (value : Number)
  /-- The integer zero with a minus sign. -/
  | minusZero
  | special (value : Special)
  | text (value : String)
  | sequence (items : List Datum)
  | map (entries : List (Datum × Datum))
  deriving Inhabited

mutual

/-- A JSON value as a datum. -/
def Datum.ofValue : Value → Datum
  | .null => .null
  | .bool b => .bool b
  | .number n => .number n
  | .string s => .text s
  | .array items => .sequence (ofItems items)
  | .object members => .map (ofMembers members)

def Datum.ofItems : List Value → List Datum
  | [] => []
  | item :: items => Datum.ofValue item :: Datum.ofItems items

def Datum.ofMembers : List (String × Value) → List (Datum × Datum)
  | [] => []
  | (name, value) :: members => (.text name, Datum.ofValue value) :: Datum.ofMembers members

end

end Dbml.Data
