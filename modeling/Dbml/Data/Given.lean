import Dbml.Data.Untyped

/-!
# Reading data from JSON values

A JSON value at hand is a place that typed data are read from, just as the text
of one is. It is read like untyped data, but for a list that has more elements
than its reader takes.
-/

namespace Dbml.Data

open Json (Value)

/-- The places of the elements of a list. -/
def givenItems (values : List Value) : Items Value (Except Mismatch) where
  elements := values
  beyond := .ok ()
  leftover n := if n < values.length then .error (.leftOver values.length) else .ok ()

/-- Refuses a value. -/
def refuseGiven {α : Type} (expected : Expected) (v : Value) : Except Mismatch α :=
  (Datum.ofValue v).refuse expected

def readGivenItems : Value → Except Mismatch (Items Value (Except Mismatch))
  | .array values => .ok (givenItems values)
  | v => refuseGiven .sequence v

def readGivenMembers (expected : Expected) :
    Value → Except Mismatch (Members Value (Except Mismatch))
  | .object members => .ok (.named (members.map fun (name, v) => (.ok (.text name), v)) (.ok ()))
  | .array values => .ok (.positional (givenItems values))
  | v => refuseGiven expected v

instance : Source Value (Except Mismatch) where
  fail := .error
  place _ result := result
  text expected v := (Datum.ofValue v).readText expected
  bool v := (Datum.ofValue v).readBool
  optional v := .ok (if v matches .null then none else some v)
  items := readGivenItems
  members := readGivenMembers
  taggedMembers _ := readGivenMembers
  variant recognise v := (Datum.ofValue v).readVariant recognise
  datum v := .ok (Datum.ofValue v)
  pass _ := .ok ()

end Dbml.Data
