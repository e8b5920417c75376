import Dbml.Data.Record

/-!
# Reading data from untyped data

A datum is itself a place that typed data are read from. Its parts have no place
of their own, so that a fault is just a mismatch. Numbers and JSON values are
read from data here, whatever the document's format was.
-/

namespace Dbml.Data

open Json (Number Value)

namespace Datum

def refuse {α : Type} (expected : Expected) (d : Datum) : Except Mismatch α :=
  .error (.wrongType d.found expected)

def readText (expected : Expected) : Datum → Except Mismatch String
  | .text s => .ok s
  | d => d.refuse expected

def readBool : Datum → Except Mismatch Bool
  | .bool b => .ok b
  | d => d.refuse .bool

def readOptional : Datum → Except Mismatch (Option Datum)
  | .null => .ok none
  | d => .ok (some d)

/-- The elements of a list of data, of which none may be left over. -/
def itemsOf (data : List Datum) : Items Datum (Except Mismatch) where
  elements := data
  beyond := .ok ()
  leftover n := if n < data.length then .error (.tooLong data.length n) else .ok ()

def readItems : Datum → Except Mismatch (Items Datum (Except Mismatch))
  | .sequence data => .ok (itemsOf data)
  | d => d.refuse .sequence

def readMembers (expected : Expected) : Datum → Except Mismatch (Members Datum (Except Mismatch))
  | .map entries => .ok (.named (entries.map fun (key, value) => (.ok key, value)) (.ok ()))
  | .sequence data => .ok (.positional (itemsOf data))
  | d => d.refuse expected

def readVariant {α : Type} (recognise : String → Except Mismatch α) : Datum → Except Mismatch α
  | .text name => recognise name
  | .map [(.text name, value)] => do
    let result ← recognise name
    match value with
    | .null => return result
    | value => value.refuse .unit
  | .map [(key, _)] => key.refuse .variantName
  | .map _ => .error .notSingleKey
  | d => d.refuse .variant

end Datum

instance : Source Datum (Except Mismatch) where
  fail := .error
  place _ result := result
  text := Datum.readText
  bool := Datum.readBool
  optional := Datum.readOptional
  items := Datum.readItems
  members := Datum.readMembers
  taggedMembers _ := Datum.readMembers
  variant := Datum.readVariant
  datum := .ok
  pass _ := .ok ()

namespace Datum

/-- Reads a number; infinities and the undefined value are none. -/
def readNumber : Datum → Except Mismatch Number
  | .number n => .ok n
  | .minusZero => .ok (.integer 0)
  | .special _ => .error .notNumber
  | d => d.refuse .number

mutual

/-- Reads a JSON value, in which special numbers become nothing and members are
ordered by name, the last of each name being kept. -/
def readValue : Datum → Except Mismatch Value
  | .null | .special _ => .ok .null
  | .bool b => .ok (.bool b)
  | .number n => .ok (.number n)
  | .minusZero => .ok (.number (.integer 0))
  | .text s => .ok (.string s)
  | .sequence data => .array <$> readValues data
  | .map entries => (.object ∘ Value.sortMembers) <$> readEntries .textKey entries

def readValues : List Datum → Except Mismatch (List Value)
  | [] => .ok []
  | d :: data => do
    let first ← d.readValue
    let rest ← readValues data
    return first :: rest

/-- Reads entries whose first key is expected as it says, and the others as
texts. -/
def readEntries (first : Expected) :
    List (Datum × Datum) → Except Mismatch (List (String × Value))
  | [] => .ok []
  | (key, value) :: entries => do
    let name ← key.readText first
    let first ← value.readValue
    let rest ← readEntries .text entries
    return (name, first) :: rest

end

end Datum

end Dbml.Data
