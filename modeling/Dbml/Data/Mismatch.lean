import Dbml.Data.Datum
import Dbml.Text.Shown

/-!
# Data of the wrong shape

A mismatch says how the data of a well-formed document differ from what its
reader expects. Formats word it alike but for the name of nothing and the way
numbers are written (`Wording`).
-/

namespace Dbml.Data

open Json (Number)

/-- What was found. -/
inductive Found
  | null
  | bool (value : Bool)
  | number (value : Number)
  /-- The integer zero with a minus sign. -/
  | minusZero
  /-- An integer beyond the 64-bit words. -/
  | wideInteger (value : Int)
  | special (value : Special)
  | text (value : String)
  | sequence
  | map
  | tagged
  | nothing
  deriving DecidableEq, Repr

/-- What was expected. -/
inductive Expected
  | text
  | bool
  | sequence
  | number
  | path
  | unit
  | nullText
  | record (name : String)
  | taggedRecord (name : String)
  | variantRecord (name : String) (case : String)
  | variantName
  | fieldName
  | textKey
  | anything
  | tagOrAnything (tag : String)
  | variant
  | tag
  | integerText
  | floatText
  deriving DecidableEq, Repr

inductive Mismatch
  | missingField (name : String)
  | duplicateField (name : String)
  | unknownVariant (name : String) (known : List String)
  | wrongType (found : Found) (expected : Expected)
  | wrongText (text : String) (expected : Expected)
  | tooShort (length : Nat) (expected : Expected) (arity : Nat)
  | tooLong (length : Nat) (arity : Nat)
  /-- More elements than the reader takes. -/
  | leftOver (length : Nat)
  /-- A map of none or several keys in place of a name. -/
  | notSingleKey
  | notNumber
  /-- A tag chosen by the document where the data have to choose. -/
  | strayTag
  deriving DecidableEq, Repr

/-- A format's names for what it finds. -/
structure Wording where
  null : String
  float : Binary64 → String

namespace Found

def message (w : Wording) : Found → String
  | .null => w.null
  | .bool b => "boolean `" ++ (if b then "true" else "false") ++ "`"
  | .number (.integer n) => "integer `" ++ Number.integerText n ++ "`"
  | .minusZero => "integer `0`"
  | .number (.float x) => "floating point `" ++ w.float x ++ "`"
  | .wideInteger n =>
    "integer `" ++ Number.integerText n ++ (if n < 0 then "` as i128" else "` as u128")
  | .special (.infinity false) => "floating point `inf`"
  | .special (.infinity true) => "floating point `-inf`"
  | .special .undefined => "floating point `NaN`"
  | .text s => "string " ++ Text.shown s
  | .sequence => "sequence"
  | .map => "map"
  | .tagged => "enum"
  | .nothing => "Option value"

end Found

namespace Expected

def message : Expected → String
  | .text => "a string"
  | .bool => "a boolean"
  | .sequence => "a sequence"
  | .number => "a JSON number"
  | .path => "path string"
  | .unit => "unit"
  | .nullText => "null"
  | .record name => "struct " ++ name
  | .taggedRecord name => "internally tagged enum " ++ name
  | .variantRecord name case => "struct variant " ++ name ++ "::" ++ case
  | .variantName => "variant identifier"
  | .fieldName => "field identifier"
  | .textKey => "a string key"
  | .anything => "any value"
  | .tagOrAnything name => "a type tag `" ++ name ++ "` or any other value"
  | .variant => "string or map"
  | .tag => "a YAML tag starting with '!'"
  | .integerText => "an integer"
  | .floatText => "a float"

end Expected

/-- A number of elements. -/
def elements (n : Nat) : String := if n = 1 then "1 element" else Nat.repr n ++ " elements"

/-- Names between backticks, with commas. -/
def quotedNames (names : List String) : String :=
  ", ".intercalate (names.map fun name => "`" ++ name ++ "`")

namespace Mismatch

def message (w : Wording) : Mismatch → String
  | .missingField name => "missing field `" ++ name ++ "`"
  | .duplicateField name => "duplicate field `" ++ name ++ "`"
  | .unknownVariant name known =>
    "unknown variant `" ++ name ++ "`, expected one of " ++ quotedNames known
  | .wrongType found expected =>
    "invalid type: " ++ found.message w ++ ", expected " ++ expected.message
  | .wrongText text expected =>
    "invalid value: string " ++ Text.shown text ++ ", expected " ++ expected.message
  | .tooShort length expected arity =>
    "invalid length " ++ Nat.repr length ++ ", expected " ++ expected.message ++ " with " ++
      elements arity
  | .tooLong length arity =>
    "invalid length " ++ Nat.repr length ++ ", expected " ++ elements arity ++ " in sequence"
  | .leftOver length =>
    "invalid length " ++ Nat.repr length ++ ", expected fewer elements in array"
  | .notSingleKey => "invalid value: map, expected map with a single key"
  | .notNumber => "not a JSON number"
  | .strayTag => "untagged and internally tagged enums do not support enum input"

end Mismatch

/-- What a datum is, to a reader who expects something else. -/
def Datum.found : Datum → Found
  | .null => .null
  | .bool b => .bool b
  | .number n => .number n
  | .minusZero => .minusZero
  | .special x => .special x
  | .text s => .text s
  | .sequence _ => .sequence
  | .map _ => .map

end Dbml.Data
