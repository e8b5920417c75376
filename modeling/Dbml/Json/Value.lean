import Dbml.Number.Written

/-!
# JSON values

A number is an integer or a finite binary64 number (`Number`); the two are
never equal, since they are written differently. An object holds its members in
the order in which they are written.
-/

namespace Dbml.Json

inductive Number
  | integer (value : Int)
  | float (value : Binary64)
  deriving DecidableEq, Repr, Inhabited

namespace Number

/-- The integers that are kept as such: those of a signed or an unsigned 64-bit
word. -/
def IsWord (n : Int) : Prop := -0x8000000000000000 ≤ n ∧ n < 0x10000000000000000

instance (n : Int) : Decidable (IsWord n) := inferInstanceAs (Decidable (_ ∧ _))

/-- Decimal digits, after a minus for a negative integer. -/
def integerText (n : Int) : String :=
  if n < 0 then "-" ++ Nat.repr n.natAbs else Nat.repr n.natAbs

def text : Number → String
  | .integer n => integerText n
  | .float x => x.writeBounded

end Number

inductive Value
  | null
  | bool (value : Bool)
  | number (value : Number)
  | string (value : String)
  | array (items : List Value)
  | object (members : List (String × Value))
  deriving Repr, Inhabited

namespace Value

/-- Puts a member among members ordered by name, in place of one of the same
name. -/
def insertMember (name : String) (value : Value) : List (String × Value) → List (String × Value)
  | [] => [(name, value)]
  | (n, v) :: members =>
    if name = n then (name, value) :: members
    else if name < n then (name, value) :: (n, v) :: members
    else (n, v) :: insertMember name value members

/-- Members ordered by name; of those with one name the last. -/
def sortMembers (members : List (String × Value)) : List (String × Value) :=
  members.foldl (fun sorted (name, value) => insertMember name value sorted) []

/-- The first member of an object with the given name. -/
def member? (name : String) : Value → Option Value
  | .object members => members.lookup name
  | _ => none

end Value

end Dbml.Json
