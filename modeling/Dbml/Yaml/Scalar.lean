import Dbml.Data.Mismatch
import Dbml.Yaml.Anchors

/-!
# The types of scalars

Where the reader has no type to expect, a plain scalar is what it looks like: one
of the spellings of nothing, of truth or falsehood, an integer in one of four
bases, or a decimal number; anything else is a text (`resolvePlain`). Digits
after a zero are a text. A tag of the core schema has to fit.
-/

namespace Dbml.Yaml

open Data (Expected Found Mismatch Special)
open Json (Number)

def isNull (s : String) : Bool := ["null", "Null", "NULL", "~"].contains s

/-- The spellings of nothing, among them no text at all. -/
def isNullOrEmpty (s : String) : Bool := s.isEmpty || isNull s

def boolOf? (s : String) : Option Bool :=
  if ["true", "True", "TRUE"].contains s then some true
  else if ["false", "False", "FALSE"].contains s then some false
  else none

/-- A zero and more digits, which is a text like a code or a telephone number. -/
def isPaddedDigits (cs : List Char) : Bool :=
  let digits := match cs with
    | '-' :: cs | '+' :: cs => cs
    | cs => cs
  1 < digits.length && digits.head? == some '0' && digits.all Char.isDigit

/-- The value of a digit of a base up to sixteen. -/
def digitValue? (base : Nat) (c : Char) : Option Nat :=
  (hexValue? c).filter (· < base)

/-- The natural that digits of a base denote. -/
def natural? (base : Nat) (cs : List Char) : Option Nat :=
  if cs.isEmpty then none
  else cs.foldlM (fun n c => (digitValue? base c).map (base * n + ·)) 0

/-- The base that a text names and the digits after that. -/
def baseOf : List Char → Option (Nat × List Char)
  | '0' :: 'x' :: cs => some (16, cs)
  | '0' :: 'o' :: cs => some (8, cs)
  | '0' :: 'b' :: cs => some (2, cs)
  | _ => none

/-- A natural in one of the bases. -/
def based? (cs : List Char) : Option Nat :=
  match baseOf cs with
  | some (base, digits) => natural? base digits
  | none => if isPaddedDigits cs then none else natural? 10 cs

/-- An integer, after a sign if there is one. -/
def integer? : List Char → Option Int
  | '-' :: cs => (based? cs).map fun n => -(n : Int)
  | '+' :: cs => (based? cs).map Int.ofNat
  | cs => (based? cs).map Int.ofNat

/-- The integers that are read at all. -/
def isReadable (n : Int) : Bool :=
  -0x80000000000000000000000000000000 ≤ n && n < 0x100000000000000000000000000000000

/-- A power of ten after an exponent mark; an absent one is zero. -/
def exponent? : List Char → Option Int
  | [] => some 0
  | c :: cs =>
    if c = 'e' ∨ c = 'E' then
      match cs with
      | '-' :: cs => (natural? 10 cs).map fun n => -(n : Int)
      | '+' :: cs => (natural? 10 cs).map Int.ofNat
      | cs => (natural? 10 cs).map Int.ofNat
    else none

/-- Beyond this power of ten every number is out of range or zero. -/
def farExponent : Int := 400

/-- The binary64 number nearest to `digits * 10 ^ exponent`. -/
def nearest (negative : Bool) (digits : List Char) (exponent : Int) : Option Binary64 :=
  let n := ((natural? 10 digits).getD 0)
  let size := (Nat.repr n).length + exponent
  if n = 0 ∨ size < -farExponent then some (.zero negative)
  else if farExponent < size then none
  else
    let (num, den) := scaleBy 10 n 1 exponent
    Binary64.round negative num den

/-- A decimal number without a sign. -/
def decimal? (negative : Bool) (cs : List Char) : Option Binary64 := do
  let whole := cs.takeWhile Char.isDigit
  let cs := cs.dropWhile Char.isDigit
  let (fraction, cs) := match cs with
    | '.' :: cs => (cs.takeWhile Char.isDigit, cs.dropWhile Char.isDigit)
    | cs => ([], cs)
  guard (!(whole ++ fraction).isEmpty)
  let exponent ← exponent? cs
  nearest negative (whole ++ fraction) (exponent - fraction.length)

/-- A number that need not be an integer, after a sign if there is one. -/
def float? (s : String) : Option Found :=
  if [".inf", ".Inf", ".INF", "+.inf", "+.Inf", "+.INF"].contains s then
    some (.special (.infinity false))
  else if ["-.inf", "-.Inf", "-.INF"].contains s then some (.special (.infinity true))
  else if [".nan", ".NaN", ".NAN"].contains s then some (.special .undefined)
  else
    let number := match s.toList with
      | '-' :: cs => decimal? true cs
      | '+' :: cs => decimal? false cs
      | cs => decimal? false cs
    number.map fun x => .number (.float x)

/-- An integer; one beyond the 64-bit words is none that data can hold. -/
def integerFound? (s : String) : Option Found :=
  match integer? s.toList with
  | some n =>
    if n = 0 ∧ s.toList.head? = some '-' then some .minusZero
    else if Number.IsWord n then some (.number (.integer n))
    else if isReadable n then some (.wideInteger n)
    else none
  | none => none

/-- What a plain scalar looks like. -/
def resolvePlain (s : String) : Found :=
  if isNullOrEmpty s then .null
  else match boolOf? s with
    | some b => .bool b
    | none => match integerFound? s with
      | some found => found
      | none =>
        if isPaddedDigits s.toList then .text s else (float? s).getD (.text s)

/-- A value that a tag asks for. -/
def tagged (s : String) (expected : Expected) : Option Found → Except Mismatch Found
  | some found => .ok found
  | none => .error (.wrongText s expected)

/-- What a scalar is. -/
def resolve (tag : Option Tag) (s : String) (style : Style) : Except Mismatch Found :=
  let untagged := if style = .plain then resolvePlain s else .text s
  match tag with
  | none => .ok untagged
  | some tag =>
    if tag = Tag.core "bool" then tagged s .bool ((boolOf? s).map .bool)
    else if tag = Tag.core "int" then tagged s .integerText (integerFound? s)
    else if tag = Tag.core "float" then tagged s .floatText (float? s)
    else if tag = Tag.core "null" then tagged s .nullText (if isNull s then some .null else none)
    else if tag.isLocal then .ok untagged
    else .ok (.text s)

end Dbml.Yaml
